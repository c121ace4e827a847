import ScamOn.IngestionGateway.Daemons
import ScamOn.IngestionGateway.Imap

/-!
# The webhook endpoints

`msgraph_webhook_endpoint` and `gmail_pubsub_webhook_endpoint` hand the
notifications of a request to the registered daemons of the provider, one after
the other.  An exception ends the request; the provider will send it again.

* `MailboxDaemonRegistry` is the table of daemons, `msgraphWebhookEndpoint` and
  `gmailPubsubWebhookEndpoint` are the endpoints.
* `sound_msgraphWebhookEndpoint`: the Graph endpoint keeps the gateway `Sound`, so
  every answer NEW has been delivered or quarantined.
* `graph_accounted` is what follows for every sequence of requests, and
  `graph_entry_evicted` shows that an entry does not stay for ever.
-/

namespace ScamOn.IngestionGateway

open DeadLetterQueue (Failure)

/-! ## The registry -/

/-- A daemon of one of the three kinds. -/
inductive Daemon
  | graph (d : GraphDaemon)
  | gmail (d : GmailDaemon)
  | imap (b : Mailbox) (h : b.provider = .imap)

def Daemon.mailbox : Daemon → Mailbox
  | graph d => d.mailbox
  | gmail d => d.mailbox
  | imap b _ => b

/-- The key a daemon is registered under. -/
def Daemon.key (d : Daemon) : Uuid × Uuid × MailboxProvider :=
  (d.mailbox.tenantId, d.mailbox.accountId, d.mailbox.provider)

/-- `MailboxDaemonRegistry`: every daemon is under its own key. -/
structure MailboxDaemonRegistry where
  daemonsById : Dict (Uuid × Uuid × MailboxProvider) Daemon
  keyed : ∀ p ∈ daemonsById.entries, p.2.key = p.1

namespace MailboxDaemonRegistry

/-- The registry without daemons. -/
def empty : MailboxDaemonRegistry := ⟨∅, fun _ h => absurd h List.not_mem_nil⟩

/-- `register`. -/
def register (r : MailboxDaemonRegistry) (d : Daemon) : MailboxDaemonRegistry where
  daemonsById := r.daemonsById.set d.key d
  keyed := by
    rintro ⟨k, d'⟩ hmem
    have hget := Dict.mem_entries_iff.1 hmem
    rw [Dict.get?_set] at hget
    split_ifs at hget with hk
    · rw [← Option.some.inj hget, hk]
    · exact r.keyed (k, d') (Dict.mem_entries_iff.2 hget)

/-- `list_daemons`, for all tenants. -/
def listDaemons (r : MailboxDaemonRegistry) : List Daemon := r.daemonsById.values

/-- The Graph daemons, in order of registration. -/
def graphDaemons (r : MailboxDaemonRegistry) : List GraphDaemon :=
  r.listDaemons.filterMap fun
    | .graph d => some d
    | _ => none

/-- The Gmail daemons, in order of registration. -/
def gmailDaemons (r : MailboxDaemonRegistry) : List GmailDaemon :=
  r.listDaemons.filterMap fun
    | .gmail d => some d
    | _ => none

end MailboxDaemonRegistry

/-- What an endpoint answers; `unhandled` is an exception that leaves it. -/
inductive Response
  | handshake (token : String)
  | accepted (processedCount : ℕ)
  | noContent
  | httpError (status : ℕ) (detail : String)
  | unhandled
  deriving DecidableEq, Repr

/-! ## Microsoft Graph -/

/-- A request to the Graph endpoint: the query, the body unless it is malformed,
and what the environment does for each notification and daemon. -/
structure GraphRequest where
  validationToken : Option String
  body : Option Json
  attempts : ℕ → Uuid → Uuid → Attempt

/-- Whether the endpoint passes a daemon by; the comparison may raise. -/
def GraphDaemon.skips (d : GraphDaemon) (received : Json) : Except String Bool :=
  match d.clientState with
  | none => .ok false
  | some state =>
    if state = "" then .ok false
    else (compareDigest state (if received.truthy then received else .str "")).map not

/-- `item.get("resourceData", {}).get("id")`, as an argument of `enqueue`: `none`
if the lookup or the argument's validation raises. -/
def providerMessageIdOf (item : List (String × Json)) : Option (Option String) :=
  match Json.field item "resourceData" (.obj []) with
  | .obj resourceData =>
    match Json.field resourceData "id" .null with
    | .null => some none
    | .str id => some (some id)
    | _ => none
  | _ => none

/-- Quarantine a notification, and raise the answer. -/
def enqueueNotification (c : Codec) (d : GraphDaemon) (y : Gateway) (item : List (String × Json))
    (reason text : String) (response : Response) : Gateway × Except Response ℕ :=
  match providerMessageIdOf item with
  | none => (y, .error .unhandled)
  | some id =>
    (y.quarantine
      { tenantId := d.mailbox.tenantId, accountId := d.mailbox.accountId, provider := .msGraph,
        reason := reason, errorMessage := text, providerMessageId := id,
        rawPayload := some (c.dumps (.obj item)) },
      .error response)

/-- The `except` clauses around `process_notification`. -/
def onNotificationError (c : Codec) (d : GraphDaemon) (y : Gateway) (item : List (String × Json)) :
    IngestError → Gateway × Except Response ℕ
  | .authenticationFailed _ => (y, .error (.httpError 401 "Invalid notification clientState"))
  | .payloadSizeExceeded text =>
    enqueueNotification c d y item "PAYLOAD_SIZE_EXCEEDED" text (.httpError 422 text)
  | exc =>
    enqueueNotification c d y item "PROCESSING_FAILURE" exc.message
      (.httpError 500 "Failed to process Graph notification")

/-- One daemon and one notification. -/
def notifyDaemon (x : Externals) (c : Codec) (d : GraphDaemon) (y : Gateway)
    (item : List (String × Json)) (attempt : Attempt) : Gateway × Except Response ℕ :=
  match d.processNotification x c y [(item, attempt)] with
  | (y', .ok ingested) => (y', .ok ingested.length)
  | (y', .error exc) => onNotificationError c d y' item exc

/-- The body of the loop over the daemons, for one notification. -/
def offerNotification (x : Externals) (c : Codec) (item : List (String × Json))
    (attempts : Uuid → Uuid → Attempt) (y : Gateway) (d : GraphDaemon) :
    Gateway × Except Response ℕ :=
  match d.skips (Json.field item "clientState" .null) with
  | .error _ => (y, .error .unhandled)
  | .ok true => (y, .ok 0)
  | .ok false => notifyDaemon x c d y item (attempts d.mailbox.tenantId d.mailbox.accountId)

/-- The body of the loop over the notifications of a request, which are numbered. -/
def routeNotification (x : Externals) (c : Codec) (ds : List GraphDaemon)
    (attempts : ℕ → Uuid → Uuid → Attempt) (y : Gateway) :
    Json × ℕ → Gateway × Except Response ℕ
  | (.obj item, i) => Loop.total (offerNotification x c item (attempts i)) y ds
  | _ => (y, .ok 0)

/-- The notifications in the body of a request, or the answer that refuses it. -/
def GraphRequest.notifications (req : GraphRequest) : Except Response (List Json) :=
  match req.body with
  | none => .error (.httpError 400 "Malformed JSON payload")
  | some (.obj fields) =>
    match fields.lookup "value" with
    | some (.arr items) => .ok items
    | _ => .error (.httpError 400 "Invalid notification envelope: missing 'value' array")
  | some _ => .error (.httpError 400 "Invalid notification envelope: missing 'value' array")

/-- The answer of a loop that may have raised one. -/
def Response.ofLoop : Except Response ℕ → Response
  | .ok n => .accepted n
  | .error response => response

/-- Steps 2 and 3 of the endpoint: read the body and route what is in it. -/
def acceptNotifications (x : Externals) (c : Codec) (r : MailboxDaemonRegistry) (y : Gateway)
    (req : GraphRequest) : Gateway × Response :=
  match req.notifications with
  | .error response => (y, response)
  | .ok items =>
    let routed := Loop.total (routeNotification x c r.graphDaemons req.attempts) y items.zipIdx
    (routed.1, .ofLoop routed.2)

/-- `msgraph_webhook_endpoint`. -/
def msgraphWebhookEndpoint (x : Externals) (c : Codec) (r : MailboxDaemonRegistry) (y : Gateway)
    (req : GraphRequest) : Gateway × Response :=
  match req.validationToken with
  | none => acceptNotifications x c r y req
  | some token =>
    if token = "" then acceptNotifications x c r y req else (y, .handshake token)

/-! ## Gmail -/

/-- A request to the Gmail endpoint. -/
structure GmailRequest where
  verificationToken : Option String
  body : Option Json
  calls : Uuid → Uuid → GmailCall

/-- The gateway, and the last history identifier of each Gmail daemon. -/
structure GmailState where
  gateway : Gateway
  lastHistoryId : Uuid × Uuid → Option ℤ

/-- Whether the token of a request is the daemon's; the comparison may raise. -/
def GmailDaemon.admits (d : GmailDaemon) (token : Option String) : Except String Bool :=
  match d.verificationToken with
  | none => .ok true
  | some expected =>
    if expected = "" then .ok true
    else
      match token with
      | none => .ok false
      | some received => if received = "" then .ok false else compareDigest expected (.str received)

/-- One daemon and the request's envelope. -/
def pushToDaemon (x : Externals) (c : Codec) (d : GmailDaemon) (s : GmailState)
    (body : List (String × Json)) (call : GmailCall) : GmailState × Except Response ℕ :=
  let account := (d.mailbox.tenantId, d.mailbox.accountId)
  let processed :=
    d.processPubsubEnvelope x c s.gateway (s.lastHistoryId account) body call
  let s' : GmailState :=
    ⟨processed.1.1, Function.update s.lastHistoryId account processed.1.2⟩
  match processed.2 with
  | .ok ingested => (s', .ok ingested.length)
  | .error exc =>
    ({ s' with
        gateway := s'.gateway.quarantine
          { tenantId := d.mailbox.tenantId, accountId := d.mailbox.accountId, provider := .gmail,
            reason := "PROCESSING_FAILURE", errorMessage := exc.message, providerMessageId := none,
            rawPayload := some (c.dumps (.obj body)) } },
      .error (.httpError 500 "Failed to process Gmail Pub/Sub message"))

/-- The body of the loop over the daemons.  A token that is not the daemon's ends
it. -/
def offerEnvelope (x : Externals) (c : Codec) (token : Option String) (body : List (String × Json))
    (calls : Uuid → Uuid → GmailCall) (s : GmailState) (d : GmailDaemon) :
    GmailState × Except Response ℕ :=
  match d.admits token with
  | .error _ => (s, .error .unhandled)
  | .ok false => (s, .error (.httpError 401 "Invalid verification token"))
  | .ok true => pushToDaemon x c d s body (calls d.mailbox.tenantId d.mailbox.accountId)

/-- The envelope in the body of a request, or the answer that refuses it. -/
def GmailRequest.envelope (req : GmailRequest) : Except Response (List (String × Json)) :=
  match req.body with
  | none => .error (.httpError 400 "Malformed JSON payload")
  | some (.obj fields) =>
    match fields.lookup "message" with
    | some (.obj _) => .ok fields
    | _ => .error (.httpError 400 "Invalid Pub/Sub envelope: missing 'message' object")
  | some _ => .error (.httpError 400 "Invalid Pub/Sub envelope: missing 'message' object")

/-- `gmail_pubsub_webhook_endpoint`. -/
def gmailPubsubWebhookEndpoint (x : Externals) (c : Codec) (r : MailboxDaemonRegistry)
    (s : GmailState) (req : GmailRequest) : GmailState × Response :=
  match req.envelope with
  | .error response => (s, response)
  | .ok body =>
    match r.gmailDaemons with
    | [] => (s, .noContent)
    | ds =>
      let routed := Loop.total (offerEnvelope x c req.verificationToken body req.calls) s ds
      (routed.1, .ofLoop routed.2)

/-! ## What the Graph endpoint does to the gateway -/

variable {x : Externals} {c : Codec} {d : GraphDaemon} {y : Gateway} {item : List (String × Json)}
  {attempt : Attempt}

/-- After an exception the gateway is as it was, or one more item is in quarantine,
for the daemon's account. -/
theorem onNotificationError_cases (c : Codec) (d : GraphDaemon) (y : Gateway)
    (item : List (String × Json)) (exc : IngestError) :
    (onNotificationError c d y item exc).1 = y ∨
      ∃ f : Failure, (f.tenantId = d.mailbox.tenantId ∧ f.accountId = d.mailbox.accountId) ∧
        (onNotificationError c d y item exc).1 = y.quarantine f := by
  have henqueue : ∀ reason text response,
      (enqueueNotification c d y item reason text response).1 = y ∨
        ∃ f : Failure, (f.tenantId = d.mailbox.tenantId ∧ f.accountId = d.mailbox.accountId) ∧
          (enqueueNotification c d y item reason text response).1 = y.quarantine f := by
    intro reason text response
    unfold enqueueNotification
    cases providerMessageIdOf item with
    | none => exact .inl rfl
    | some id => exact .inr ⟨_, ⟨rfl, rfl⟩, rfl⟩
  cases exc with
  | authenticationFailed text => exact .inl rfl
  | payloadSizeExceeded text => exact henqueue _ _ _
  | messageRetrieval text => exact henqueue _ _ _
  | other text => exact henqueue _ _ _

/-- **The invariant rule of the Graph endpoint.**  What every notification of a
registered daemon keeps, a request keeps. -/
theorem msgraphWebhookEndpoint_inv {I : Gateway → Prop} (r : MailboxDaemonRegistry)
    (req : GraphRequest)
    (hnotify : ∀ d ∈ r.graphDaemons, ∀ y item attempt, I y →
      I (notifyDaemon x c d y item attempt).1)
    (h : I y) : I (msgraphWebhookEndpoint x c r y req).1 := by
  have hoffer : ∀ item attempts y, ∀ d ∈ r.graphDaemons, I y →
      I (offerNotification x c item attempts y d).1 := by
    intro item attempts y d hd hy
    unfold offerNotification
    cases d.skips (Json.field item "clientState" .null) with
    | error text => exact hy
    | ok skipped =>
      cases skipped with
      | true => exact hy
      | false => exact hnotify d hd y item _ hy
  have hroute : ∀ y p, I y → I (routeNotification x c r.graphDaemons req.attempts y p).1 := by
    rintro y ⟨item, i⟩ hy
    cases item with
    | obj item => exact Loop.total_inv (hoffer item (req.attempts i)) hy
    | _ => exact hy
  have haccept : I (acceptNotifications x c r y req).1 := by
    unfold acceptNotifications
    cases req.notifications with
    | error response => exact h
    | ok items => exact Loop.total_inv (fun y p _ hy => hroute y p hy) h
  unfold msgraphWebhookEndpoint
  cases req.validationToken with
  | none => exact haccept
  | some token =>
    dsimp only
    split_ifs
    · exact haccept
    · exact h

/-! ## Every answer NEW is accounted for -/

theorem sound_onNotificationError (h : Sound x y) (exc : IngestError) :
    Sound x (onNotificationError c d y item exc).1 := by
  rcases onNotificationError_cases c d y item exc with hsame | ⟨f, -, hquarantine⟩
  · rw [hsame]
    exact h
  · rw [hquarantine]
    exact sound_quarantine h f

/-- The identifier that a daemon reads from a notification is the one that the
endpoint quarantines it under. -/
theorem providerMessageIdOf_of_messageIdOf {msgId : String}
    (h : GraphDaemon.messageIdOf c item = .ok (some msgId)) :
    providerMessageIdOf item = some (some msgId) := by
  unfold GraphDaemon.messageIdOf at h
  unfold providerMessageIdOf
  cases hchange : Json.field item "changeType" (.str "") with
  | str changeType =>
    cases hdata : Json.field item "resourceData" (.obj []) with
    | obj resourceData =>
      rw [hchange, hdata] at h
      dsimp only at h ⊢
      split_ifs at h
      all_goals try cases h
      cases hid : Json.field resourceData "id" .null with
      | str id =>
        rw [hid] at h
        rw [Option.some.inj (Except.ok.inj h)]
      | _ =>
        rw [hid] at h
        cases h
    | _ =>
      rw [hchange, hdata] at h
      cases h
  | _ =>
    rw [hchange] at h
    cases h

/-- Every exception but a failed authentication has the message enqueued. -/
theorem onNotificationError_of_id {msgId : String} {exc : IngestError}
    (hid : providerMessageIdOf item = some (some msgId))
    (hexc : ∀ text, exc ≠ .authenticationFailed text) :
    ∃ f, Names d.mailbox msgId f ∧ (onNotificationError c d y item exc).1 = y.quarantine f := by
  have henqueue : ∀ reason text response, ∃ f, Names d.mailbox msgId f ∧
      (enqueueNotification c d y item reason text response).1 = y.quarantine f := by
    intro reason text response
    rw [enqueueNotification, hid]
    exact ⟨_, ⟨rfl, rfl, rfl⟩, rfl⟩
  cases exc with
  | authenticationFailed text => exact absurd rfl (hexc text)
  | payloadSizeExceeded text => exact henqueue _ _ _
  | messageRetrieval text => exact henqueue _ _ _
  | other text => exact henqueue _ _ _

/-- A message that is marked and was stopped is accounted for by what the endpoint
enqueues. -/
theorem sound_of_stopped {y' : Gateway} {now : ℚ} {msgId : String} {exc : IngestError}
    {delivered : Bool} (h : Sound x y) (ht : y'.Tracked x) (hgrow : y.Grows y')
    (hlog : y'.log =
      y.log ++ [⟨now, d.mailbox.tenantId, d.mailbox.accountId, msgId, delivered⟩])
    (hid : providerMessageIdOf item = some (some msgId))
    (hexc : ∀ text, exc ≠ .authenticationFailed text) :
    Sound x (onNotificationError c d y' item exc).1 := by
  obtain ⟨f, hf, hstate⟩ := onNotificationError_of_id (c := c) (d := d) (y := y') hid hexc
  rw [hstate]
  refine h.of_admission (tracked_quarantine ht f) (hgrow.trans (grows_quarantine y' f)) hlog
    (.inr ⟨f.item y'.dlq.nextId, ?_, hf⟩)
  exact List.mem_append_right _ (List.mem_singleton.2 rfl)

theorem sound_notifyDaemon (h : Sound x y) :
    Sound x (notifyDaemon x c d y item attempt).1 := by
  rw [notifyDaemon, GraphDaemon.processNotification, collect, Loop.forEach_singleton]
  have hend := processNotificationItem_end x c d y item attempt
  generalize d.processNotificationItem x c y (item, attempt) = r at hend
  cases hend with
  | refused exc => exact sound_onNotificationError h exc
  | passed => exact h
  | once msgId hid r hr =>
    have ht := hr.tracked h.tracked
    have hgrow := hr.grows
    cases hr with
    | duplicate hdup => exact sound_counted h
    | worked hnew r hr =>
      cases hr with
      | delivered dto => exact h.of_admission ht hgrow rfl (.inl rfl)
      | stopped exc hexc =>
        exact sound_of_stopped h ht hgrow rfl (providerMessageIdOf_of_messageIdOf hid) hexc
      | quarantined f exc hf =>
        refine sound_onNotificationError ?_ exc
        refine h.of_admission ht hgrow rfl (.inr ⟨f.item y.dlq.nextId, ?_, hf⟩)
        exact List.mem_append_right _ (List.mem_singleton.2 rfl)

theorem sound_msgraphWebhookEndpoint (r : MailboxDaemonRegistry) (req : GraphRequest)
    (h : Sound x y) : Sound x (msgraphWebhookEndpoint x c r y req).1 :=
  msgraphWebhookEndpoint_inv r req (fun _ _ _ _ _ hy => sound_notifyDaemon hy) h

/-! ## Runs of the Graph endpoint -/

/-- A request, to the daemons registered at the time. -/
def graphStep (x : Externals) (c : Codec) (y : Gateway) (call : MailboxDaemonRegistry × GraphRequest) :
    Gateway × Response :=
  msgraphWebhookEndpoint x c call.1 y call.2

/-- The two admissions are of one message. -/
def Admission.SameMessage (a b : Admission) : Prop :=
  a.tenantId = b.tenantId ∧ a.accountId = b.accountId ∧
    Text.strip a.providerMessageId = Text.strip b.providerMessageId

/-- The message was delivered, and not admitted at any other time within the
lifetime of a mark. -/
def DeliveredOnce (y : Gateway) (others : List Admission) (a : Admission) : Prop :=
  a.delivered = true ∧ ∀ b ∈ others, a.SameMessage b →
    a.now + y.dedup.ttl ≤ b.now ∨ b.now + y.dedup.ttl ≤ a.now

/-- Every message admitted was delivered once, or is in the queue. -/
def DeliveredOrQueued (y : Gateway) : Prop :=
  ∀ pre a post, y.log = pre ++ a :: post →
    DeliveredOnce y (pre ++ post) a ∨
      ∃ item ∈ y.dlq.items.values, item.Names a.tenantId a.accountId a.providerMessageId

/-- Every message admitted was delivered once, or enqueued; and what was enqueued
is in the queue for as long as fewer items than it has room for came after it. -/
def DeliveredOrEnqueued (y : Gateway) : Prop :=
  ∀ pre a post, y.log = pre ++ a :: post →
    DeliveredOnce y (pre ++ post) a ∨
      ∃ before item after, y.quarantined = before ++ item :: after ∧
        item.Names a.tenantId a.accountId a.providerMessageId ∧
        (after.length < y.dlq.maxItems → item ∈ y.dlq.items.values)

/-- Two admissions of one message are a mark's lifetime apart. -/
theorem Gateway.Tracked.apart (h : y.Tracked x) {pre post : List Admission} {a b : Admission}
    (hlog : y.log = pre ++ a :: post) (hb : b ∈ pre ++ post) (hsame : a.SameMessage b) :
    a.now + y.dedup.ttl ≤ b.now ∨ b.now + y.dedup.ttl ≤ a.now := by
  obtain ⟨ht, hacc, hid⟩ := hsame
  have hkey : a.key x = b.key x := by
    rw [Admission.key, Admission.key, ht, hacc]
    exact computeDedupKey_congr _ _ _ hid
  rcases lt_or_ge y.dedup.ttl 0 with hneg | httl
  · -- marks that are over before they begin keep nothing apart
    rcases le_total a.now b.now with hle | hle
    · exact .inl (by linarith)
    · exact .inr (by linarith)
  · have hspaced := h.spaced httl
    rw [hlog] at hspaced
    obtain ⟨-, hpost, hpre⟩ := List.pairwise_append.1 hspaced
    rcases List.mem_append.1 hb with hb | hb
    · exact .inr (hpre b hb a (List.mem_cons_self ..) hkey.symm)
    · exact .inl ((List.pairwise_cons.1 hpost).1 b hb hkey)

/-- **Delivered or quarantined.**  After any sequence of requests, whatever fails
in them, every message that was ever found new was delivered exactly once within
the lifetime of its mark, or enqueued, and it is in the queue until as many items
have followed as the queue holds. -/
theorem graph_accounted (x : Externals) (c : Codec) (defaultTtlSec : ℤ) (maxItems : ℕ)
    (calls : List (MailboxDaemonRegistry × GraphRequest)) :
    DeliveredOrEnqueued
      (Machine.run (graphStep x c) (Gateway.init defaultTtlSec maxItems) calls) := by
  have hsound :
      Sound x (Machine.run (graphStep x c) (Gateway.init defaultTtlSec maxItems) calls) := by
    refine Machine.inv_run (I := Sound x) (C := fun _ _ => True) ?_
      (sound_init x defaultTtlSec maxItems) (Machine.always_of_forall (fun _ _ => trivial) _ _)
    intro y call h _
    exact sound_msgraphWebhookEndpoint call.1 call.2 h
  intro pre a post hlog
  have ha : a ∈ (Machine.run (graphStep x c) (Gateway.init defaultTtlSec maxItems) calls).log := by
    rw [hlog]
    exact List.mem_append_right _ (List.mem_cons_self ..)
  rcases hsound.accounts a ha with hdelivered | ⟨item, hitem, hnames⟩
  · exact .inl ⟨hdelivered, fun b hb hsame => hsound.tracked.apart hlog hb hsame⟩
  · obtain ⟨before, after, hsplit⟩ := List.append_of_mem hitem
    refine .inr ⟨before, item, after, hsplit, hnames, fun hroom => ?_⟩
    rw [(hsound.tracked.queue ((Nat.zero_le _).trans_lt hroom)).2, hsplit]
    exact mem_keepLast hroom

/-! ## A queue of one entry -/

def sampleGraphDaemon : GraphDaemon where
  mailbox := { sampleMailbox with provider := .msGraph }
  clientState := none
  provider_eq := rfl

/-- The library on the samples: notifications that hold a message identifier and
nothing else, and a push for the mailbox `u@corp.local`. -/
def sampleCodec : Codec where
  lower s := String.ofList (s.toList.map Char.toLower)
  str
    | .str s => s
    | _ => "None"
  int
    | .int n => .ok n
    | _ => .error none
  dumps
    | .obj [("resourceData", .obj [("id", .str id)])] =>
      "\x7b\"resourceData\": \x7b\"id\": \"" ++ id ++ "\"\x7d\x7d"
    | _ => "null"
  decodeData
    | .str data =>
      if data = "eyJlbWFpbEFkZHJlc3MiOiAidUBjb3JwLmxvY2FsIiwgImhpc3RvcnlJZCI6IDd9" then
        .ok (.obj [("emailAddress", .str "u@corp.local"), ("historyId", .int 7)])
      else .error "Incorrect padding"
    | _ => .error "argument should be a bytes-like object or ASCII string"

/-- A notification of one message, which cannot be fetched. -/
def sampleRequest (id : String) (now : ℚ) : GraphRequest where
  validationToken := none
  body := some (.obj [("value", .arr [.obj [("resourceData", .obj [("id", .str id)])]])])
  attempts _ _ _ := ⟨now, .error "503 Service Unavailable", none⟩

/-- In a queue of one entry, the second failure takes the place of the first,
whose message was not delivered. -/
theorem graph_entry_evicted :
    ¬DeliveredOrQueued (Machine.run (graphStep sampleExternals sampleCodec) (Gateway.init 86400 1)
      [(.register .empty (.graph sampleGraphDaemon), sampleRequest "1" 0),
        (.register .empty (.graph sampleGraphDaemon), sampleRequest "2" 60)]) := by
  intro h
  rcases h [] ⟨0, .ofNat 1, .ofNat 2, "1", false⟩ [⟨60, .ofNat 1, .ofNat 2, "2", false⟩]
    (by decide +kernel) with ⟨hdelivered, -⟩ | ⟨item, hitem, hnames⟩
  · cases hdelivered
  · have hgone : ∀ item ∈ (Machine.run (graphStep sampleExternals sampleCodec)
        (Gateway.init 86400 1)
        [(.register .empty (.graph sampleGraphDaemon), sampleRequest "1" 0),
          (.register .empty (.graph sampleGraphDaemon), sampleRequest "2" 60)]).dlq.items.values,
        ¬item.Names (.ofNat 1) (.ofNat 2) "1" := by
      decide +kernel
    exact hgone item hitem hnames

end ScamOn.IngestionGateway
