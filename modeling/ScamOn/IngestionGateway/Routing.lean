import Mathlib.Logic.Function.Basic
import ScamOn.IngestionGateway.Webhook

/-!
# Routing between tenants

Both endpoints offer a request to every registered daemon of the provider, so
what becomes of it might depend on daemons it is not meant for.  It does not if
those daemons tell that it is not for them: a Graph daemon by its client state, a
Gmail daemon by its mailbox address.

* `Owned` says that an endpoint admitted and quarantined messages of one mailbox
  only.
* `GraphApart` and `GmailApart`: the other daemons of a registry pass the request
  by.  `msgraphWebhookEndpoint_alone` and `gmailPubsubWebhookEndpoint_alone` say
  that the request is then handled as if the addressed daemon were the only one.
* `tenants_apart` compares two registries, and `stateless_daemon_listens` shows
  what a Graph daemon without a client state does.
-/

namespace ScamOn.IngestionGateway

open DeadLetterQueue (Failure)

/-! ## Whose messages are touched -/

/-- Between the two states, only messages of the mailbox were admitted or
quarantined. -/
structure Owned (b : Mailbox) (y y' : Gateway) : Prop where
  log : ∀ a ∈ y'.log, a ∈ y.log ∨ a.tenantId = b.tenantId ∧ a.accountId = b.accountId
  quarantined : ∀ item ∈ y'.quarantined,
    item ∈ y.quarantined ∨ item.tenantId = b.tenantId ∧ item.accountId = b.accountId

variable {x : Externals} {c : Codec} {b : Mailbox} {y y' : Gateway}

theorem Owned.refl (b : Mailbox) (y : Gateway) : Owned b y y :=
  ⟨fun _ h => .inl h, fun _ h => .inl h⟩

theorem Owned.trans {y'' : Gateway} (h : Owned b y y') (h' : Owned b y' y'') : Owned b y y'' := by
  constructor
  · intro a ha
    rcases h'.log a ha with hold | hown
    · exact h.log a hold
    · exact .inr hown
  · intro item hitem
    rcases h'.quarantined item hitem with hold | hown
    · exact h.quarantined item hold
    · exact .inr hown

theorem owned_quarantine (y : Gateway) {f : Failure} (ht : f.tenantId = b.tenantId)
    (ha : f.accountId = b.accountId) : Owned b y (y.quarantine f) := by
  refine ⟨fun _ h => .inl h, fun item hitem => ?_⟩
  rcases List.mem_append.1 hitem with hold | hnew
  · exact .inl hold
  · rw [List.mem_singleton.1 hnew]
    exact .inr ⟨ht, ha⟩

theorem owned_logged (y : Gateway) (now : ℚ) (msgId : String) (delivered : Bool) :
    Owned b y (y.logged b now msgId delivered) := by
  refine ⟨fun a ha => ?_, fun _ h => .inl h⟩
  rcases List.mem_append.1 ha with hold | hnew
  · exact .inl hold
  · rw [List.mem_singleton.1 hnew]
    exact .inr ⟨rfl, rfl⟩

theorem OnceEnd.owned {now : ℚ} {msgId : String}
    {r : Gateway × Except IngestError (Option IngestedEmail)} (hr : OnceEnd x b y now msgId r) :
    Owned b y r.1 := by
  cases hr with
  | duplicate h => exact ⟨fun _ h => .inl h, fun _ h => .inl h⟩
  | worked h r hr =>
    have hmark : Owned b y { y with dedup := y.dedup.marking x b now msgId } :=
      ⟨fun _ h => .inl h, fun _ h => .inl h⟩
    have hwork : Owned b y r.1 := by
      cases hr with
      | delivered dto => exact hmark
      | stopped exc hexc => exact hmark
      | quarantined f exc hf => exact hmark.trans (owned_quarantine _ hf.1 hf.2.1)
    exact hwork.trans (owned_logged r.1 now msgId _)

/-! ## Lists of daemons -/

theorem MailboxDaemonRegistry.nodup_listDaemons (r : MailboxDaemonRegistry) :
    r.listDaemons.Nodup := by
  have hkeys : r.daemonsById.entries.map (fun p => p.2.key) = r.daemonsById.entries.map Prod.fst :=
    List.map_congr_left r.keyed
  refine List.Nodup.of_map Daemon.key ?_
  rw [listDaemons, Dict.values, List.map_map]
  exact hkeys ▸ r.daemonsById.nodup

theorem MailboxDaemonRegistry.nodup_graphDaemons (r : MailboxDaemonRegistry) :
    r.graphDaemons.Nodup := by
  refine r.nodup_listDaemons.filterMap ?_
  intro d d' g hd hd'
  cases d <;> cases d' <;> simp_all

theorem MailboxDaemonRegistry.nodup_gmailDaemons (r : MailboxDaemonRegistry) :
    r.gmailDaemons.Nodup := by
  refine r.nodup_listDaemons.filterMap ?_
  intro d d' g hd hd'
  cases d <;> cases d' <;> simp_all

/-! ## Microsoft Graph -/

/-- The registry in which a Graph daemon is alone. -/
def onlyGraph (d : GraphDaemon) : MailboxDaemonRegistry := .register .empty (.graph d)

theorem graphDaemons_onlyGraph (d : GraphDaemon) : (onlyGraph d).graphDaemons = [d] := rfl

/-- The daemon has a client state, which is found different from the one received. -/
def GraphDaemon.HasOtherState (d : GraphDaemon) (received : Json) : Prop :=
  ∃ state, d.clientState = some state ∧ state ≠ "" ∧
    compareDigest state (if received.truthy then received else .str "") = .ok false

/-- The daemon is registered, and every other Graph daemon has a client state other
than those in the request. -/
structure GraphApart (r : MailboxDaemonRegistry) (d : GraphDaemon) (req : GraphRequest) : Prop where
  registered : d ∈ r.graphDaemons
  others : ∀ d' ∈ r.graphDaemons, d' ≠ d → ∀ items, req.notifications = .ok items →
    ∀ item, .obj item ∈ items → d'.HasOtherState (Json.field item "clientState" .null)

variable {r : MailboxDaemonRegistry} {d : GraphDaemon} {item : List (String × Json)}

theorem offerNotification_of_other (h : d.HasOtherState (Json.field item "clientState" .null))
    (attempts : Uuid → Uuid → Attempt) (y : Gateway) :
    offerNotification x c item attempts y d = (y, .ok 0) := by
  obtain ⟨state, hstate, hne, hcompare⟩ := h
  have hskips : d.skips (Json.field item "clientState" .null) = .ok true := by
    rw [GraphDaemon.skips, hstate]
    dsimp only
    rw [if_neg hne, hcompare]
    rfl
  rw [offerNotification, hskips]

/-- **The daemon as if alone.**  Other daemons that tell the request is not for them
make no difference to it. -/
theorem msgraphWebhookEndpoint_alone {req : GraphRequest} (h : GraphApart r d req) (y : Gateway) :
    msgraphWebhookEndpoint x c r y req = msgraphWebhookEndpoint x c (onlyGraph d) y req := by
  have haccept : acceptNotifications x c r y req = acceptNotifications x c (onlyGraph d) y req := by
    unfold acceptNotifications
    cases hitems : req.notifications with
    | error response => rfl
    | ok items =>
      have hloop : ∀ p ∈ items.zipIdx, ∀ y,
          routeNotification x c r.graphDaemons req.attempts y p =
            routeNotification x c (onlyGraph d).graphDaemons req.attempts y p := by
        rintro ⟨item, i⟩ hp y
        cases item with
        | obj item =>
          refine Loop.total_alone h.registered r.nodup_graphDaemons ?_ y
          intro d' hd' hne y
          refine offerNotification_of_other ?_ _ y
          exact h.others d' hd' hne items hitems item (List.fst_mem_of_mem_zipIdx hp)
        | _ => rfl
      dsimp only
      rw [Loop.total_congr hloop]
  unfold msgraphWebhookEndpoint
  rw [haccept]

theorem owned_onNotificationError (y : Gateway) (exc : IngestError) :
    Owned d.mailbox y (onNotificationError c d y item exc).1 := by
  rcases onNotificationError_cases c d y item exc with hsame | ⟨f, ⟨ht, ha⟩, hquarantine⟩
  · rw [hsame]
    exact .refl _ y
  · rw [hquarantine]
    exact owned_quarantine y ht ha

theorem owned_notifyDaemon (y : Gateway) (attempt : Attempt) :
    Owned d.mailbox y (notifyDaemon x c d y item attempt).1 := by
  rw [notifyDaemon, GraphDaemon.processNotification, collect, Loop.forEach_singleton]
  have hend := processNotificationItem_end x c d y item attempt
  generalize d.processNotificationItem x c y (item, attempt) = result at hend
  have howned : Owned d.mailbox y result.1 := by
    cases hend with
    | refused exc => exact .refl _ y
    | passed => exact .refl _ y
    | once msgId hid _ hr => exact hr.owned
  rcases result with ⟨y', exc | dto⟩
  · exact howned.trans (owned_onNotificationError y' exc)
  · exact howned

theorem owned_msgraphWebhookEndpoint (y : Gateway) (req : GraphRequest) :
    Owned d.mailbox y (msgraphWebhookEndpoint x c (onlyGraph d) y req).1 := by
  refine msgraphWebhookEndpoint_inv (I := Owned d.mailbox y) _ req ?_ (.refl _ y)
  intro d' hd' y' item attempt hy'
  rw [graphDaemons_onlyGraph, List.mem_singleton] at hd'
  rw [hd']
  exact hy'.trans (owned_notifyDaemon y' attempt)

/-! ## Gmail -/

/-- The registry in which a Gmail daemon is alone. -/
def onlyGmail (d : GmailDaemon) : MailboxDaemonRegistry := .register .empty (.gmail d)

theorem gmailDaemons_onlyGmail (d : GmailDaemon) : (onlyGmail d).gmailDaemons = [d] := rfl

/-- The daemon lets the token pass, and the notification names another mailbox
than its own. -/
def GmailDaemon.HasOtherAddress (c : Codec) (d : GmailDaemon) (token : Option String)
    (body : List (String × Json)) : Prop :=
  d.admits token = .ok true ∧
    ∃ messageData payload address, decodeEnvelope c body = .ok (messageData, payload) ∧
      Json.field payload "emailAddress" .null = .str address ∧ address ≠ "" ∧
      c.lower address ≠ c.lower d.mailbox.mailboxAddress

/-- The daemon is registered, and every other Gmail daemon lets the token pass and
has another mailbox than the one the request names. -/
structure GmailApart (c : Codec) (r : MailboxDaemonRegistry) (d : GmailDaemon) (req : GmailRequest) :
    Prop where
  registered : d ∈ r.gmailDaemons
  others : ∀ d' ∈ r.gmailDaemons, d' ≠ d → ∀ body, req.envelope = .ok body →
    d'.HasOtherAddress c req.verificationToken body

variable {g : GmailDaemon} {token : Option String} {body : List (String × Json)}

theorem offerEnvelope_of_other (h : g.HasOtherAddress c token body)
    (calls : Uuid → Uuid → GmailCall) (s : GmailState) :
    offerEnvelope x c token body calls s g = (s, .ok 0) := by
  obtain ⟨hadmits, messageData, payload, address, hdecode, hfield, hne, hother⟩ := h
  have helsewhere : g.addressedElsewhere c payload = .ok true := by
    rw [GmailDaemon.addressedElsewhere, hfield]
    simp [hne, hother]
  have hprocess : ∀ last call, g.processPubsubEnvelope x c s.gateway last body call =
      ((s.gateway, last), .ok []) := by
    intro last call
    rw [GmailDaemon.processPubsubEnvelope, hdecode]
    dsimp only
    rw [helsewhere]
  rw [offerEnvelope, hadmits]
  dsimp only [pushToDaemon]
  rw [hprocess, Function.update_eq_self]
  rfl

/-- **The daemon as if alone**, for Gmail. -/
theorem gmailPubsubWebhookEndpoint_alone {req : GmailRequest} (h : GmailApart c r g req)
    (s : GmailState) :
    gmailPubsubWebhookEndpoint x c r s req =
      gmailPubsubWebhookEndpoint x c (onlyGmail g) s req := by
  unfold gmailPubsubWebhookEndpoint
  cases hbody : req.envelope with
  | error response => rfl
  | ok body =>
    have hloop : Loop.total (offerEnvelope x c req.verificationToken body req.calls) s
        r.gmailDaemons =
        Loop.total (offerEnvelope x c req.verificationToken body req.calls) s [g] := by
      refine Loop.total_alone h.registered r.nodup_gmailDaemons ?_ s
      intro d' hd' hne s
      exact offerEnvelope_of_other (h.others d' hd' hne body hbody) req.calls s
    dsimp only
    rw [gmailDaemons_onlyGmail]
    cases hds : r.gmailDaemons with
    | nil =>
      have hnone := h.registered
      rw [hds] at hnone
      exact absurd hnone List.not_mem_nil
    | cons d rest =>
      rw [hds] at hloop
      dsimp only
      rw [hloop]

theorem owned_ingestMessage (y : Gateway) (p : String × Attempt) :
    Owned g.mailbox y (g.ingestMessage x y p).1 :=
  (ingestOnce_end x g.mailbox y p.2.now p.1
    fun y => fetchAndIngest_end x g.mailbox _ _ y p.1 p.2.fetched p.2.pipeline).owned

theorem owned_processPubsubEnvelope (y : Gateway) (last : Option ℤ) (call : GmailCall) :
    Owned g.mailbox y (g.processPubsubEnvelope x c y last body call).1.1 := by
  unfold GmailDaemon.processPubsubEnvelope
  rcases GmailDaemon.decodeEnvelope c body with exc | ⟨messageData, payload⟩
  · exact .refl _ y
  dsimp only
  rcases g.addressedElsewhere c payload with exc | elsewhere
  · exact .refl _ y
  cases elsewhere with
  | true => exact .refl _ y
  | false =>
    dsimp only
    rcases GmailDaemon.nextHistoryId c payload last with exc | historyId
    · exact .refl _ y
    dsimp only
    rcases g.resolveMessageIds c call messageData payload historyId with exc | ids
    · exact .refl _ y
    exact Loop.forEach_inv (I := Owned g.mailbox y)
      (fun y' p _ hy' => hy'.trans (owned_ingestMessage y' p)) (.refl _ y)

theorem owned_offerEnvelope (s : GmailState) (calls : Uuid → Uuid → GmailCall) :
    Owned g.mailbox s.gateway (offerEnvelope x c token body calls s g).1.gateway := by
  unfold offerEnvelope
  rcases g.admits token with text | admitted
  · exact .refl _ _
  cases admitted with
  | false => exact .refl _ _
  | true =>
    have howned : Owned g.mailbox s.gateway (g.processPubsubEnvelope x c s.gateway
        (s.lastHistoryId (g.mailbox.tenantId, g.mailbox.accountId)) body
        (calls g.mailbox.tenantId g.mailbox.accountId)).1.1 :=
      owned_processPubsubEnvelope s.gateway _ _
    dsimp only [pushToDaemon]
    generalize g.processPubsubEnvelope x c s.gateway
      (s.lastHistoryId (g.mailbox.tenantId, g.mailbox.accountId)) body
      (calls g.mailbox.tenantId g.mailbox.accountId) = processed at howned
    rcases processed with ⟨⟨y', last⟩, exc | ingested⟩
    · exact howned.trans (owned_quarantine _ rfl rfl)
    · exact howned

theorem owned_gmailPubsubWebhookEndpoint (s : GmailState) (req : GmailRequest) :
    Owned g.mailbox s.gateway
      (gmailPubsubWebhookEndpoint x c (onlyGmail g) s req).1.gateway := by
  unfold gmailPubsubWebhookEndpoint
  rcases req.envelope with response | body
  · exact .refl _ _
  refine Loop.total_inv (I := fun s' : GmailState => Owned g.mailbox s.gateway s'.gateway) ?_ (.refl _ _)
  intro s' d' hd' hs'
  rw [List.mem_singleton.1 hd']
  exact hs'.trans (owned_offerEnvelope s' req.calls)

/-! ## Two registries -/

/-- **Tenants are kept apart.**  A request is handled in the same way under any two
registries in which the other daemons can tell that it is not for them: the
answer and the state after it agree, and only messages of the daemon that is left
are admitted or quarantined. -/
theorem tenants_apart (x : Externals) (c : Codec) (r r' : MailboxDaemonRegistry) :
    (∀ d req, GraphApart r d req → GraphApart r' d req → ∀ y,
      msgraphWebhookEndpoint x c r y req = msgraphWebhookEndpoint x c r' y req ∧
        Owned d.mailbox y (msgraphWebhookEndpoint x c r y req).1) ∧
    ∀ d req, GmailApart c r d req → GmailApart c r' d req → ∀ s,
      gmailPubsubWebhookEndpoint x c r s req = gmailPubsubWebhookEndpoint x c r' s req ∧
        Owned d.mailbox s.gateway (gmailPubsubWebhookEndpoint x c r s req).1.gateway := by
  constructor
  · intro d req h h' y
    rw [msgraphWebhookEndpoint_alone h, msgraphWebhookEndpoint_alone h']
    exact ⟨rfl, owned_msgraphWebhookEndpoint y req⟩
  · intro d req h h' s
    rw [gmailPubsubWebhookEndpoint_alone h, gmailPubsubWebhookEndpoint_alone h']
    exact ⟨rfl, owned_gmailPubsubWebhookEndpoint s req⟩

/-- A Graph daemon of another tenant or of the first, by number. -/
def sampleGraph (tenant : ℕ) (clientState : Option String) : GraphDaemon where
  mailbox := { sampleMailbox with tenantId := .ofNat tenant, provider := .msGraph }
  clientState := clientState
  provider_eq := rfl

def sampleGmail (tenant : ℕ) (address : String) : GmailDaemon where
  mailbox :=
    { sampleMailbox with tenantId := .ofNat tenant, mailboxAddress := address, provider := .gmail }
  verificationToken := none
  provider_eq := rfl

/-- A notification of message `1` under the first tenant's client state. -/
def sampleNotification : GraphRequest where
  validationToken := none
  body := some (.obj [("value", .arr
    [.obj [("clientState", .str "secret-1"), ("resourceData", .obj [("id", .str "1")])]])])
  attempts _ _ _ := ⟨0, .ok sampleEml, none⟩

/-- A push for the first tenant's mailbox. -/
def samplePush : GmailRequest where
  verificationToken := none
  body := some (.obj [("message", .obj
    [("data", .str "eyJlbWFpbEFkZHJlc3MiOiAidUBjb3JwLmxvY2FsIiwgImhpc3RvcnlJZCI6IDd9"),
      ("messageId", .str "2")])])
  calls _ _ := ⟨none, fun _ => ⟨0, .ok sampleEml, none⟩⟩

/-- The first tenant's daemons, and those of another tenant between them. -/
def sampleRegistry (other : ℕ) : MailboxDaemonRegistry :=
  .register (.register (.register (.register .empty
    (.graph (sampleGraph 1 (some "secret-1")))) (.graph (sampleGraph other (some "secret-2"))))
    (.gmail (sampleGmail other "v@other.org"))) (.gmail (sampleGmail 1 "u@corp.local"))

theorem graphApart_sample {other : ℕ}
    (hds : (sampleRegistry other).graphDaemons =
      [sampleGraph 1 (some "secret-1"), sampleGraph other (some "secret-2")]) :
    GraphApart (sampleRegistry other) (sampleGraph 1 (some "secret-1")) sampleNotification := by
  refine ⟨by rw [hds]; exact List.mem_cons_self .., ?_⟩
  rintro d' hd' hne items ⟨rfl⟩ item hitem
  rw [hds] at hd'
  have hd : d' = sampleGraph other (some "secret-2") :=
    List.mem_singleton.1 ((List.mem_cons.1 hd').resolve_left hne)
  cases List.mem_singleton.1 hitem
  rw [hd]
  exact ⟨"secret-2", rfl, by decide, by decide +kernel⟩

theorem gmailApart_sample {other : ℕ}
    (hds : (sampleRegistry other).gmailDaemons =
      [sampleGmail other "v@other.org", sampleGmail 1 "u@corp.local"]) :
    GmailApart sampleCodec (sampleRegistry other) (sampleGmail 1 "u@corp.local") samplePush := by
  refine ⟨by rw [hds]; exact List.mem_cons_of_mem _ (List.mem_cons_self ..), ?_⟩
  rintro d' hd' hne body ⟨rfl⟩
  rw [hds] at hd'
  have hd : d' = sampleGmail other "v@other.org" :=
    (List.mem_cons.1 hd').resolve_right fun h => hne (List.mem_singleton.1 h)
  rw [hd]
  refine ⟨rfl, _, _, "u@corp.local", rfl, rfl, by decide, ?_⟩
  show sampleCodec.lower "u@corp.local" ≠ sampleCodec.lower "v@other.org"
  decide

/-- Exchanging the other tenant changes nothing for the first. -/
theorem tenants_apart_sample :
    (∀ y, msgraphWebhookEndpoint sampleExternals sampleCodec (sampleRegistry 3) y
        sampleNotification =
      msgraphWebhookEndpoint sampleExternals sampleCodec (sampleRegistry 5) y
        sampleNotification) ∧
    ∀ s, gmailPubsubWebhookEndpoint sampleExternals sampleCodec (sampleRegistry 3) s samplePush =
      gmailPubsubWebhookEndpoint sampleExternals sampleCodec (sampleRegistry 5) s samplePush := by
  have happly := tenants_apart sampleExternals sampleCodec (sampleRegistry 3) (sampleRegistry 5)
  constructor
  · intro y
    exact (happly.1 _ _ (graphApart_sample (by decide +kernel)) (graphApart_sample (by decide +kernel))
      y).1
  · intro s
    exact (happly.2 _ _ (gmailApart_sample (by decide +kernel)) (gmailApart_sample (by decide +kernel))
      s).1

/-- A Graph daemon without a client state takes the notification for another
tenant's subscription too. -/
theorem stateless_daemon_listens :
    (msgraphWebhookEndpoint sampleExternals sampleCodec
        (.register (.register .empty (.graph (sampleGraph 1 (some "secret-1"))))
          (.graph (sampleGraph 3 none)))
        (Gateway.init 86400 1000) sampleNotification).2 = .accepted 2 ∧
    ⟨0, .ofNat 3, .ofNat 2, "1", true⟩ ∈
      (msgraphWebhookEndpoint sampleExternals sampleCodec
        (.register (.register .empty (.graph (sampleGraph 1 (some "secret-1"))))
          (.graph (sampleGraph 3 none)))
        (Gateway.init 86400 1000) sampleNotification).1.log := by
  decide +kernel

end ScamOn.IngestionGateway
