import Mathlib.Tactic.Linarith
import ScamOn.IngestionGateway.Dedup
import ScamOn.IngestionGateway.DeadLetter

/-!
# The ingestion gateway

What the three mailbox daemons share: they ask the deduplication engine about a
message, check its size, parse its envelope and hand it to the delivery handler,
which sends it down the pipeline and quarantines it when the pipeline raises.

* `ingestOnce` is this path for one message; `WorkEnd` and `OnceEnd` list how it
  can end.
* `Gateway.log` and `Gateway.quarantined` are no part of the source: they record
  every answer NEW with its outcome, and every item ever enqueued.
* `Tracked` says that queue and marks agree with these records; it is kept by
  everything that goes through `quarantine` and `ingestOnce`.
-/

namespace ScamOn.IngestionGateway

open DeadLetterQueue (Failure)

/-! ## Data -/

/-- An exception, by the classes that the endpoints tell apart. -/
inductive IngestError
  | authenticationFailed (message : String)
  | payloadSizeExceeded (message : String)
  | messageRetrieval (message : String)
  | other (message : String)
  deriving DecidableEq

/-- `str(exc)`. -/
def IngestError.message : IngestError → String
  | .authenticationFailed m | .payloadSizeExceeded m | .messageRetrieval m | .other m => m

/-- The headers a daemon reads from a message. -/
structure Envelope where
  internetMessageId : Option String
  sender : String
  recipients : List String
  subject : String
  deriving DecidableEq

/-- The library functions the gateway relies on: the hash, and the parser of raw
messages (with the mailbox address for a missing `To`), which may raise. -/
structure Externals where
  sha256 : String → String
  parseEnvelope : String → ByteArray → Except String Envelope

/-- The fields all daemons share. -/
structure Mailbox where
  tenantId : Uuid
  accountId : Uuid
  mailboxAddress : String
  provider : MailboxProvider
  maxMimeSizeBytes : ℤ
  deriving DecidableEq

/-- `IngestedEmailDTO`. -/
structure IngestedEmail where
  tenantId : Uuid
  accountId : Uuid
  mailboxAddress : String
  provider : MailboxProvider
  providerMessageId : String
  envelope : Envelope
  rawEmlBytes : ByteArray
  deriving DecidableEq

/-- An answer NEW of the deduplication engine, and whether the delivery handler
then completed. -/
structure Admission where
  now : ℚ
  tenantId : Uuid
  accountId : Uuid
  providerMessageId : String
  delivered : Bool
  deriving DecidableEq

/-- The state of the gateway, with its two records. -/
structure Gateway where
  dedup : DedupEngine
  dlq : DeadLetterQueue
  log : List Admission
  quarantined : List DeadLetterItem

def Gateway.init (defaultTtlSec : ℤ) (maxItems : ℕ) : Gateway :=
  ⟨DedupEngine.init defaultTtlSec, DeadLetterQueue.init maxItems, [], []⟩

/-! ## Handling one message -/

/-- `dlq.enqueue`. -/
def Gateway.quarantine (y : Gateway) (f : Failure) : Gateway :=
  { y with dlq := y.dlq.enqueue f, quarantined := y.quarantined ++ [f.item y.dlq.nextId] }

/-- The failure that the delivery handler enqueues. -/
def pipelineFailure (dto : IngestedEmail) (exc : IngestError) : Failure where
  tenantId := dto.tenantId
  accountId := dto.accountId
  provider := dto.provider
  reason := "PIPELINE_ORCHESTRATOR_FAILURE"
  errorMessage := exc.message
  providerMessageId := some dto.providerMessageId
  rawPayload := none

/-- `handle_ingested_email`: `pipeline` is what the orchestrator raises, if it
does. -/
def handleIngestedEmail (y : Gateway) (dto : IngestedEmail) (pipeline : Option IngestError) :
    Gateway × Except IngestError IngestedEmail :=
  match pipeline with
  | none => (y, .ok dto)
  | some exc => (y.quarantine (pipelineFailure dto exc), .error exc)

/-- The size check, the parser and the delivery, for a message at hand. -/
def ingestRaw (x : Externals) (b : Mailbox) (sizeLabel : String) (y : Gateway) (msgId : String)
    (raw : ByteArray) (pipeline : Option IngestError) : Gateway × Except IngestError IngestedEmail :=
  if b.maxMimeSizeBytes < raw.size then
    (y, .error (.payloadSizeExceeded (sizeLabel ++ " size " ++ toString raw.size ++
      " bytes exceeds limit " ++ toString b.maxMimeSizeBytes)))
  else
    match x.parseEnvelope b.mailboxAddress raw with
    | .error text => (y, .error (.other text))
    | .ok envelope =>
      handleIngestedEmail y
        { tenantId := b.tenantId, accountId := b.accountId, mailboxAddress := b.mailboxAddress,
          provider := b.provider, providerMessageId := msgId, envelope := envelope,
          rawEmlBytes := raw } pipeline

/-- Steps 4 to 8 of the webhook daemons: fetch the message, then the rest.
`fetched` is what the provider's API returns or raises. -/
def fetchAndIngest (x : Externals) (b : Mailbox) (sizeLabel fetchLabel : String) (y : Gateway)
    (msgId : String) (fetched : Except String ByteArray) (pipeline : Option IngestError) :
    Gateway × Except IngestError IngestedEmail :=
  match fetched with
  | .error text => (y, .error (.messageRetrieval (fetchLabel ++ text)))
  | .ok raw => ingestRaw x b sizeLabel y msgId raw pipeline

/-- The deduplication check, and `work` behind it. -/
def ingestOnce (x : Externals) (b : Mailbox) (y : Gateway) (now : ℚ) (msgId : String)
    (work : Gateway → Gateway × Except IngestError IngestedEmail) :
    Gateway × Except IngestError (Option IngestedEmail) :=
  let checked := y.dedup.checkAndMark x.sha256 now b.tenantId b.accountId msgId
  let y₁ := { y with dedup := checked.1 }
  if checked.2 then
    let worked := work y₁
    ({ worked.1 with
        log := worked.1.log ++ [⟨now, b.tenantId, b.accountId, msgId, worked.2.isOk⟩] },
      worked.2.map some)
  else (y₁, .ok none)

/-! ## How it can end -/

/-- A failure that names a message of a mailbox. -/
def Names (b : Mailbox) (msgId : String) (f : Failure) : Prop :=
  f.tenantId = b.tenantId ∧ f.accountId = b.accountId ∧ f.providerMessageId = some msgId

/-- The ends of the work behind the check: delivered; stopped without a trace by
an exception that is no authentication failure; or quarantined by the handler. -/
inductive WorkEnd (b : Mailbox) (msgId : String) (y : Gateway) :
    Gateway × Except IngestError IngestedEmail → Prop
  | delivered (dto : IngestedEmail) : WorkEnd b msgId y (y, .ok dto)
  | stopped (exc : IngestError) (h : ∀ m, exc ≠ .authenticationFailed m) :
      WorkEnd b msgId y (y, .error exc)
  | quarantined (f : Failure) (exc : IngestError) (h : Names b msgId f) :
      WorkEnd b msgId y (y.quarantine f, .error exc)

theorem ingestRaw_end (x : Externals) (b : Mailbox) (sizeLabel : String) (y : Gateway)
    (msgId : String) (raw : ByteArray) (pipeline : Option IngestError) :
    WorkEnd b msgId y (ingestRaw x b sizeLabel y msgId raw pipeline) := by
  unfold ingestRaw
  split_ifs
  · exact .stopped _ fun m h => by cases h
  · cases x.parseEnvelope b.mailboxAddress raw with
    | error text => exact .stopped _ fun m h => by cases h
    | ok envelope =>
      cases pipeline with
      | none => exact .delivered _
      | some exc => exact .quarantined _ exc ⟨rfl, rfl, rfl⟩

theorem fetchAndIngest_end (x : Externals) (b : Mailbox) (sizeLabel fetchLabel : String)
    (y : Gateway) (msgId : String) (fetched : Except String ByteArray)
    (pipeline : Option IngestError) :
    WorkEnd b msgId y (fetchAndIngest x b sizeLabel fetchLabel y msgId fetched pipeline) := by
  cases fetched with
  | error text => exact .stopped _ fun m h => by cases h
  | ok raw => exact ingestRaw_end x b sizeLabel y msgId raw pipeline

/-- The engine after a duplicate. -/
def DedupEngine.counted (e : DedupEngine) : DedupEngine :=
  { e with totalChecked := e.totalChecked + 1, totalDuplicates := e.totalDuplicates + 1 }

/-- The engine after a new message. -/
def DedupEngine.marking (e : DedupEngine) (x : Externals) (b : Mailbox) (now : ℚ)
    (msgId : String) : DedupEngine :=
  { e with
    totalChecked := e.totalChecked + 1
    store := e.store.set (computeDedupKey x.sha256 b.tenantId b.accountId msgId)
      (⟨computeDedupKey x.sha256 b.tenantId b.accountId msgId, b.tenantId, b.accountId,
        Text.strip msgId⟩, now + e.ttl) }

/-- The gateway after the work on a new message, with the answer logged. -/
def Gateway.logged (y : Gateway) (b : Mailbox) (now : ℚ) (msgId : String) (delivered : Bool) :
    Gateway :=
  { y with log := y.log ++ [⟨now, b.tenantId, b.accountId, msgId, delivered⟩] }

theorem ingestOnce_of_marked (x : Externals) (b : Mailbox) (y : Gateway) (now : ℚ)
    (msgId : String) (work : Gateway → Gateway × Except IngestError IngestedEmail)
    (h : y.dedup.Marked now (computeDedupKey x.sha256 b.tenantId b.accountId msgId)) :
    ingestOnce x b y now msgId work = ({ y with dedup := y.dedup.counted }, .ok none) := by
  unfold ingestOnce
  rw [DedupEngine.checkAndMark_of_marked h]
  rfl

theorem ingestOnce_of_not_marked (x : Externals) (b : Mailbox) (y : Gateway) (now : ℚ)
    (msgId : String) (work : Gateway → Gateway × Except IngestError IngestedEmail)
    (h : ¬y.dedup.Marked now (computeDedupKey x.sha256 b.tenantId b.accountId msgId)) :
    ingestOnce x b y now msgId work =
      ((work { y with dedup := y.dedup.marking x b now msgId }).1.logged b now msgId
          (work { y with dedup := y.dedup.marking x b now msgId }).2.isOk,
        (work { y with dedup := y.dedup.marking x b now msgId }).2.map some) := by
  unfold ingestOnce
  rw [DedupEngine.checkAndMark_of_not_marked h]
  rfl

/-- The ends of `ingestOnce`: a duplicate, or new work that was logged. -/
inductive OnceEnd (x : Externals) (b : Mailbox) (y : Gateway) (now : ℚ) (msgId : String) :
    Gateway × Except IngestError (Option IngestedEmail) → Prop
  | duplicate (h : y.dedup.Marked now (computeDedupKey x.sha256 b.tenantId b.accountId msgId)) :
      OnceEnd x b y now msgId ({ y with dedup := y.dedup.counted }, .ok none)
  | worked (h : ¬y.dedup.Marked now (computeDedupKey x.sha256 b.tenantId b.accountId msgId))
      (r : Gateway × Except IngestError IngestedEmail)
      (hr : WorkEnd b msgId { y with dedup := y.dedup.marking x b now msgId } r) :
      OnceEnd x b y now msgId (r.1.logged b now msgId r.2.isOk, r.2.map some)

theorem ingestOnce_end (x : Externals) (b : Mailbox) (y : Gateway) (now : ℚ) (msgId : String)
    {work : Gateway → Gateway × Except IngestError IngestedEmail}
    (hwork : ∀ y, WorkEnd b msgId y (work y)) :
    OnceEnd x b y now msgId (ingestOnce x b y now msgId work) := by
  by_cases h : y.dedup.Marked now (computeDedupKey x.sha256 b.tenantId b.accountId msgId)
  · rw [ingestOnce_of_marked x b y now msgId work h]
    exact .duplicate h
  · rw [ingestOnce_of_not_marked x b y now msgId work h]
    exact .worked h _ (hwork _)

/-! ## Queue and marks agree with the records -/

/-- The deduplication key of an admission. -/
def Admission.key (x : Externals) (a : Admission) : String :=
  computeDedupKey x.sha256 a.tenantId a.accountId a.providerMessageId

/-- The queue holds the last items ever enqueued.  Every mark comes from an
admission; unless marks run out before they begin, the mark of an admission lasts
its time, and no admission of the same message falls into the time of an earlier
one. -/
structure Gateway.Tracked (x : Externals) (y : Gateway) : Prop where
  queue : 0 < y.dlq.maxItems →
    y.dlq.Valid ∧ y.dlq.items.values = keepLast y.dlq.maxItems y.quarantined
  marked : ∀ key p, y.dedup.store.get? key = some p → ∃ a ∈ y.log, a.key x = key
  lasting : 0 ≤ y.dedup.ttl → ∀ a ∈ y.log,
    ∃ p, y.dedup.store.get? (a.key x) = some p ∧ a.now + y.dedup.ttl ≤ p.2
  spaced : 0 ≤ y.dedup.ttl →
    y.log.Pairwise fun a b : Admission => a.key x = b.key x → a.now + y.dedup.ttl ≤ b.now

variable {x : Externals} {b : Mailbox} {y : Gateway} {now : ℚ} {msgId : String}

theorem tracked_init (x : Externals) (defaultTtlSec : ℤ) (maxItems : ℕ) :
    (Gateway.init defaultTtlSec maxItems).Tracked x where
  queue _ := ⟨DeadLetterQueue.valid_init maxItems, List.drop_nil.symm⟩
  marked _ _ h := by cases h
  lasting _ _ h := by cases h
  spaced _ := List.Pairwise.nil

theorem tracked_quarantine (h : y.Tracked x) (f : Failure) : (y.quarantine f).Tracked x where
  queue hmax := by
    obtain ⟨hvalid, hvalues⟩ := h.queue hmax
    exact ⟨DeadLetterQueue.valid_enqueue hvalid hmax f,
      DeadLetterQueue.values_enqueue hvalid hmax hvalues f⟩
  marked := h.marked
  lasting := h.lasting
  spaced := h.spaced

/-- When a message is found new, the marks of its earlier admissions are over. -/
theorem Gateway.Tracked.expired (h : y.Tracked x)
    (hnew : ¬y.dedup.Marked now (computeDedupKey x.sha256 b.tenantId b.accountId msgId))
    (httl : 0 ≤ y.dedup.ttl) {a : Admission} (ha : a ∈ y.log)
    (hkey : a.key x = computeDedupKey x.sha256 b.tenantId b.accountId msgId) :
    a.now + y.dedup.ttl ≤ now := by
  obtain ⟨p, hp, hle⟩ := h.lasting httl a ha
  rw [hkey] at hp
  exact hle.trans (not_lt.1 fun hlt => hnew ⟨p, hp, hlt⟩)

/-- Marking and logging a new message keeps the records in step. -/
theorem tracked_logged (h : y.Tracked x)
    (hnew : ¬y.dedup.Marked now (computeDedupKey x.sha256 b.tenantId b.accountId msgId))
    (delivered : Bool) :
    ({ y with
        dedup := y.dedup.marking x b now msgId
        log := y.log ++ [⟨now, b.tenantId, b.accountId, msgId, delivered⟩] } : Gateway).Tracked x := by
  refine ⟨h.queue, ?_, ?_, ?_⟩
  · intro key p hp
    by_cases hkey : key = computeDedupKey x.sha256 b.tenantId b.accountId msgId
    · exact ⟨_, List.mem_append_right _ (List.mem_singleton.2 rfl), hkey.symm⟩
    · rw [DedupEngine.marking, Dict.get?_set_of_ne _ _ hkey] at hp
      obtain ⟨a, ha, hak⟩ := h.marked key p hp
      exact ⟨a, List.mem_append_left _ ha, hak⟩
  · intro httl a ha
    have httl' : 0 ≤ y.dedup.ttl := httl
    by_cases hkey : a.key x = computeDedupKey x.sha256 b.tenantId b.accountId msgId
    · have hnow : a.now ≤ now := by
        rcases List.mem_append.1 ha with hold | hself
        · have hle := h.expired hnew httl' hold hkey
          linarith
        · rw [List.mem_singleton.1 hself]
      refine ⟨_, by rw [hkey]; exact Dict.get?_set_self _ _ _, ?_⟩
      show a.now + _ ≤ now + _
      exact add_le_add_left hnow _
    · have hold : a ∈ y.log := by
        rcases List.mem_append.1 ha with hold | hself
        · exact hold
        · rw [List.mem_singleton.1 hself] at hkey
          exact absurd rfl hkey
      obtain ⟨p, hp, hle⟩ := h.lasting httl a hold
      exact ⟨p, (Dict.get?_set_of_ne _ _ hkey).trans hp, hle⟩
  · intro httl
    refine List.pairwise_append.2 ⟨h.spaced httl, List.pairwise_singleton _ _, ?_⟩
    intro a ha a' ha' hkey
    rw [List.mem_singleton.1 ha'] at hkey ⊢
    exact h.expired hnew httl ha hkey

theorem tracked_counted (h : y.Tracked x) : ({ y with dedup := y.dedup.counted } : Gateway).Tracked x :=
  ⟨h.queue, h.marked, h.lasting, h.spaced⟩

theorem OnceEnd.tracked (h : y.Tracked x) {r : Gateway × Except IngestError (Option IngestedEmail)}
    (hr : OnceEnd x b y now msgId r) : r.1.Tracked x := by
  cases hr with
  | duplicate hdup => exact tracked_counted h
  | worked hnew r hr =>
    cases hr with
    | delivered dto => exact tracked_logged h hnew true
    | stopped exc hexc => exact tracked_logged h hnew false
    | quarantined f exc hf => exact tracked_quarantine (tracked_logged h hnew false) f

/-! ## Every admission accounted for -/

/-- The item stands for this message. -/
def DeadLetterItem.Names (item : DeadLetterItem) (t a : Uuid) (msgId : String) : Prop :=
  item.tenantId = t ∧ item.accountId = a ∧ item.providerMessageId = some msgId

instance (item : DeadLetterItem) (t a : Uuid) (msgId : String) :
    Decidable (item.Names t a msgId) := inferInstanceAs (Decidable (_ ∧ _ ∧ _))

/-- The admission was delivered, or an item was enqueued for it. -/
def Gateway.Accounts (y : Gateway) (a : Admission) : Prop :=
  a.delivered = true ∨
    ∃ item ∈ y.quarantined, item.Names a.tenantId a.accountId a.providerMessageId

/-- The records grow, and the settings stay. -/
structure Gateway.Grows (y y' : Gateway) : Prop where
  log : y.log ⊆ y'.log
  quarantined : y.quarantined ⊆ y'.quarantined
  nextId : y.dlq.nextId ≤ y'.dlq.nextId
  maxItems : y'.dlq.maxItems = y.dlq.maxItems
  ttl : y'.dedup.defaultTtlSec = y.dedup.defaultTtlSec

theorem Gateway.Grows.refl (y : Gateway) : y.Grows y :=
  ⟨fun _ h => h, fun _ h => h, le_refl _, rfl, rfl⟩

theorem Gateway.Grows.trans {y y' y'' : Gateway} (h : y.Grows y') (h' : y'.Grows y'') :
    y.Grows y'' :=
  ⟨fun _ hm => h'.log (h.log hm), fun _ hm => h'.quarantined (h.quarantined hm),
    h.nextId.trans h'.nextId, h'.maxItems.trans h.maxItems, h'.ttl.trans h.ttl⟩

theorem Gateway.Accounts.mono {y' : Gateway} {a : Admission} (h : y.Accounts a) (hgrow : y.Grows y') :
    y'.Accounts a := by
  rcases h with hdelivered | ⟨item, hitem, hnames⟩
  · exact .inl hdelivered
  · exact .inr ⟨item, hgrow.quarantined hitem, hnames⟩

theorem grows_quarantine (y : Gateway) (f : Failure) : y.Grows (y.quarantine f) :=
  ⟨fun _ h => h, List.subset_append_left _ _, Nat.le_succ _, rfl, rfl⟩

theorem OnceEnd.grows {r : Gateway × Except IngestError (Option IngestedEmail)}
    (hr : OnceEnd x b y now msgId r) : y.Grows r.1 := by
  cases hr with
  | duplicate hdup => exact ⟨fun _ h => h, fun _ h => h, le_refl _, rfl, rfl⟩
  | worked hnew r hr =>
    have hlog : ∀ l : List Admission, y.log ⊆ y.log ++ l := fun l => List.subset_append_left _ l
    cases hr with
    | delivered dto => exact ⟨hlog _, fun _ h => h, le_refl _, rfl, rfl⟩
    | stopped exc hexc => exact ⟨hlog _, fun _ h => h, le_refl _, rfl, rfl⟩
    | quarantined f exc hf =>
      exact ⟨hlog _, List.subset_append_left _ _, Nat.le_succ _, rfl, rfl⟩

/-- Queue and marks agree with the records, and every admission is accounted for. -/
structure Sound (x : Externals) (y : Gateway) : Prop where
  tracked : y.Tracked x
  accounts : ∀ a ∈ y.log, y.Accounts a

theorem sound_init (x : Externals) (defaultTtlSec : ℤ) (maxItems : ℕ) :
    Sound x (Gateway.init defaultTtlSec maxItems) :=
  ⟨tracked_init x defaultTtlSec maxItems, fun _ h => absurd h List.not_mem_nil⟩

theorem sound_counted (h : Sound x y) : Sound x { y with dedup := y.dedup.counted } :=
  ⟨tracked_counted h.tracked, h.accounts⟩

theorem sound_quarantine (h : Sound x y) (f : Failure) : Sound x (y.quarantine f) :=
  ⟨tracked_quarantine h.tracked f, fun a ha => (h.accounts a ha).mono (grows_quarantine y f)⟩

/-- One more admission, accounted for. -/
theorem Sound.of_admission {y' : Gateway} {a : Admission} (h : Sound x y) (ht : y'.Tracked x)
    (hgrow : y.Grows y') (hlog : y'.log = y.log ++ [a]) (ha : y'.Accounts a) : Sound x y' := by
  refine ⟨ht, fun a' ha' => ?_⟩
  rw [hlog] at ha'
  rcases List.mem_append.1 ha' with hold | hself
  · exact (h.accounts a' hold).mono hgrow
  · rw [List.mem_singleton.1 hself]
    exact ha

/-- A message marked in the engine was admitted before, if the hash tells the
texts of the admissions and its own apart. -/
theorem Gateway.Tracked.admitted (h : y.Tracked x) {texts : Set String}
    (hsha : Set.InjOn x.sha256 texts)
    (hlog : ∀ a ∈ y.log, rawSeed a.tenantId a.accountId a.providerMessageId ∈ texts)
    (htext : rawSeed b.tenantId b.accountId msgId ∈ texts)
    (hmarked : y.dedup.Marked now (computeDedupKey x.sha256 b.tenantId b.accountId msgId)) :
    ∃ a ∈ y.log, a.tenantId = b.tenantId ∧ a.accountId = b.accountId ∧
      Text.strip a.providerMessageId = Text.strip msgId := by
  obtain ⟨p, hp, -⟩ := hmarked
  obtain ⟨a, ha, hkey⟩ := h.marked _ p hp
  exact ⟨a, ha, rawSeed_inj (hsha (hlog a ha) htext hkey)⟩

end ScamOn.IngestionGateway
