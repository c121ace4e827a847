import Mathlib.Logic.Equiv.Basic
import ScamOn.IngestionGateway.Gateway
import ScamOn.Lib.Machine

/-!
# The IMAP daemon

The supervisory loop of `IMAPIngestionDaemon` fetches the unseen messages of a
mailbox and processes them in turn.  Fetching marks a message as seen, so it is
not returned again; an exception while one message is processed ends the
iteration, and the rest of the batch with it.

* `processBatch` is the body of an iteration, with the fate of every message.
* `Smooth` is the condition under which nothing is lost: messages that are new
  fit and parse, the pipeline raises on the last message of a batch at most, and
  what a duplicate repeats is not evicted from the queue.
* `imap_settled`: in runs of smooth iterations every message fetched is delivered,
  quarantined, or a duplicate of one that was; `oversize_lost` shows what happens
  otherwise.
-/

namespace ScamOn.IngestionGateway

/-- A message that `_fetch_unseen_sync` returns, with the moment it is processed
and what the pipeline raises on it. -/
structure FetchedMessage where
  msgId : String
  rawBytes : ByteArray
  now : ℚ
  pipeline : Option IngestError
  deriving DecidableEq

/-- `_process_single_message`. -/
def processSingleMessage (x : Externals) (b : Mailbox) (y : Gateway) (m : FetchedMessage) :
    Gateway × Except IngestError (Option IngestedEmail) :=
  ingestOnce x b y m.now m.msgId fun y =>
    ingestRaw x b "IMAP MIME" y m.msgId m.rawBytes m.pipeline

/-- How an iteration ends for a message. -/
inductive Fate
  | delivered | suppressed | raised | skipped
  deriving DecidableEq, Repr

/-- The loop over a batch: an exception leaves the rest unprocessed. -/
def processBatch (x : Externals) (b : Mailbox) :
    Gateway → List FetchedMessage → Gateway × List (FetchedMessage × Fate)
  | y, [] => (y, [])
  | y, m :: rest =>
    match processSingleMessage x b y m with
    | (y', .ok dto) =>
      let done := processBatch x b y' rest
      (done.1, (m, if dto.isSome then .delivered else .suppressed) :: done.2)
    | (y', .error _) => (y', (m, .raised) :: rest.map fun m => (m, .skipped))

/-- One iteration of `_daemon_supervisory_loop`: connecting or fetching raises,
or a batch is processed. -/
def loopIteration (x : Externals) (b : Mailbox) (y : Gateway)
    (fetched : Except String (List FetchedMessage)) :
    Gateway × List (FetchedMessage × Fate) :=
  match fetched with
  | .error _ => (y, [])
  | .ok batch => processBatch x b y batch

/-! ## What becomes of a message -/

/-- The item stands for the message, up to blanks around its identifier. -/
def StandsFor (b : Mailbox) (m : FetchedMessage) (item : DeadLetterItem) : Prop :=
  ∃ id ∈ item.providerMessageId, item.tenantId = b.tenantId ∧ item.accountId = b.accountId ∧
    Text.strip id = Text.strip m.msgId

instance (b : Mailbox) (m : FetchedMessage) (item : DeadLetterItem) : Decidable (StandsFor b m item) :=
  Option.decidableExistsMem item.providerMessageId

/-- One of the items stands for the message. -/
def Queued (b : Mailbox) (m : FetchedMessage) (items : List DeadLetterItem) : Prop :=
  ∃ item ∈ items, StandsFor b m item

instance (b : Mailbox) (m : FetchedMessage) (items : List DeadLetterItem) :
    Decidable (Queued b m items) :=
  List.decidableBEx (StandsFor b m) items

/-- A message with this identifier was delivered. -/
def DeliveredAs (b : Mailbox) (m : FetchedMessage) (y : Gateway) : Prop :=
  ∃ a ∈ y.log, a.delivered = true ∧ a.tenantId = b.tenantId ∧ a.accountId = b.accountId ∧
    Text.strip a.providerMessageId = Text.strip m.msgId

instance (b : Mailbox) (m : FetchedMessage) (y : Gateway) : Decidable (DeliveredAs b m y) :=
  List.decidableBEx (fun a : Admission => a.delivered = true ∧ a.tenantId = b.tenantId ∧
    a.accountId = b.accountId ∧ Text.strip a.providerMessageId = Text.strip m.msgId) y.log

/-- The message is accounted for at the end `y'` of the iteration begun in `y`:
delivered; put into the queue during the iteration; or, if the iteration did not
get to handle it, a duplicate of one that was delivered or is in the queue. -/
def Settled (b : Mailbox) (y y' : Gateway) (m : FetchedMessage) : Fate → Prop
  | .delivered => DeliveredAs b m y'
  | .raised =>
    ∃ item ∈ y'.dlq.items.values, y.dlq.nextId ≤ item.deadLetterId ∧ StandsFor b m item
  | .suppressed | .skipped => DeliveredAs b m y' ∨ Queued b m y'.dlq.items.values

/-- Every message of the batch comes to an end, and is accounted for. -/
def AllSettled (x : Externals) (b : Mailbox) (y : Gateway)
    (fetched : Except String (List FetchedMessage)) : Prop :=
  (∀ batch, fetched = .ok batch → (loopIteration x b y fetched).2.map Prod.fst = batch) ∧
    ∀ p ∈ (loopIteration x b y fetched).2, Settled b y (loopIteration x b y fetched).1 p.1 p.2

/-- **The message is not forgotten**: if it was ever put into the queue, it was delivered as well, or
one of these items stands for it. -/
def Remembered (b : Mailbox) (y : Gateway) (items : List DeadLetterItem) (m : FetchedMessage) : Prop :=
  Queued b m y.quarantined → DeliveredAs b m y ∨ Queued b m items

instance (b : Mailbox) (y : Gateway) (items : List DeadLetterItem) (m : FetchedMessage) :
    Decidable (Remembered b y items m) :=
  inferInstanceAs (Decidable (_ → _ ∨ _))

/-- The messages of a batch that are new fit and parse, and the pipeline raises
at most on the last of them, if the queue holds anything at all.  What the duplicates
in the batch repeat is in the queue when they come, and is not evicted for the last message. -/
def SmoothBatch (x : Externals) (b : Mailbox) :
    List FetchedMessage → Gateway → List FetchedMessage → Prop
  | _, _, [] => True
  | duplicates, y, m :: rest =>
    if y.dedup.Marked m.now (computeDedupKey x.sha256 b.tenantId b.accountId m.msgId) then
      Remembered b y y.dlq.items.values m ∧
        SmoothBatch x b (m :: duplicates) (processSingleMessage x b y m).1 rest
    else
      ((m.rawBytes.size : ℤ) ≤ b.maxMimeSizeBytes ∧
        (x.parseEnvelope b.mailboxAddress m.rawBytes).isOk = true ∧
        (m.pipeline.isSome = true → rest = [] ∧ 1 ≤ y.dlq.maxItems ∧ ∀ d ∈ duplicates,
          Remembered b y (keepLast (y.dlq.maxItems - 1) y.dlq.items.values) d)) ∧
        SmoothBatch x b duplicates (processSingleMessage x b y m).1 rest

instance SmoothBatch.decidable (x : Externals) (b : Mailbox) :
    ∀ (duplicates : List FetchedMessage) (y : Gateway) (batch : List FetchedMessage),
      Decidable (SmoothBatch x b duplicates y batch)
  | _, _, [] => isTrue trivial
  | duplicates, y, m :: rest =>
    have : Decidable (SmoothBatch x b (m :: duplicates) (processSingleMessage x b y m).1 rest) :=
      SmoothBatch.decidable x b _ _ rest
    have : Decidable (SmoothBatch x b duplicates (processSingleMessage x b y m).1 rest) :=
      SmoothBatch.decidable x b _ _ rest
    inferInstanceAs (Decidable
      (if y.dedup.Marked m.now (computeDedupKey x.sha256 b.tenantId b.accountId m.msgId) then
        Remembered b y y.dlq.items.values m ∧
          SmoothBatch x b (m :: duplicates) (processSingleMessage x b y m).1 rest
      else (_ ∧ _ ∧ (_ → _ ∧ _ ∧ _)) ∧
        SmoothBatch x b duplicates (processSingleMessage x b y m).1 rest))

/-- The iteration fetches nothing, or a smooth batch. -/
def Smooth (x : Externals) (b : Mailbox) (y : Gateway)
    (fetched : Except String (List FetchedMessage)) : Prop :=
  ∀ batch, fetched = .ok batch → SmoothBatch x b [] y batch

/-- The texts that are hashed for the messages fetched. -/
def fetchedSeeds (b : Mailbox) (fetches : List (Except String (List FetchedMessage))) : Set String :=
  {text | ∃ batch, .ok batch ∈ fetches ∧
    ∃ m ∈ batch, rawSeed b.tenantId b.accountId m.msgId = text}

/-! ## Iterations that lose nothing -/

/-- The invariant: every admission is accounted for and comes from one of the
texts. -/
structure Recorded (x : Externals) (texts : Set String) (y : Gateway) : Prop extends Sound x y where
  hashed : ∀ a ∈ y.log, rawSeed a.tenantId a.accountId a.providerMessageId ∈ texts

variable {x : Externals} {b : Mailbox} {y y' : Gateway} {m : FetchedMessage}
  {texts : Set String}

theorem recorded_init (x : Externals) (texts : Set String) (defaultTtlSec : ℤ) (maxItems : ℕ) :
    Recorded x texts (Gateway.init defaultTtlSec maxItems) :=
  ⟨sound_init x defaultTtlSec maxItems, fun _ h => absurd h List.not_mem_nil⟩

/-- What holds from the middle of an iteration on holds from its beginning. -/
theorem Settled.of_grows {fate : Fate} {y'' : Gateway} (h : Settled b y' y'' m fate)
    (hgrow : y.Grows y') : Settled b y y'' m fate := by
  cases fate with
  | delivered | suppressed | skipped => exact h
  | raised =>
    obtain ⟨item, hitem, hnew, hstands⟩ := h
    exact ⟨item, hitem, hgrow.nextId.trans hnew, hstands⟩

theorem DeliveredAs.mono (h : DeliveredAs b m y) (hgrow : y.Grows y') : DeliveredAs b m y' := by
  obtain ⟨a, ha, hrest⟩ := h
  exact ⟨a, hgrow.log ha, hrest⟩

/-- A message that fits and parses is delivered, or quarantined if the pipeline
raises. -/
theorem ingestRaw_of_fits (y : Gateway) (label : String) (msgId : String) {raw : ByteArray}
    (hsize : (raw.size : ℤ) ≤ b.maxMimeSizeBytes)
    (hparse : (x.parseEnvelope b.mailboxAddress raw).isOk = true) (pipeline : Option IngestError) :
    ∃ dto : IngestedEmail,
      (dto.tenantId = b.tenantId ∧ dto.accountId = b.accountId ∧ dto.providerMessageId = msgId) ∧
      ingestRaw x b label y msgId raw pipeline = handleIngestedEmail y dto pipeline := by
  cases henvelope : x.parseEnvelope b.mailboxAddress raw with
  | error text =>
    rw [henvelope] at hparse
    cases hparse
  | ok envelope =>
    refine ⟨⟨b.tenantId, b.accountId, b.mailboxAddress, b.provider, msgId, envelope, raw⟩,
      ⟨rfl, rfl, rfl⟩, ?_⟩
    rw [ingestRaw, if_neg (not_lt.2 hsize), henvelope]

/-- What a suppressed message repeats was delivered, or put into the queue. -/
theorem admitted_of_marked (hsha : Set.InjOn x.sha256 texts) (h : Recorded x texts y)
    (htext : rawSeed b.tenantId b.accountId m.msgId ∈ texts)
    (hmarked : y.dedup.Marked m.now (computeDedupKey x.sha256 b.tenantId b.accountId m.msgId)) :
    DeliveredAs b m y ∨ Queued b m y.quarantined := by
  obtain ⟨a, ha, ht, hacc, hid⟩ := h.tracked.admitted hsha h.hashed htext hmarked
  rcases h.accounts a ha with hdelivered | ⟨item, hitem, hit, hia, hiid⟩
  · exact .inl ⟨a, ha, hdelivered, ht, hacc, hid⟩
  · exact .inr ⟨item, hitem, _, hiid, hit.trans ht, hia.trans hacc, hid⟩

/-- The queue with one more item. -/
theorem values_quarantine (h : Recorded x texts y) (hmax : 1 ≤ y.dlq.maxItems)
    (f : DeadLetterQueue.Failure) :
    (y.quarantine f).dlq.items.values =
      keepLast (y.dlq.maxItems - 1) y.dlq.items.values ++ [f.item y.dlq.nextId] := by
  obtain ⟨hvalid, hvalues⟩ := h.tracked.queue hmax
  have henqueue := DeadLetterQueue.values_enqueue hvalid hmax hvalues f
  rw [← keepLast_push, ← hvalues, keepLast_concat hmax] at henqueue
  exact henqueue

/-- What is in the queue was put there. -/
theorem queued_quarantined (h : Recorded x texts y) (hmax : 1 ≤ y.dlq.maxItems)
    (hqueued : Queued b m y.dlq.items.values) : Queued b m y.quarantined := by
  obtain ⟨item, hitem, hstands⟩ := hqueued
  rw [(h.tracked.queue hmax).2] at hitem
  exact ⟨item, List.mem_of_mem_drop hitem, hstands⟩

/-- Work that was accounted for keeps the invariant. -/
theorem recorded_worked (h : Recorded x texts y) {now : ℚ} {msgId : String}
    (htext : rawSeed b.tenantId b.accountId msgId ∈ texts)
    {r : Gateway × Except IngestError (Option IngestedEmail)} (hr : OnceEnd x b y now msgId r)
    {delivered : Bool}
    (hlog : r.1.log = y.log ++ [⟨now, b.tenantId, b.accountId, msgId, delivered⟩])
    (hlast : r.1.Accounts ⟨now, b.tenantId, b.accountId, msgId, delivered⟩) :
    Recorded x texts r.1 := by
  refine ⟨h.toSound.of_admission (hr.tracked h.tracked) hr.grows hlog hlast, fun a ha => ?_⟩
  rw [hlog] at ha
  rcases List.mem_append.1 ha with hold | hself
  · exact h.hashed a hold
  · rw [List.mem_singleton.1 hself]
    exact htext

theorem processSingleMessage_end (x : Externals) (b : Mailbox) (y : Gateway) (m : FetchedMessage) :
    OnceEnd x b y m.now m.msgId (processSingleMessage x b y m) :=
  ingestOnce_end x b y m.now m.msgId fun y => ingestRaw_end x b _ y m.msgId m.rawBytes m.pipeline

/-- A new message that fits and parses goes to the delivery handler. -/
theorem processSingleMessage_of_fits
    (hnew : ¬y.dedup.Marked m.now (computeDedupKey x.sha256 b.tenantId b.accountId m.msgId))
    (hsize : (m.rawBytes.size : ℤ) ≤ b.maxMimeSizeBytes)
    (hparse : (x.parseEnvelope b.mailboxAddress m.rawBytes).isOk = true) :
    ∃ dto : IngestedEmail,
      (dto.tenantId = b.tenantId ∧ dto.accountId = b.accountId ∧ dto.providerMessageId = m.msgId) ∧
      processSingleMessage x b y m =
        ((handleIngestedEmail { y with dedup := y.dedup.marking x b m.now m.msgId } dto
            m.pipeline).1.logged b m.now m.msgId m.pipeline.isNone,
          (handleIngestedEmail { y with dedup := y.dedup.marking x b m.now m.msgId } dto
            m.pipeline).2.map some) := by
  obtain ⟨dto, hdto, hraw⟩ :=
    ingestRaw_of_fits (x := x) (b := b) { y with dedup := y.dedup.marking x b m.now m.msgId }
      "IMAP MIME" m.msgId hsize hparse m.pipeline
  refine ⟨dto, hdto, ?_⟩
  rw [processSingleMessage, ingestOnce_of_not_marked _ _ _ _ _ _ hnew, hraw]
  cases m.pipeline with
  | none => rfl
  | some exc => rfl

/-- What one message of a smooth batch leaves behind: a duplicate changes nothing; a new message is
delivered; or it is the last, and goes into the queue, where the duplicates before it stay. -/
inductive GoesWell (x : Externals) (b : Mailbox) (texts : Set String)
    (duplicates : List FetchedMessage) (y : Gateway) (m : FetchedMessage) :
    List FetchedMessage → Prop
  | suppressed (y' : Gateway) (rest : List FetchedMessage) (hl : Recorded x texts y')
      (hgrow : y.Grows y') (hqueue : y'.dlq = y.dlq)
      (hr : processSingleMessage x b y m = (y', .ok none))
      (hm : DeliveredAs b m y ∨ Queued b m y.dlq.items.values)
      (hs : SmoothBatch x b (m :: duplicates) y' rest) : GoesWell x b texts duplicates y m rest
  | delivered (y' : Gateway) (rest : List FetchedMessage) (dto : IngestedEmail)
      (hl : Recorded x texts y') (hgrow : y.Grows y') (hqueue : y'.dlq = y.dlq)
      (hr : processSingleMessage x b y m = (y', .ok (some dto))) (hm : DeliveredAs b m y')
      (hs : SmoothBatch x b duplicates y' rest) : GoesWell x b texts duplicates y m rest
  | quarantined (y' : Gateway) (exc : IngestError) (hl : Recorded x texts y') (hgrow : y.Grows y')
      (hr : processSingleMessage x b y m = (y', .error exc)) (hm : Settled b y y' m .raised)
      (hkept : ∀ d ∈ duplicates, DeliveredAs b d y ∨ Queued b d y.dlq.items.values →
        DeliveredAs b d y' ∨ Queued b d y'.dlq.items.values) :
      GoesWell x b texts duplicates y m []

theorem processSingleMessage_smooth (hsha : Set.InjOn x.sha256 texts) (h : Recorded x texts y)
    (htext : rawSeed b.tenantId b.accountId m.msgId ∈ texts)
    {duplicates rest : List FetchedMessage} (hs : SmoothBatch x b duplicates y (m :: rest)) :
    GoesWell x b texts duplicates y m rest := by
  have hend := processSingleMessage_end x b y m
  unfold SmoothBatch at hs
  by_cases hmarked : y.dedup.Marked m.now (computeDedupKey x.sha256 b.tenantId b.accountId m.msgId)
  · rw [if_pos hmarked] at hs
    have hr : processSingleMessage x b y m = ({ y with dedup := y.dedup.counted }, .ok none) :=
      ingestOnce_of_marked x b y m.now m.msgId _ hmarked
    rw [hr] at hs hend
    refine .suppressed _ rest ⟨sound_counted h.toSound, h.hashed⟩ hend.grows rfl hr ?_ hs.2
    rcases admitted_of_marked hsha h htext hmarked with hdelivered | hqueued
    · exact .inl hdelivered
    · exact hs.1 hqueued
  · rw [if_neg hmarked] at hs
    obtain ⟨⟨hsize, hparse, hpipeline⟩, hnext⟩ := hs
    obtain ⟨dto, ⟨ht, ha, hid⟩, hr⟩ := processSingleMessage_of_fits hmarked hsize hparse
    cases hp : m.pipeline with
    | none =>
      rw [hp] at hr
      rw [hr] at hnext hend
      refine .delivered _ rest dto (recorded_worked h htext hend rfl (.inl rfl)) hend.grows rfl hr ?_
        hnext
      exact ⟨_, List.mem_append_right _ (List.mem_singleton.2 rfl), rfl, rfl, rfl, rfl⟩
    | some exc =>
      rw [hp] at hr hpipeline
      obtain ⟨rfl, hmax, hkeep⟩ := hpipeline rfl
      rw [hr] at hend
      have hf : Names b m.msgId (pipelineFailure dto exc) := ⟨ht, ha, congrArg some hid⟩
      have hvalues := values_quarantine h hmax (pipelineFailure dto exc)
      have hlast : (pipelineFailure dto exc).item y.dlq.nextId ∈
          (y.quarantine (pipelineFailure dto exc)).quarantined :=
        List.mem_append_right _ (List.mem_singleton.2 rfl)
      refine .quarantined _ exc (recorded_worked h htext hend rfl (.inr ⟨_, hlast, hf⟩)) hend.grows hr
        ?_ fun d hd hbefore => ?_
      · refine ⟨(pipelineFailure dto exc).item y.dlq.nextId, ?_, le_refl _, m.msgId, hf.2.2, hf.1,
          hf.2.1, rfl⟩
        show _ ∈ (y.quarantine (pipelineFailure dto exc)).dlq.items.values
        rw [hvalues]
        exact List.mem_append_right _ (List.mem_singleton.2 rfl)
      · rcases hbefore with hdelivered | hqueued
        · exact .inl (hdelivered.mono hend.grows)
        · rcases hkeep d hd (queued_quarantined h hmax hqueued) with hdelivered | ⟨item, hitem, hstands⟩
          · exact .inl (hdelivered.mono hend.grows)
          · refine .inr ⟨item, ?_, hstands⟩
            show _ ∈ (y.quarantine (pipelineFailure dto exc)).dlq.items.values
            rw [hvalues]
            exact List.mem_append_left _ hitem

/-- **A smooth batch.**  Every message comes to an end and is settled, as are the duplicates before
it. -/
theorem processBatch_smooth (hsha : Set.InjOn x.sha256 texts)
    {duplicates batch : List FetchedMessage} (h : Recorded x texts y)
    (htexts : ∀ m ∈ batch, rawSeed b.tenantId b.accountId m.msgId ∈ texts)
    (hbefore : ∀ d ∈ duplicates, DeliveredAs b d y ∨ Queued b d y.dlq.items.values)
    (hs : SmoothBatch x b duplicates y batch) :
    (Recorded x texts (processBatch x b y batch).1 ∧ y.Grows (processBatch x b y batch).1) ∧
      (processBatch x b y batch).2.map Prod.fst = batch ∧
      (∀ p ∈ (processBatch x b y batch).2, Settled b y (processBatch x b y batch).1 p.1 p.2) ∧
      ∀ d ∈ duplicates, DeliveredAs b d (processBatch x b y batch).1 ∨
        Queued b d (processBatch x b y batch).1.dlq.items.values := by
  induction batch generalizing y duplicates with
  | nil => exact ⟨⟨h, .refl y⟩, rfl, fun _ hp => absurd hp List.not_mem_nil, hbefore⟩
  | cons m rest ih =>
    have htext := htexts m (List.mem_cons_self ..)
    have hrest := fun m hm => htexts m (List.mem_cons_of_mem _ hm)
    have hmono : ∀ {y' : Gateway} {d}, y.Grows y' → y'.dlq = y.dlq →
        DeliveredAs b d y ∨ Queued b d y.dlq.items.values →
        DeliveredAs b d y' ∨ Queued b d y'.dlq.items.values := by
      rintro y' d hgrow hqueue (hdelivered | hqueued)
      · exact .inl (hdelivered.mono hgrow)
      · exact .inr (hqueue ▸ hqueued)
    cases processSingleMessage_smooth hsha h htext hs with
    | suppressed y' _ hl hgrow hqueue hr hm hs' =>
      obtain ⟨⟨hl', hgrow'⟩, hall, hdone, hafter⟩ := ih hl hrest (by
        intro d hd
        rcases List.mem_cons.1 hd with rfl | hd
        · exact hmono hgrow hqueue hm
        · exact hmono hgrow hqueue (hbefore d hd)) hs'
      rw [processBatch, hr]
      refine ⟨⟨hl', hgrow.trans hgrow'⟩, by rw [List.map_cons, hall], fun p hp => ?_,
        fun d hd => hafter d (List.mem_cons_of_mem _ hd)⟩
      rcases List.mem_cons.1 hp with rfl | hp
      · exact hafter m (List.mem_cons_self ..)
      · exact (hdone p hp).of_grows hgrow
    | delivered y' _ dto hl hgrow hqueue hr hm hs' =>
      obtain ⟨⟨hl', hgrow'⟩, hall, hdone, hafter⟩ :=
        ih hl hrest (fun d hd => hmono hgrow hqueue (hbefore d hd)) hs'
      rw [processBatch, hr]
      refine ⟨⟨hl', hgrow.trans hgrow'⟩, by rw [List.map_cons, hall], fun p hp => ?_, hafter⟩
      rcases List.mem_cons.1 hp with rfl | hp
      · exact hm.mono hgrow'
      · exact (hdone p hp).of_grows hgrow
    | quarantined y' exc hl hgrow hr hm hkept =>
      rw [processBatch, hr]
      refine ⟨⟨hl, hgrow⟩, rfl, fun p hp => ?_, fun d hd => hkept d hd (hbefore d hd)⟩
      rw [List.mem_singleton.1 hp]
      exact hm

/-- **Nothing is lost in smooth runs.**  In every iteration, every message that
was fetched is delivered, put into the queue, or a duplicate of one that was. -/
theorem imap_settled (x : Externals) (b : Mailbox) (defaultTtlSec : ℤ) (maxItems : ℕ)
    (fetches : List (Except String (List FetchedMessage)))
    (hsha : Set.InjOn x.sha256 (fetchedSeeds b fetches))
    (h : Machine.Always (loopIteration x b) (Smooth x b) (Gateway.init defaultTtlSec maxItems)
      fetches) :
    Machine.Always (loopIteration x b) (AllSettled x b) (Gateway.init defaultTtlSec maxItems)
      fetches := by
  have h' := h.and_of_mem (Q := fun fetched => ∀ batch, fetched = .ok batch → ∀ m ∈ batch,
      rawSeed b.tenantId b.accountId m.msgId ∈ fetchedSeeds b fetches) <| by
    rintro _ hmem batch rfl m hm
    exact ⟨batch, hmem, m, hm, rfl⟩
  have hnone : ∀ {y : Gateway}, ∀ d ∈ ([] : List FetchedMessage),
      DeliveredAs b d y ∨ Queued b d y.dlq.items.values :=
    fun _ hd => absurd hd List.not_mem_nil
  refine Machine.always_of_inv (I := Recorded x (fetchedSeeds b fetches)) ?_ ?_
    (recorded_init x _ defaultTtlSec maxItems) h'
  · rintro y fetched hl ⟨hs, htexts⟩
    cases fetched with
    | error text => exact hl
    | ok batch => exact (processBatch_smooth hsha hl (htexts batch rfl) hnone (hs batch rfl)).1.1
  · rintro y fetched hl ⟨hs, htexts⟩
    cases fetched with
    | error text =>
      refine ⟨fun batch hbatch => ?_, fun _ hp => absurd hp List.not_mem_nil⟩
      cases hbatch
    | ok batch =>
      obtain ⟨-, hall, hdone, -⟩ :=
        processBatch_smooth hsha hl (htexts batch rfl) hnone (hs batch rfl)
      refine ⟨?_, hdone⟩
      rintro _ ⟨rfl⟩
      exact hall

/-! ## A smooth run, and a message too large -/

def sampleMailbox : Mailbox where
  tenantId := .ofNat 1
  accountId := .ofNat 2
  mailboxAddress := "u@corp.local"
  provider := .imap
  maxMimeSizeBytes := 100

def sampleEml : ByteArray :=
  "From: a@x.com\nTo: u@corp.local\nSubject: Hi\nMessage-ID: <1@x>\n\nhello".toUTF8

/-- What SHA-256 makes of some message identifiers, of tenants `1` and `3`. -/
def sampleDigests : List (String × String) :=
  [(rawSeed (.ofNat 1) (.ofNat 2) "1",
      "39e4ebf90322759bc2f32bd7a54eb3e7c5751ec9ebe296e3a26ef2b371ec6dff"),
    (rawSeed (.ofNat 1) (.ofNat 2) "2",
      "c908f605c684a8c2351044d1fc399fa8eafcd98b6424ff070ad6746f50ad77c4"),
    (rawSeed (.ofNat 1) (.ofNat 2) "gmail_msg_2",
      "7d61a8da1cf4c6c266973039de540b2fea7f28d2f2a1b918227cedaa94a75994"),
    (rawSeed (.ofNat 3) (.ofNat 2) "1",
      "447b47a16bf1a1648169173e5ca83b4f976934fb4f59b60a8f35d40ad2bfd3ae")]

/-- A collision-free function that agrees with SHA-256 on the samples. -/
def sampleSha256 : String ≃ String :=
  sampleDigests.foldr (fun p e => (Equiv.swap p.1 p.2).trans e) (Equiv.refl String)

/-- The sample message is parsed as the library does. -/
def sampleExternals : Externals where
  sha256 := sampleSha256
  parseEnvelope address raw :=
    .ok (if raw = sampleEml then ⟨some "<1@x>", "a@x.com", ["u@corp.local"], "Hi"⟩
      else ⟨none, "unknown@sender.com", [address], ""⟩)

def sampleMessage (msgId : String) (now : ℚ) (pipeline : Option IngestError) : FetchedMessage :=
  ⟨msgId, sampleEml, now, pipeline⟩

/-- The first message is delivered, the pipeline raises on the second, and both
are suppressed when they come again. -/
theorem imap_settled_sample :
    Machine.Always (loopIteration sampleExternals sampleMailbox)
      (AllSettled sampleExternals sampleMailbox) (Gateway.init 86400 1000)
      [.ok [sampleMessage "1" 0 none, sampleMessage "2" 1 (some (.other "timeout"))],
        .ok [sampleMessage "1" 60 none, sampleMessage "2" 61 none]] := by
  refine imap_settled _ _ _ _ _ sampleSha256.injective.injOn ⟨?_, ?_, trivial⟩
  · rintro _ ⟨rfl⟩
    decide +kernel
  · rintro _ ⟨rfl⟩
    decide +kernel

/-- A message over the limit ends the iteration: it is not in the queue, and the
message after it is not looked at. -/
theorem oversize_lost :
    ¬Machine.Always (loopIteration sampleExternals sampleMailbox)
      (AllSettled sampleExternals sampleMailbox) (Gateway.init 86400 1000)
      [.ok [⟨"1", ⟨Array.replicate 101 65⟩, 0, none⟩, sampleMessage "2" 1 none]] := by
  rintro ⟨⟨-, h⟩, -⟩
  obtain ⟨item, hitem, -⟩ := h (⟨"1", ⟨Array.replicate 101 65⟩, 0, none⟩, .raised)
    (by decide +kernel)
  have hempty : (loopIteration sampleExternals sampleMailbox (Gateway.init 86400 1000)
      (.ok [⟨"1", ⟨Array.replicate 101 65⟩, 0, none⟩, sampleMessage "2" 1 none])).1.dlq.items.values
        = [] := by
    decide +kernel
  rw [hempty] at hitem
  exact absurd hitem List.not_mem_nil

end ScamOn.IngestionGateway
