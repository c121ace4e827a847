import Mathlib.Algebra.Order.Field.Rat
import Mathlib.Data.Finset.Insert
import Mathlib.Tactic.NormNum
import ScamOn.Lib.Machine
import ScamOn.Lib.Dict
import ScamOn.Lib.Text

/-!
# Tenant memory convergence

`TenantMemoryConvergenceEngine` moves the trust score of an entity (a sender, a
domain, a message) by a bounded step for each analyst verdict, and keeps an
audit item with the score before and after.  An administrator can roll an item
back, which puts the score recorded before it in place again.

* `applyConvergence` and `rollbackConvergence` are the two operations on the
  per-tenant partitions; `step` dispatches on an `Action`.
* `Ledger` is what the engine amounts to for one entity of one tenant: a score
  and the items not yet rolled back.  `ledger_step` says everything that one
  action of any kind can do to one ledger.
* `trust_of_all_rolledBack`: once every item of an entity is rolled back, its
  score is the one recorded before the item that was rolled back last, and `1/2`
  if each rollback took back the latest item then standing.
* `rollback_in_order_of_application` shows that rolling back in another order
  leaves another score.
-/

namespace ScamOn.Feedback

/-! ## Data -/

/-- `AnalystVerdictCorrection`. -/
inductive AnalystVerdictCorrection
  | falsePositive | falseNegative | confirmedMalicious | confirmedSuspicious | confirmedClean
  | benignAnomaly | needsEscalation
  deriving DecidableEq, Repr

def AnalystVerdictCorrection.value : AnalystVerdictCorrection → String
  | .falsePositive => "FALSE_POSITIVE"
  | .falseNegative => "FALSE_NEGATIVE"
  | .confirmedMalicious => "CONFIRMED_MALICIOUS"
  | .confirmedSuspicious => "CONFIRMED_SUSPICIOUS"
  | .confirmedClean => "CONFIRMED_CLEAN"
  | .benignAnomaly => "BENIGN_ANOMALY"
  | .needsEscalation => "NEEDS_ESCALATION"

/-- `MAX_CONVERGENCE_DELTA`. -/
def maxConvergenceDelta : ℚ := 1 / 5

/-- `BASE_LEARNING_RATE`. -/
def baseLearningRate : ℚ := 1 / 5

/-- `FEEDBACK_SIGNAL_MAPPING`. -/
def feedbackSignalMapping : List (String × ℚ) :=
  [(AnalystVerdictCorrection.falsePositive.value, 1),
    (AnalystVerdictCorrection.confirmedClean.value, 4 / 5),
    (AnalystVerdictCorrection.benignAnomaly.value, 2 / 5),
    (AnalystVerdictCorrection.needsEscalation.value, 0),
    (AnalystVerdictCorrection.confirmedSuspicious.value, -1 / 2),
    (AnalystVerdictCorrection.falseNegative.value, -1),
    (AnalystVerdictCorrection.confirmedMalicious.value, -1)]

/-- `ANALYST_TRUST_WEIGHTS`, by the text of the trust level. -/
def analystTrustWeights : List (String × ℚ) :=
  [("JUNIOR_ANALYST", 1 / 2), ("SENIOR_ANALYST", 17 / 20), ("LEAD_SOC_ADMIN", 1)]

/-- The trust weight; a text that is no trust level weighs `1/2`. -/
def trustWeight (analystTrustLevel : String) : ℚ :=
  (analystTrustWeights.lookup analystTrustLevel).getD (1 / 2)

/-- The feedback signal; a text that is no verdict gives `0`. -/
def feedbackSignal (correctedVerdict : String) : ℚ :=
  (feedbackSignalMapping.lookup correctedVerdict).getD 0

/-- `max(lo, min(hi, x))`. -/
def clamp (lo hi x : ℚ) : ℚ := max lo (min hi x)

/-- `TenantEntityTrustRecord`. -/
structure TrustRecord where
  entityKey : String
  trustScore : ℚ
  confidenceScore : ℚ
  incidentCount : ℕ
  falsePositiveCount : ℕ
  falseNegativeCount : ℕ
  lastVerdict : String
  deriving DecidableEq

/-- A record that no feedback has reached. -/
def TrustRecord.initial (entityKey : String) : TrustRecord where
  entityKey := entityKey
  trustScore := 1 / 2
  confidenceScore := 1 / 2
  incidentCount := 0
  falsePositiveCount := 0
  falseNegativeCount := 0
  lastVerdict := "INITIAL"

/-- `ConvergenceAuditItem`. -/
structure AuditItem where
  eventId : Uuid
  feedbackId : Uuid
  tenantId : Uuid
  entityKey : String
  priorScore : ℚ
  posteriorScore : ℚ
  delta : ℚ
  analystId : String
  analystTrustLevel : String
  rolledBackBy : Option String
  rolledBack : Bool
  deriving DecidableEq

/-- What the engine holds for one tenant.  The source keeps three dictionaries
by tenant, which it initialises together. -/
structure TenantMemory where
  entities : Dict String TrustRecord
  audits : List AuditItem
  processed : Finset Uuid

def TenantMemory.empty : TenantMemory := ⟨∅, [], ∅⟩

/-- `TenantMemoryConvergenceEngine`. -/
abbrev Engine := Dict Uuid TenantMemory

/-- The arguments of `apply_convergence`. -/
structure FeedbackCall where
  tenantId : Uuid
  feedbackId : Uuid
  eventId : Uuid
  correctedVerdict : String
  analystTrustLevel : String
  analystId : String
  entityKey : String
  deriving DecidableEq

/-- The fields of `AnalystVerdictSubmittedEvent` that the engine reads. -/
structure AnalystVerdictSubmittedEvent where
  tenantId : Uuid
  feedbackId : Uuid
  eventId : Uuid
  correctedVerdict : String
  analystTrustLevel : String
  analystId : String
  messageId : String

/-- `ConvergenceResultDTO`. -/
structure ConvergenceResult where
  feedbackId : Uuid
  tenantId : Uuid
  entityKey : String
  priorScore : ℚ
  posteriorScore : ℚ
  delta : ℚ
  applied : Bool
  reason : String

/-- `AuthenticatedAnalystDTO`: the fields a rollback reads. -/
structure AuthenticatedAnalyst where
  analystId : String
  tenantId : Uuid
  role : String

/-- `ConvergenceRollbackResultDTO`. -/
structure RollbackResult where
  feedbackId : Uuid
  tenantId : Uuid
  entityKey : String
  restoredScore : ℚ
  rolledBackBy : String
  message : String

/-- The exceptions a rollback raises, with their texts. -/
inductive ConvergenceError
  | recordNotFound (message : String)
  | rollback (message : String)
  | unauthorized (message : String)
  deriving DecidableEq

/-! ## The engine -/

/-- The memory of a tenant, empty before its first feedback. -/
def memory (e : Engine) (tenantId : Uuid) : TenantMemory :=
  (e.get? tenantId).getD TenantMemory.empty

/-- The record of an entity, initial before its first feedback. -/
def TenantMemory.record (m : TenantMemory) (entityKey : String) : TrustRecord :=
  (m.entities.get? entityKey).getD (TrustRecord.initial entityKey)

/-- The bounded step that a verdict makes. -/
def convergenceDelta (c : FeedbackCall) : ℚ :=
  clamp (-maxConvergenceDelta) maxConvergenceDelta
    (baseLearningRate * trustWeight c.analystTrustLevel * feedbackSignal c.correctedVerdict)

/-- The record after a verdict. -/
def TrustRecord.update (r : TrustRecord) (c : FeedbackCall) : TrustRecord where
  entityKey := r.entityKey
  trustScore := clamp 0 1 (r.trustScore + convergenceDelta c)
  confidenceScore := clamp 0 1 (r.confidenceScore + 1 / 20 * trustWeight c.analystTrustLevel)
  incidentCount := r.incidentCount + 1
  falsePositiveCount :=
    if c.correctedVerdict = AnalystVerdictCorrection.falsePositive.value then
      r.falsePositiveCount + 1
    else r.falsePositiveCount
  falseNegativeCount :=
    if c.correctedVerdict = AnalystVerdictCorrection.falsePositive.value then
      r.falseNegativeCount
    else if c.correctedVerdict = AnalystVerdictCorrection.falseNegative.value ∨
        c.correctedVerdict = AnalystVerdictCorrection.confirmedMalicious.value then
      r.falseNegativeCount + 1
    else r.falseNegativeCount
  lastVerdict := c.correctedVerdict

/-- The audit item of a verdict on the record `r`. -/
def auditItem (c : FeedbackCall) (r : TrustRecord) : AuditItem where
  eventId := c.eventId
  feedbackId := c.feedbackId
  tenantId := c.tenantId
  entityKey := c.entityKey
  priorScore := r.trustScore
  posteriorScore := (r.update c).trustScore
  delta := convergenceDelta c
  analystId := c.analystId
  analystTrustLevel := c.analystTrustLevel
  rolledBackBy := none
  rolledBack := false

/-- The memory after a verdict that is not a duplicate. -/
def TenantMemory.apply (m : TenantMemory) (c : FeedbackCall) : TenantMemory where
  entities := m.entities.set c.entityKey ((m.record c.entityKey).update c)
  audits := m.audits ++ [auditItem c (m.record c.entityKey)]
  processed := insert c.feedbackId (insert c.eventId m.processed)

/-- The idempotency check: the event or the feedback was seen before. -/
def TenantMemory.Duplicate (m : TenantMemory) (c : FeedbackCall) : Prop :=
  c.eventId ∈ m.processed ∨ c.feedbackId ∈ m.processed

instance (m : TenantMemory) (c : FeedbackCall) : Decidable (m.Duplicate c) :=
  inferInstanceAs (Decidable (_ ∨ _))

/-- `apply_convergence`. -/
def applyConvergence (e : Engine) (c : FeedbackCall) : Engine × ConvergenceResult :=
  let m := memory e c.tenantId
  let r := m.record c.entityKey
  if m.Duplicate c then
    (e.set c.tenantId m,
      { feedbackId := c.feedbackId, tenantId := c.tenantId, entityKey := c.entityKey,
        priorScore := r.trustScore, posteriorScore := r.trustScore, delta := 0,
        applied := false, reason := "IDEMPOTENT_DUPLICATE" })
  else
    (e.set c.tenantId (m.apply c),
      { feedbackId := c.feedbackId, tenantId := c.tenantId, entityKey := c.entityKey,
        priorScore := r.trustScore, posteriorScore := (r.update c).trustScore,
        delta := convergenceDelta c, applied := true, reason := "CONVERGENCE_APPLIED" })

/-- `handle_event`: the entity is the message. -/
def handleEvent (e : Engine) (ev : AnalystVerdictSubmittedEvent) : Engine × ConvergenceResult :=
  applyConvergence e
    { tenantId := ev.tenantId, feedbackId := ev.feedbackId, eventId := ev.eventId,
      correctedVerdict := ev.correctedVerdict, analystTrustLevel := ev.analystTrustLevel,
      analystId := ev.analystId, entityKey := ev.messageId }

/-- `str.upper`, on the characters whose capital is an ASCII letter of its own.
Other characters never make a text one of the three roles. -/
def upperChar (c : Char) : Char :=
  if c = 'ı' then 'I' else if c = 'ſ' then 'S' else c.toUpper

/-- The roles that may roll back. -/
def isAdminRole (role : String) : Bool :=
  String.ofList (role.toList.map upperChar) ∈ ["ADMIN", "SUPER_ADMIN", "LEAD_SOC_ADMIN"]

/-- The latest item of a feedback. -/
def TenantMemory.target (m : TenantMemory) (feedbackId : Uuid) : Option AuditItem :=
  m.audits.reverse.find? (·.feedbackId = feedbackId)

/-- The memory after `item`, the latest of its feedback, is rolled back. -/
def TenantMemory.rollback (m : TenantMemory) (item : AuditItem) (analystId : String) :
    TenantMemory where
  entities :=
    match m.entities.get? item.entityKey with
    | some r => m.entities.set item.entityKey { r with trustScore := item.priorScore }
    | none => m.entities
  audits :=
    (m.audits.reverse.replaceF fun i =>
      if i.feedbackId = item.feedbackId then
        some { i with rolledBack := true, rolledBackBy := some analystId }
      else none).reverse
  processed := m.processed

/-- `rollback_convergence`. -/
def rollbackConvergence (e : Engine) (tenantId feedbackId : Uuid) (caller : AuthenticatedAnalyst) :
    Engine × Except ConvergenceError RollbackResult :=
  if isAdminRole caller.role = false then
    (e, .error (.unauthorized "Only administrative roles can roll back convergence updates"))
  else if caller.tenantId ≠ tenantId then
    (e, .error (.unauthorized "Caller cannot perform rollback outside their tenant boundary"))
  else
    match (memory e tenantId).target feedbackId with
    | none =>
      (e, .error (.recordNotFound ("No convergence record found for feedback " ++ feedbackId.str ++
        " in tenant " ++ tenantId.str)))
    | some item =>
      if item.rolledBack then
        (e, .error (.rollback ("Convergence update for feedback " ++ feedbackId.str ++
          " has already been rolled back")))
      else
        (e.set tenantId ((memory e tenantId).rollback item caller.analystId),
          .ok {
            feedbackId := feedbackId
            tenantId := tenantId
            entityKey := item.entityKey
            restoredScore := item.priorScore
            rolledBackBy := caller.analystId
            message := "Convergence update for feedback " ++ feedbackId.str ++
              " successfully rolled back" })

/-- `get_tenant_entity_trust`. -/
def getTenantEntityTrust (e : Engine) (tenantId : Uuid) (entityKey : String) : ℚ :=
  match (memory e tenantId).entities.get? entityKey with
  | some r => r.trustScore
  | none => 1 / 2

/-! ## Runs -/

/-- A call to the engine. -/
inductive Action
  | apply (c : FeedbackCall)
  | event (ev : AnalystVerdictSubmittedEvent)
  | rollback (tenantId feedbackId : Uuid) (caller : AuthenticatedAnalyst)

/-- What a call returns or raises. -/
inductive Response
  | applied (r : ConvergenceResult)
  | rolledBack (r : Except ConvergenceError RollbackResult)

def step (e : Engine) : Action → Engine × Response
  | .apply c => ((applyConvergence e c).1, .applied (applyConvergence e c).2)
  | .event ev => ((handleEvent e ev).1, .applied (handleEvent e ev).2)
  | .rollback t f caller =>
    ((rollbackConvergence e t f caller).1, .rolledBack (rollbackConvergence e t f caller).2)

/-- The engine a run starts with. -/
def init : Engine := ∅

/-! ## One entity of one tenant -/

/-- What the engine amounts to for one entity: its score, and the items not yet
rolled back, oldest first. -/
structure Ledger where
  score : ℚ
  standing : List AuditItem

/-- The items of an entity that stand. -/
def TenantMemory.standing (m : TenantMemory) (entityKey : String) : List AuditItem :=
  m.audits.filter fun i => i.entityKey = entityKey ∧ i.rolledBack = false

def TenantMemory.ledger (m : TenantMemory) (entityKey : String) : Ledger :=
  ⟨(m.record entityKey).trustScore, m.standing entityKey⟩

/-- The ledger of an entity. -/
def ledger (e : Engine) (tenantId : Uuid) (entityKey : String) : Ledger :=
  (memory e tenantId).ledger entityKey

/-- The item of an entity that an action rolls back, if it does. -/
def takenBack (e : Engine) (tenantId : Uuid) (entityKey : String) : Action → Option AuditItem
  | .rollback t f caller =>
    if isAdminRole caller.role ∧ caller.tenantId = t ∧ t = tenantId then
      ((memory e t).target f).filter fun i => i.rolledBack = false ∧ i.entityKey = entityKey
    else none
  | _ => none

/-- The moves of a ledger, labelled with the item that is taken back. -/
inductive Ledger.Step : Ledger → Option AuditItem → Ledger → Prop
  | idle (L : Ledger) : Step L none L
  | apply (L : Ledger) (item : AuditItem) (hprior : item.priorScore = L.score) :
      Step L none ⟨item.posteriorScore, L.standing ++ [item]⟩
  | rollback (score : ℚ) (l r : List AuditItem) (item : AuditItem)
      (hlatest : ∀ i ∈ r, i.feedbackId ≠ item.feedbackId) :
      Step ⟨score, l ++ item :: r⟩ (some item) ⟨item.priorScore, l ++ r⟩

theorem memory_set (e : Engine) (t t' : Uuid) (m : TenantMemory) :
    memory (e.set t m) t' = if t' = t then m else memory e t' := by
  unfold memory
  rw [Dict.get?_set]
  split_ifs
  · rfl
  · rfl

theorem getTenantEntityTrust_eq_score (e : Engine) (t : Uuid) (k : String) :
    getTenantEntityTrust e t k = (ledger e t k).score := by
  unfold getTenantEntityTrust ledger TenantMemory.ledger TenantMemory.record
  cases (memory e t).entities.get? k with
  | none => rfl
  | some r => rfl

/-- A verdict that is not a duplicate adds an item to the ledger of its entity. -/
theorem ledger_apply (m : TenantMemory) (c : FeedbackCall) (k : String) :
    (m.ledger k).Step none ((m.apply c).ledger k) := by
  by_cases hk : k = c.entityKey
  · subst hk
    have hledger : (m.apply c).ledger c.entityKey =
        ⟨(auditItem c (m.record c.entityKey)).posteriorScore,
          (m.ledger c.entityKey).standing ++ [auditItem c (m.record c.entityKey)]⟩ := by
      simp [TenantMemory.ledger, TenantMemory.record, TenantMemory.standing, TenantMemory.apply,
        auditItem]
    rw [hledger]
    exact .apply _ _ rfl
  · have hledger : (m.apply c).ledger k = m.ledger k := by
      simp [TenantMemory.ledger, TenantMemory.record, TenantMemory.standing, TenantMemory.apply,
        auditItem, Dict.get?_set_of_ne _ _ hk, Ne.symm hk]
    rw [hledger]
    exact .idle _

/-- Every entity with an item has a record. -/
def TenantMemory.Known (m : TenantMemory) : Prop :=
  ∀ i ∈ m.audits, ∃ r, m.entities.get? i.entityKey = some r

theorem target_eq_some {m : TenantMemory} {f : Uuid} {item : AuditItem}
    (h : m.target f = some item) :
    item.feedbackId = f ∧ ∃ l r, m.audits = l ++ item :: r ∧ ∀ i ∈ r, i.feedbackId ≠ f := by
  obtain ⟨hf, as, bs, hsplit, hnone⟩ := List.find?_eq_some_iff_append.1 h
  have haudits : m.audits = bs.reverse ++ item :: as.reverse := by
    have hrev := congrArg List.reverse hsplit
    simpa using hrev
  refine ⟨by simpa using hf, bs.reverse, as.reverse, haudits, ?_⟩
  intro i hi
  simpa using hnone i (List.mem_reverse.1 hi)

theorem replaceF_append_of_none {α : Type*} {p : α → Option α} {l : List α}
    (h : ∀ x ∈ l, p x = none) (rest : List α) :
    (l ++ rest).replaceF p = l ++ rest.replaceF p := by
  induction l with
  | nil => rfl
  | cons x l ih =>
    have hx : p x = none := h x (List.mem_cons_self ..)
    have hl := ih fun y hy => h y (List.mem_cons_of_mem _ hy)
    rw [List.cons_append, List.replaceF, hx]
    show x :: (l ++ rest).replaceF p = _
    rw [hl, List.cons_append]

/-- Only the item itself is marked. -/
theorem audits_rollback {m : TenantMemory} {item : AuditItem} {l r : List AuditItem}
    (hsplit : m.audits = l ++ item :: r) (hlatest : ∀ i ∈ r, i.feedbackId ≠ item.feedbackId)
    (analystId : String) :
    (m.rollback item analystId).audits =
      l ++ { item with rolledBack := true, rolledBackBy := some analystId } :: r := by
  have hrev : m.audits.reverse = r.reverse ++ (item :: l.reverse) := by simp [hsplit]
  unfold TenantMemory.rollback
  simp only [hrev]
  rw [replaceF_append_of_none]
  · simp [List.replaceF]
  · intro i hi
    simp [hlatest i (List.mem_reverse.1 hi)]

/-- The restored score, and no other change to a record. -/
theorem record_rollback {m : TenantMemory} (hknown : m.Known) {item : AuditItem}
    (hmem : item ∈ m.audits) (analystId k : String) :
    (m.rollback item analystId).record k =
      if k = item.entityKey then { m.record k with trustScore := item.priorScore }
      else m.record k := by
  obtain ⟨r, hr⟩ := hknown item hmem
  unfold TenantMemory.rollback TenantMemory.record
  simp only [hr, Dict.get?_set]
  split_ifs with hk
  · rw [hk, hr]
    rfl
  · rfl

theorem ledger_rollback {m : TenantMemory} (hknown : m.Known) {f : Uuid} {item : AuditItem}
    (htarget : m.target f = some item) (hstands : item.rolledBack = false) (analystId k : String) :
    (m.ledger k).Step (if item.entityKey = k then some item else none)
      ((m.rollback item analystId).ledger k) := by
  obtain ⟨rfl, l, r, hsplit, hlatest⟩ := target_eq_some htarget
  have hmem : item ∈ m.audits := by simp [hsplit]
  have hrecord := record_rollback hknown hmem analystId k
  have hstanding : (m.rollback item analystId).standing k =
      (l.filter fun i => i.entityKey = k ∧ i.rolledBack = false) ++
        r.filter fun i => i.entityKey = k ∧ i.rolledBack = false := by
    simp [TenantMemory.standing, audits_rollback hsplit hlatest]
  by_cases hk : item.entityKey = k
  · have hbefore : m.standing k =
        (l.filter fun i => i.entityKey = k ∧ i.rolledBack = false) ++
          item :: r.filter fun i => i.entityKey = k ∧ i.rolledBack = false := by
      simp [TenantMemory.standing, hsplit, hk, hstands]
    rw [if_pos hk.symm] at hrecord
    unfold TenantMemory.ledger
    rw [if_pos hk, hrecord, hstanding, hbefore]
    exact .rollback _ _ _ _ fun i hi => hlatest i (List.mem_of_mem_filter hi)
  · have hbefore : m.standing k =
        (l.filter fun i => i.entityKey = k ∧ i.rolledBack = false) ++
          r.filter fun i => i.entityKey = k ∧ i.rolledBack = false := by
      simp [TenantMemory.standing, hsplit, hk]
    rw [if_neg (Ne.symm hk)] at hrecord
    unfold TenantMemory.ledger
    rw [if_neg hk, hrecord, hstanding, hbefore]
    exact .idle _

theorem known_apply {m : TenantMemory} (h : m.Known) (c : FeedbackCall) : (m.apply c).Known := by
  intro i hi
  have hwrite : ∀ k, (∃ r, m.entities.get? k = some r) ∨ k = c.entityKey →
      ∃ r, (m.apply c).entities.get? k = some r := by
    intro k hk
    show ∃ r, (m.entities.set _ _).get? k = some r
    by_cases heq : k = c.entityKey
    · rw [heq, Dict.get?_set_self]
      exact ⟨_, rfl⟩
    · rw [Dict.get?_set_of_ne _ _ heq]
      exact hk.resolve_right heq
  rcases List.mem_append.1 hi with hold | hnew
  · exact hwrite _ (.inl (h i hold))
  · rw [List.mem_singleton.1 hnew]
    exact hwrite _ (.inr rfl)

theorem known_rollback {m : TenantMemory} (h : m.Known) {f : Uuid} {item : AuditItem}
    (htarget : m.target f = some item) (analystId : String) :
    (m.rollback item analystId).Known := by
  obtain ⟨rfl, l, r, hsplit, hlatest⟩ := target_eq_some htarget
  intro i hi
  have hold : ∃ j ∈ m.audits, j.entityKey = i.entityKey := by
    rw [audits_rollback hsplit hlatest] at hi
    rw [hsplit]
    simp only [List.mem_append, List.mem_cons] at hi ⊢
    rcases hi with hl | rfl | hr
    · exact ⟨i, .inl hl, rfl⟩
    · exact ⟨item, .inr (.inl rfl), rfl⟩
    · exact ⟨i, .inr (.inr hr), rfl⟩
  obtain ⟨j, hj, hkey⟩ := hold
  obtain ⟨r₁, hr₁⟩ := h j hj
  rw [← hkey]
  unfold TenantMemory.rollback
  cases m.entities.get? item.entityKey with
  | none => exact ⟨r₁, hr₁⟩
  | some r₂ =>
    show ∃ r, (m.entities.set _ _).get? j.entityKey = some r
    rw [Dict.get?_set]
    split_ifs
    · exact ⟨_, rfl⟩
    · exact ⟨r₁, hr₁⟩

/-! ## What an action can do -/

/-- A duplicate changes nothing, and any other verdict is applied to the memory of its tenant. -/
theorem applyConvergence_cases (e : Engine) (c : FeedbackCall) :
    ((memory e c.tenantId).Duplicate c ∧ ∀ t, memory (applyConvergence e c).1 t = memory e t) ∨
      ¬(memory e c.tenantId).Duplicate c ∧ ∀ t, memory (applyConvergence e c).1 t =
        if t = c.tenantId then (memory e c.tenantId).apply c else memory e t := by
  unfold applyConvergence
  by_cases hdup : (memory e c.tenantId).Duplicate c
  · refine .inl ⟨hdup, fun t => ?_⟩
    simp only [if_pos hdup, memory_set]
    split_ifs with ht
    · rw [ht]
    · rfl
  · refine .inr ⟨hdup, fun t => ?_⟩
    simp only [if_neg hdup, memory_set]

/-- A rollback fails and changes nothing, or it takes back a standing item. -/
theorem rollbackConvergence_cases (e : Engine) (t f : Uuid) (caller : AuthenticatedAnalyst) :
    ((∃ err, rollbackConvergence e t f caller = (e, .error err)) ∧
      ∀ t' k, takenBack e t' k (.rollback t f caller) = none) ∨
    ∃ item res, (memory e t).target f = some item ∧ item.rolledBack = false ∧
      res.tenantId = t ∧ res.entityKey = item.entityKey ∧ res.restoredScore = item.priorScore ∧
      rollbackConvergence e t f caller =
        (e.set t ((memory e t).rollback item caller.analystId), .ok res) ∧
      ∀ t' k, takenBack e t' k (.rollback t f caller) =
        if t = t' ∧ item.entityKey = k then some item else none := by
  unfold rollbackConvergence takenBack
  by_cases hrole : isAdminRole caller.role = false
  · left
    simp [hrole]
  by_cases htenant : caller.tenantId ≠ t
  · left
    simp [hrole, htenant]
  rw [if_neg hrole, if_neg htenant]
  have hauth : isAdminRole caller.role = true ∧ caller.tenantId = t :=
    ⟨by simpa using hrole, by simpa using htenant⟩
  cases htarget : (memory e t).target f with
  | none =>
    left
    refine ⟨⟨_, rfl⟩, fun t' k => ?_⟩
    simp [htarget]
  | some item =>
    by_cases hrolled : item.rolledBack = true
    · left
      refine ⟨⟨_, if_pos hrolled⟩, fun t' k => ?_⟩
      simp [htarget, hrolled]
    · right
      have hstands : item.rolledBack = false := by simpa using hrolled
      refine ⟨item, _, rfl, hstands, ?_, ?_, ?_, if_neg hrolled, ?_⟩
      · rfl
      · rfl
      · rfl
      · intro t' k
        by_cases ht : t = t'
        · subst ht
          simp [htarget, hauth.1, hauth.2, hstands, Option.filter]
        · simp [ht]

/-- What `apply` of a new event and `rollback` keep, for the memory of one tenant, an action keeps
for the memory of each. -/
theorem memory_inv_step {I : TenantMemory → Prop}
    (happly : ∀ m c, I m → ¬m.Duplicate c → I (m.apply c))
    (hrollback : ∀ m f item analystId, I m → m.target f = some item → I (m.rollback item analystId))
    {e : Engine} (h : ∀ t, I (memory e t)) (a : Action) (t : Uuid) : I (memory (step e a).1 t) := by
  have hcall : ∀ c : FeedbackCall, I (memory (applyConvergence e c).1 t) := by
    intro c
    rcases applyConvergence_cases e c with ⟨-, hsame⟩ | ⟨hnew, happlied⟩
    · rw [hsame]
      exact h t
    · rw [happlied]
      split_ifs
      · exact happly _ c (h c.tenantId) hnew
      · exact h t
  cases a with
  | apply c => exact hcall c
  | event ev => exact hcall _
  | rollback t₀ f caller =>
    rcases rollbackConvergence_cases e t₀ f caller with
      ⟨⟨err, hfail⟩, -⟩ | ⟨item, res, htarget, -, -, -, -, hok, -⟩
    · simp only [step, hfail]
      exact h t
    · simp only [step, hok, memory_set]
      split_ifs
      · exact hrollback _ f item _ (h t₀) htarget
      · exact h t

/-- An action keeps every entity with an item on record. -/
theorem known_step {e : Engine} (h : ∀ t, (memory e t).Known) (a : Action) (t : Uuid) :
    (memory (step e a).1 t).Known :=
  memory_inv_step (fun _ c hm _ => known_apply hm c)
    (fun _ _ _ analystId hm htarget => known_rollback hm htarget analystId) h a t

/-- **What an action does to one ledger.** -/
theorem ledger_step {e : Engine} (h : ∀ t, (memory e t).Known) (a : Action) (t : Uuid)
    (k : String) :
    (ledger e t k).Step (takenBack e t k a) (ledger (step e a).1 t k) := by
  have happly : ∀ c : FeedbackCall, (ledger e t k).Step none (ledger (applyConvergence e c).1 t k) := by
    intro c
    unfold ledger
    rcases applyConvergence_cases e c with ⟨-, hcase⟩ | ⟨-, hcase⟩
    · rw [hcase]
      exact .idle _
    · rw [hcase]
      split_ifs with ht
      · rw [ht]
        exact ledger_apply _ c k
      · exact .idle _
  cases a with
  | apply c => exact happly c
  | event ev => exact happly _
  | rollback t₀ f caller =>
    rcases rollbackConvergence_cases e t₀ f caller with
      ⟨⟨err, hfail⟩, hnone⟩ | ⟨item, res, htarget, hstands, -, -, -, hok, htaken⟩
    · rw [hnone]
      simp only [step, hfail]
      exact .idle _
    · rw [htaken]
      simp only [step, hok]
      unfold ledger
      rw [memory_set]
      by_cases ht : t = t₀
      · subst ht
        simpa using ledger_rollback (h t) htarget hstands caller.analystId k
      · rw [if_neg ht, if_neg fun hboth => ht hboth.1.symm]
        exact .idle _

/-- The score that a response reports as restored to an entity. -/
def restoredBy (t : Uuid) (k : String) : Response → Option ℚ
  | .rolledBack (.ok r) => if r.tenantId = t ∧ r.entityKey = k then some r.restoredScore else none
  | _ => none

theorem restoredBy_step (e : Engine) (a : Action) (t : Uuid) (k : String) :
    restoredBy t k (step e a).2 = (takenBack e t k a).map AuditItem.priorScore := by
  cases a with
  | apply c => rfl
  | event ev => rfl
  | rollback t₀ f caller =>
    rcases rollbackConvergence_cases e t₀ f caller with
      ⟨⟨err, hfail⟩, hnone⟩ | ⟨item, res, -, -, ht, hk, hscore, hok, htaken⟩
    · simp [step, hfail, hnone, restoredBy]
    · simp only [step, hok, htaken, restoredBy, ht, hk, hscore]
      split_ifs
      · rfl
      · rfl

/-! ## Rolling everything back -/

/-- Every feedback applied to an entity has been rolled back. -/
def AllRolledBack (e : Engine) (t : Uuid) (k : String) : Prop :=
  ∀ i ∈ (memory e t).audits, i.entityKey = k → i.rolledBack = true

instance (e : Engine) (t : Uuid) (k : String) : Decidable (AllRolledBack e t k) :=
  inferInstanceAs (Decidable (∀ i ∈ (memory e t).audits, i.entityKey = k → i.rolledBack = true))

/-- The action takes back, of this entity, nothing but the latest standing item. -/
def TakesBackLatest (t : Uuid) (k : String) (e : Engine) (a : Action) : Prop :=
  ∀ item ∈ takenBack e t k a, (ledger e t k).standing.getLast? = some item

instance (t : Uuid) (k : String) (e : Engine) (a : Action) : Decidable (TakesBackLatest t k e a) :=
  inferInstanceAs
    (Decidable (∀ item ∈ takenBack e t k a, (ledger e t k).standing.getLast? = some item))

/-- The scores restored to an entity in the course of a run. -/
def restoredScores (t : Uuid) (k : String) (responses : List Response) : List ℚ :=
  responses.filterMap (restoredBy t k)

theorem standing_eq_nil_iff (e : Engine) (t : Uuid) (k : String) :
    (ledger e t k).standing = [] ↔ AllRolledBack e t k := by
  show (memory e t).audits.filter _ = [] ↔ _
  simp [AllRolledBack, List.filter_eq_nil_iff]

theorem known_init (t : Uuid) : (memory init t).Known := by
  intro i hi
  cases hi

/-- With nothing left standing, the score is the one restored last. -/
theorem score_eq_last_restored (t : Uuid) (k : String) (as : List Action) {e : Engine}
    (hknown : ∀ t, (memory e t).Known) {d : ℚ}
    (hd : (ledger e t k).standing = [] → (ledger e t k).score = d)
    (hend : (ledger (Machine.run step e as) t k).standing = []) :
    (ledger (Machine.run step e as) t k).score =
      ((restoredScores t k (Machine.outputs step e as)).getLast?).getD d := by
  induction as generalizing e d with
  | nil => exact hd hend
  | cons a as ih =>
    have hnext : (ledger (step e a).1 t k).standing = [] →
        (ledger (step e a).1 t k).score = (restoredBy t k (step e a).2).getD d := by
      rw [restoredBy_step]
      have hmove := ledger_step hknown a t k
      generalize ledger e t k = L at hmove hd
      generalize ledger (step e a).1 t k = L' at hmove
      generalize takenBack e t k a = label at hmove
      intro hnil
      cases hmove with
      | idle => exact hd hnil
      | apply L item hprior => simp at hnil
      | rollback score l r item hlatest => rfl
    have hrun := ih (known_step hknown a) hnext hend
    have hcons : restoredScores t k (Machine.outputs step e (a :: as)) =
        (restoredBy t k (step e a).2).toList ++
          restoredScores t k (Machine.outputs step (step e a).1 as) := by
      show List.filterMap (restoredBy t k) (_ :: _) = _
      cases hr : restoredBy t k (step e a).2 with
      | none => rw [List.filterMap_cons_none hr]; rfl
      | some q => rw [List.filterMap_cons_some hr]; rfl
    rw [Machine.run_cons, hrun, hcons, List.getLast?_append]
    cases restoredBy t k (step e a).2 with
    | none => simp
    | some q => simp

/-- Standing items link up: each starts from the score the one before left. -/
def Linked (start : ℚ) : List AuditItem → ℚ → Prop
  | [], final => final = start
  | item :: l, final => item.priorScore = start ∧ Linked item.posteriorScore l final

theorem linked_append_singleton {start final : ℚ} {l : List AuditItem} {item : AuditItem} :
    Linked start (l ++ [item]) final ↔
      Linked start l item.priorScore ∧ final = item.posteriorScore := by
  induction l generalizing start with
  | nil => simp [Linked]
  | cons x l ih => simp [Linked, ih, and_assoc]

/-- Taking back only the latest item keeps the standing items linked. -/
theorem linked_step {e : Engine} (hknown : ∀ t, (memory e t).Known) (t : Uuid) (k : String)
    (a : Action) (hlatest : TakesBackLatest t k e a)
    (h : Linked (1 / 2) (ledger e t k).standing (ledger e t k).score) :
    Linked (1 / 2) (ledger (step e a).1 t k).standing (ledger (step e a).1 t k).score := by
  have hmove := ledger_step hknown a t k
  unfold TakesBackLatest at hlatest
  generalize ledger e t k = L at hmove h hlatest
  generalize ledger (step e a).1 t k = L' at hmove
  generalize takenBack e t k a = label at hmove hlatest
  cases hmove with
  | idle => exact h
  | apply L item hprior =>
    rw [linked_append_singleton, hprior]
    exact ⟨h, rfl⟩
  | rollback score l r item hothers =>
    have hlast : (l ++ item :: r).getLast? = some item := hlatest item rfl
    have hr : r = [] := by
      by_contra hne
      have hmem : item ∈ r := by
        rw [List.getLast?_append_of_ne_nil _ (List.cons_ne_nil _ _),
          List.getLast?_cons_of_ne_nil hne] at hlast
        exact List.mem_of_getLast? hlast
      exact hothers item hmem rfl
    subst hr
    rw [List.append_nil]
    exact (linked_append_singleton.1 h).1

/-- **Rolling everything back.**  Once every feedback applied to an entity has
been rolled back, its trust score is the prior score of the feedback that was
rolled back last (`1/2` if there was none), and it is the initial `1/2` if each
rollback took back the latest feedback then standing. -/
theorem trust_of_all_rolledBack (as : List Action) (t : Uuid) (k : String)
    (hall : AllRolledBack (Machine.run step init as) t k) :
    getTenantEntityTrust (Machine.run step init as) t k =
        ((restoredScores t k (Machine.outputs step init as)).getLast?).getD (1 / 2) ∧
      (Machine.Always step (TakesBackLatest t k) init as →
        getTenantEntityTrust (Machine.run step init as) t k = 1 / 2) := by
  have hnil : (ledger (Machine.run step init as) t k).standing = [] :=
    (standing_eq_nil_iff _ _ _).2 hall
  rw [getTenantEntityTrust_eq_score]
  constructor
  · exact score_eq_last_restored t k as known_init (fun _ => rfl) hnil
  · intro hlatest
    have hinv := Machine.inv_run
      (I := fun e => (∀ t, (memory e t).Known) ∧
        Linked (1 / 2) (ledger e t k).standing (ledger e t k).score)
      (fun e a hI hC => ⟨known_step hI.1 a, linked_step hI.1 t k a hC hI.2⟩)
      ⟨known_init, rfl⟩ hlatest
    have hlinked := hinv.2
    rw [hnil] at hlinked
    exact hlinked

/-! ### Two verdicts on one sender -/

/-- A false positive reported by a lead analyst. -/
def sampleFeedback (n : ℕ) : Action :=
  .apply {
    tenantId := Uuid.ofNat 1
    feedbackId := Uuid.ofNat (10 + n)
    eventId := Uuid.ofNat (20 + n)
    correctedVerdict := "FALSE_POSITIVE"
    analystTrustLevel := "LEAD_SOC_ADMIN"
    analystId := "lead"
    entityKey := "vendor@test.com" }

/-- Its rollback by an administrator of the tenant. -/
def sampleRollback (n : ℕ) : Action :=
  .rollback (Uuid.ofNat 1) (Uuid.ofNat (10 + n)) ⟨"admin", Uuid.ofNat 1, "admin"⟩

/-- The latest verdict first: the score is `1/2` again. -/
theorem trust_of_latest_first :
    getTenantEntityTrust (Machine.run step init
      [sampleFeedback 1, sampleFeedback 2, sampleRollback 2, sampleRollback 1])
      (Uuid.ofNat 1) "vendor@test.com" = 1 / 2 :=
  (trust_of_all_rolledBack _ _ _ (by decide +kernel)).2 (by decide +kernel)

/-- **The order matters.**  Two verdicts take the score to `7/10` and `9/10`.
Rolled back in the order they were applied, they leave it at `7/10`. -/
theorem rollback_in_order_of_application :
    AllRolledBack (Machine.run step init
      [sampleFeedback 1, sampleFeedback 2, sampleRollback 1, sampleRollback 2])
      (Uuid.ofNat 1) "vendor@test.com" ∧
    getTenantEntityTrust (Machine.run step init
      [sampleFeedback 1, sampleFeedback 2, sampleRollback 1, sampleRollback 2])
      (Uuid.ofNat 1) "vendor@test.com" = 7 / 10 := by
  constructor
  · decide +kernel
  · decide +kernel

end ScamOn.Feedback
