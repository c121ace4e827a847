import Mathlib.Algebra.Order.Field.Rat
import Mathlib.Data.Finset.Insert
import ScamOn.Lib.Machine
import ScamOn.Lib.Text

/-!
# The response policy engine

`ResponsePolicyEngine` decides whether a requested security action may be
dispatched.  It checks the lineage of the request, lets informational actions
through, asks for a confidence of at least 0.85, and puts high-impact actions
behind a human approval token whose identifier it then remembers as used.

* `evaluateActionPolicy` is the engine's one operation, with the engine's set of
  used identifiers passed along; `evaluate_validated` says everything a
  validated high-impact request went through.
* `approvalBound_of_fieldsSound` is the law of the approval boundary along a
  run: the token names the tenant, the message and the action, is in date and
  unused, and no earlier authorised request carried its identifier.  The engine
  itself compares the tenant, the message and the identifier only, so the law
  needs the other three fields to be right when a token is read;
  `approval_for_another_action` is a run that shows it.
-/

namespace ScamOn.Remediation

/-! ## Data -/

/-- `ActionTaken`, the enforced security action. -/
inductive ActionTaken
  | delivered | quarantined | retracted | bannerInjected | blocked | pending
  deriving DecidableEq, Repr

/-- The text of an action, as the source's string enumeration spells it. -/
def ActionTaken.value : ActionTaken → String
  | .delivered => "DELIVERED"
  | .quarantined => "QUARANTINED"
  | .retracted => "RETRACTED"
  | .bannerInjected => "BANNER_INJECTED"
  | .blocked => "BLOCKED"
  | .pending => "PENDING"

/-- `ActionStatus`, the twelve states of the remediation lifecycle. -/
inductive ActionStatus
  | requested | policyValidated | pendingApproval | approved | dispatching | executed
  | verifying | verified | rejected | failed | retrying | failedPermanently
  deriving DecidableEq, Repr

/-- `HumanApprovalTokenDTO`.  Timestamps are ISO texts, as in the source. -/
structure HumanApprovalToken where
  approvalId : Uuid
  tenantId : Uuid
  incidentId : Uuid
  messageId : String
  requestedAction : ActionTaken
  targetId : String
  approverIdentity : String
  createdAt : String
  expiresAt : String
  isUsed : Bool
  deriving DecidableEq

/-- The fields of `RiskAssessment` that remediation reads. -/
structure RiskAssessment where
  assessmentId : Uuid
  tenantId : Uuid
  messageId : String
  deriving DecidableEq

/-- The fields of `DecisionPlan` that remediation reads. -/
structure DecisionPlan where
  planId : Uuid
  assessmentId : Uuid
  tenantId : Uuid
  messageId : String
  aiDecisionConfidence : ℚ
  deriving DecidableEq

/-! ## The engine -/

/-- `HIGH_IMPACT_ACTIONS`. -/
def highImpactDefault : Finset ActionTaken := {.blocked}

/-- `ResponsePolicyEngine`: the actions that need approval, and the identifiers
of the approvals already consumed. -/
structure ResponsePolicyEngine where
  highImpactActions : Finset ActionTaken
  usedApprovalIds : Finset Uuid

/-- `ResponsePolicyEngine.__init__`: an absent or empty override selects the
default set. -/
def ResponsePolicyEngine.init (highImpactOverride : Option (Finset ActionTaken)) :
    ResponsePolicyEngine where
  highImpactActions :=
    match highImpactOverride with
    | some s => if s = ∅ then highImpactDefault else s
    | none => highImpactDefault
  usedApprovalIds := ∅

/-- `validate_provenance`. -/
def validateProvenance (tenantId : Uuid) (assessment : RiskAssessment) (plan : DecisionPlan) :
    Bool :=
  if tenantId ≠ assessment.tenantId ∨ tenantId ≠ plan.tenantId then false
  else if assessment.messageId ≠ plan.messageId then false
  else if plan.assessmentId ≠ assessment.assessmentId then false
  else true

/-- The actions that only inform: `requested_action in (DELIVERED, PENDING)`. -/
def ActionTaken.Informational (a : ActionTaken) : Prop := a = .delivered ∨ a = .pending

instance (a : ActionTaken) : Decidable a.Informational :=
  inferInstanceAs (Decidable (a = .delivered ∨ a = .pending))

/-- The arguments of `evaluate_action_policy`, and the instant of the call.
The engine never looks at the instant. -/
structure PolicyCall where
  now : ℚ
  tenantId : Uuid
  assessment : RiskAssessment
  decisionPlan : DecisionPlan
  requestedAction : ActionTaken
  approvalToken : Option HumanApprovalToken

/-- What `evaluate_action_policy` returns. -/
structure PolicyDecision where
  status : ActionStatus
  action : ActionTaken
  reason : Option String
  deriving DecidableEq

/-- The confidence that an action other than a banner needs. -/
def PolicyCall.Confident (c : PolicyCall) : Prop :=
  85 / 100 ≤ c.decisionPlan.aiDecisionConfidence ∨ c.requestedAction = .bannerInjected

/-- `evaluate_action_policy`.  The source's `is_dry_run` argument is never read. -/
def evaluateActionPolicy (e : ResponsePolicyEngine) (c : PolicyCall) :
    ResponsePolicyEngine × PolicyDecision :=
  -- 1. lineage, failing closed
  if validateProvenance c.tenantId c.assessment c.decisionPlan = false then
    (e, ⟨.failedPermanently, c.requestedAction, some "PROVENANCE_LINEAGE_MISMATCH"⟩)
  -- 2. informational actions
  else if c.requestedAction.Informational then
    (e, ⟨.policyValidated, c.requestedAction, none⟩)
  -- 3. confidence
  else if c.decisionPlan.aiDecisionConfidence < 85 / 100 ∧ c.requestedAction ≠ .bannerInjected then
    (e, ⟨.rejected, c.requestedAction, some "INSUFFICIENT_CONFIDENCE_SCORE"⟩)
  -- 4. human approval of high-impact actions
  else if c.requestedAction ∈ e.highImpactActions then
    match c.approvalToken with
    | none => (e, ⟨.pendingApproval, c.requestedAction, some "HUMAN_APPROVAL_REQUIRED"⟩)
    | some tok =>
      if tok.approvalId ∈ e.usedApprovalIds then
        (e, ⟨.failedPermanently, c.requestedAction, some "APPROVAL_TOKEN_REPLAY_DETECTED"⟩)
      else if tok.tenantId ≠ c.tenantId ∨ tok.messageId ≠ c.decisionPlan.messageId then
        (e, ⟨.failedPermanently, c.requestedAction, some "APPROVAL_TOKEN_MISMATCH"⟩)
      else
        ({ e with usedApprovalIds := insert tok.approvalId e.usedApprovalIds },
          ⟨.policyValidated, c.requestedAction, none⟩)
  -- 5. approved
  else (e, ⟨.policyValidated, c.requestedAction, none⟩)

/-! ## What one evaluation does -/

theorem validateProvenance_eq_true {tenantId : Uuid} {assessment : RiskAssessment}
    {plan : DecisionPlan} (h : validateProvenance tenantId assessment plan = true) :
    tenantId = assessment.tenantId ∧ tenantId = plan.tenantId ∧
      assessment.messageId = plan.messageId ∧ plan.assessmentId = assessment.assessmentId := by
  unfold validateProvenance at h
  split_ifs at h with h₁ h₂ h₃
  rw [not_or, not_not, not_not] at h₁
  exact ⟨h₁.1, h₁.2, not_not.1 h₂, not_not.1 h₃⟩

/-- The engine hands back the action it was asked for. -/
theorem evaluate_action (e : ResponsePolicyEngine) (c : PolicyCall) :
    (evaluateActionPolicy e c).2.action = c.requestedAction := by
  unfold evaluateActionPolicy
  repeat' split
  all_goals rfl

/-- Used identifiers are never forgotten, and the high-impact set is fixed. -/
theorem evaluate_engine (e : ResponsePolicyEngine) (c : PolicyCall) :
    (evaluateActionPolicy e c).1.highImpactActions = e.highImpactActions ∧
      e.usedApprovalIds ⊆ (evaluateActionPolicy e c).1.usedApprovalIds := by
  unfold evaluateActionPolicy
  repeat' split
  all_goals first
    | exact ⟨rfl, Finset.Subset.refl _⟩
    | exact ⟨rfl, Finset.subset_insert _ _⟩

/-- A call the engine authorises behind the approval boundary. -/
def Authorised (e : ResponsePolicyEngine) (c : PolicyCall) : Prop :=
  c.requestedAction ∈ e.highImpactActions ∧
    (evaluateActionPolicy e c).2.status = .policyValidated

instance (e : ResponsePolicyEngine) (c : PolicyCall) : Decidable (Authorised e c) :=
  inferInstanceAs (Decidable (_ ∧ _))

/-- The tests that `evaluate_action_policy` makes on a token. -/
def TokenAccepted (e : ResponsePolicyEngine) (c : PolicyCall) (tok : HumanApprovalToken) : Prop :=
  tok.approvalId ∉ e.usedApprovalIds ∧ tok.tenantId = c.tenantId ∧
    tok.messageId = c.decisionPlan.messageId

instance (e : ResponsePolicyEngine) (c : PolicyCall) (tok : HumanApprovalToken) :
    Decidable (TokenAccepted e c tok) := inferInstanceAs (Decidable (_ ∧ _))

/-- **The approval boundary.**  An authorised call has valid lineage, and unless
its action is informational it has the confidence and carries a token that passed
the engine's tests and whose identifier is used from then on. -/
theorem evaluate_validated {e : ResponsePolicyEngine} {c : PolicyCall} (h : Authorised e c) :
    validateProvenance c.tenantId c.assessment c.decisionPlan = true ∧
      (c.requestedAction.Informational ∨
        ∃ tok, c.Confident ∧ c.approvalToken = some tok ∧ TokenAccepted e c tok ∧
          tok.approvalId ∈ (evaluateActionPolicy e c).1.usedApprovalIds) := by
  obtain ⟨himpact, hstatus⟩ := h
  by_cases hprov : validateProvenance c.tenantId c.assessment c.decisionPlan = false
  · simp [evaluateActionPolicy, hprov] at hstatus
  refine ⟨by simpa using hprov, ?_⟩
  by_cases hinfo : c.requestedAction.Informational
  · exact Or.inl hinfo
  refine Or.inr ?_
  by_cases hconf : c.decisionPlan.aiDecisionConfidence < 85 / 100 ∧
      c.requestedAction ≠ .bannerInjected
  · simp [evaluateActionPolicy, hprov, hinfo, hconf] at hstatus
  cases htok : c.approvalToken with
  | none => simp [evaluateActionPolicy, hprov, hinfo, hconf, himpact, htok] at hstatus
  | some tok =>
    by_cases hused : tok.approvalId ∈ e.usedApprovalIds
    · simp [evaluateActionPolicy, hprov, hinfo, hconf, himpact, htok, hused] at hstatus
    by_cases hother : tok.tenantId ≠ c.tenantId ∨ tok.messageId ≠ c.decisionPlan.messageId
    · simp [evaluateActionPolicy, hprov, hinfo, hconf, himpact, htok, hused, hother] at hstatus
    refine ⟨tok, ?_, rfl, ⟨hused, ?_⟩, ?_⟩
    · rwa [not_and_or, not_lt, not_not] at hconf
    · rwa [not_or, not_not, not_not] at hother
    · simp [evaluateActionPolicy, hprov, hinfo, hconf, himpact, htok, hused, hother]

/-! ## Runs of the engine -/

/-- The approval identifiers carried by the authorised calls of a run. -/
def approvalsUsed : ResponsePolicyEngine → List PolicyCall → List Uuid
  | _, [] => []
  | e, c :: cs =>
    (if Authorised e c then (c.approvalToken.map (·.approvalId)).toList else []) ++
      approvalsUsed (evaluateActionPolicy e c).1 cs

/-- The human approval behind a call made after the run `pre`, if the call is
authorised: `fromisoformat` reads the token's expiry. -/
def ApprovalBound (fromisoformat : String → ℚ) (e : ResponsePolicyEngine) (pre : List PolicyCall)
    (c : PolicyCall) : Prop :=
  Authorised (Machine.run evaluateActionPolicy e pre) c →
    ∃ tok, c.approvalToken = some tok ∧
      (tok.tenantId = c.tenantId ∧ tok.messageId = c.assessment.messageId ∧
        tok.messageId = c.decisionPlan.messageId ∧ tok.requestedAction = c.requestedAction) ∧
      (c.now ≤ fromisoformat tok.expiresAt ∧ tok.isUsed = false) ∧
      tok.approvalId ∉ approvalsUsed e pre

/-- The part of the boundary the engine leaves to its callers.  A high-impact
action with valid lineage is not an informational one, and where the confidence
lets it through to the token, a token that passes the engine's own tests names
the requested action, is in date and not used. -/
def FieldsSound (fromisoformat : String → ℚ) (e : ResponsePolicyEngine) (c : PolicyCall) : Prop :=
  c.requestedAction ∈ e.highImpactActions →
    validateProvenance c.tenantId c.assessment c.decisionPlan = true →
      ¬ c.requestedAction.Informational ∧
        ∀ tok, c.Confident → c.approvalToken = some tok → TokenAccepted e c tok →
          tok.requestedAction = c.requestedAction ∧ c.now ≤ fromisoformat tok.expiresAt ∧
            tok.isUsed = false

theorem usedApprovalIds_subset_run (e : ResponsePolicyEngine) (cs : List PolicyCall) :
    e.usedApprovalIds ⊆ (Machine.run evaluateActionPolicy e cs).usedApprovalIds := by
  induction cs generalizing e with
  | nil => exact Finset.Subset.refl _
  | cons c cs ih => exact (evaluate_engine e c).2.trans (ih _)

/-- Every identifier an authorised call carried is in the engine's set. -/
theorem mem_usedApprovalIds_of_approvalsUsed {fromisoformat : String → ℚ}
    {e : ResponsePolicyEngine} {cs : List PolicyCall}
    (h : Machine.Always evaluateActionPolicy (FieldsSound fromisoformat) e cs) {i : Uuid}
    (hi : i ∈ approvalsUsed e cs) :
    i ∈ (Machine.run evaluateActionPolicy e cs).usedApprovalIds := by
  induction cs generalizing e with
  | nil => exact absurd hi List.not_mem_nil
  | cons c cs ih =>
    rcases List.mem_append.1 hi with hi | hi
    · -- the identifier was consumed by the first call, and is never forgotten
      refine usedApprovalIds_subset_run _ cs ?_
      split_ifs at hi with hauth
      · obtain ⟨hprov, hinfo | ⟨tok, -, htok, -, hmem⟩⟩ := evaluate_validated hauth
        · exact absurd hinfo (h.1 hauth.1 hprov).1
        · rw [htok, Option.map_some, Option.toList_some, List.mem_singleton] at hi
          rw [hi]
          exact hmem
      · exact absurd hi List.not_mem_nil
    · exact ih h.2 hi

/-- **Human approval is bound to what was approved.**  Along every run of a
fresh engine whose calls all leave the engine sound fields, each authorised call
carries a token for its tenant, message and action, in date and unused, whose
identifier no earlier authorised call carried. -/
theorem approvalBound_of_fieldsSound (fromisoformat : String → ℚ)
    (highImpactOverride : Option (Finset ActionTaken)) (calls : List PolicyCall)
    (h : Machine.Always evaluateActionPolicy (FieldsSound fromisoformat)
      (ResponsePolicyEngine.init highImpactOverride) calls) :
    ∀ pre c post, calls = pre ++ c :: post →
      ApprovalBound fromisoformat (ResponsePolicyEngine.init highImpactOverride) pre c := by
  rintro pre c post rfl hauth
  obtain ⟨hpre, hc, -⟩ := (Machine.always_append _ _ _).1 h
  obtain ⟨hprov, hrest⟩ := evaluate_validated hauth
  obtain ⟨hinfo, hfields⟩ := hc hauth.1 hprov
  obtain ⟨tok, hconf, htok, hacc, -⟩ := hrest.resolve_left hinfo
  obtain ⟨haction, hexp, hunused⟩ := hfields tok hconf htok hacc
  obtain ⟨hid, htenant, hmessage⟩ := hacc
  refine ⟨tok, htok, ⟨htenant, ?_, hmessage, haction⟩, ⟨hexp, hunused⟩, fun hmem => hid ?_⟩
  · rw [hmessage, (validateProvenance_eq_true hprov).2.2.1]
  · exact mem_usedApprovalIds_of_approvalsUsed hpre hmem

/-! ## A block, approved and not approved -/

/-- The instant a sample token expires, read from its text. -/
def sampleInstant (s : String) : ℚ := if s = "2026-01-01T00:15:00+00:00" then 1767226500 else 0

/-- A token for `action` on message `m-1` of tenant 1, valid for a quarter of an hour. -/
def sampleToken (action : ActionTaken) : HumanApprovalToken where
  approvalId := .ofNat 7
  tenantId := .ofNat 1
  incidentId := .ofNat 2
  messageId := "m-1"
  requestedAction := action
  targetId := "198.51.100.1"
  approverIdentity := "soc_analyst_alice"
  createdAt := "2026-01-01T00:00:00+00:00"
  expiresAt := "2026-01-01T00:15:00+00:00"
  isUsed := false

def sampleAssessment : RiskAssessment := ⟨.ofNat 3, .ofNat 1, "m-1"⟩

def samplePlan : DecisionPlan := ⟨.ofNat 4, .ofNat 3, .ofNat 1, "m-1", 95 / 100⟩

/-- A block of message `m-1`, one minute after the token was written. -/
def sampleBlock (tok : HumanApprovalToken) : PolicyCall :=
  ⟨1767225660, .ofNat 1, sampleAssessment, samplePlan, .blocked, some tok⟩

/-- A block with a token for a block: the run meets the condition, the call is
authorised, and its approval is bound to it. -/
theorem approvalBound_sampleBlock :
    Authorised (ResponsePolicyEngine.init none) (sampleBlock (sampleToken .blocked)) ∧
      ∀ pre c post, [sampleBlock (sampleToken .blocked)] = pre ++ c :: post →
        ApprovalBound sampleInstant (ResponsePolicyEngine.init none) pre c := by
  refine ⟨by decide +kernel, approvalBound_of_fieldsSound sampleInstant none _ ⟨?_, trivial⟩⟩
  intro _ _
  refine ⟨by decide, ?_⟩
  intro tok _ htok _
  cases htok
  decide +kernel

/-- A token for a quarantine authorises a block. -/
theorem approval_for_another_action :
    ¬ ∀ pre c post, [sampleBlock (sampleToken .quarantined)] = pre ++ c :: post →
      ApprovalBound sampleInstant (ResponsePolicyEngine.init none) pre c := by
  intro h
  have hauth : Authorised (ResponsePolicyEngine.init none)
      (sampleBlock (sampleToken .quarantined)) := by decide +kernel
  obtain ⟨tok, htok, ⟨-, -, -, haction⟩, -⟩ := h [] _ [] rfl hauth
  cases htok
  exact absurd haction (by decide)

end ScamOn.Remediation
