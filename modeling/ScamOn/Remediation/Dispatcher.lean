import Mathlib.Logic.Equiv.Basic
import ScamOn.Remediation.PolicyEngine

/-!
# The remediation dispatcher

`RemediationDispatcher.dispatch_remediation` takes a requested action through
the policy engine to an adapter, and files every outcome in an audit repository
under an idempotency key.  A later request with the same key gets the filed
outcome back instead of a second execution, if that outcome was a success.

* `idempotencyKey` is the hash of a canonical text; `canonicalStr_inj` says the
  text determines tenant, incident, target and action, whatever characters the
  target is made of.
* `dispatchRemediation` is one call, with the executions it caused; a
  `Deployment` is any number of dispatchers over one audit repository.
  `dispatch_cases` lists what a call can do.
* `executed_of_notShadowed` is the law along runs: a real request that comes
  back successful was really executed.  It needs that no real request finds a
  dry run's success as the latest record of its key, which `dry_run_stands_in`
  shows to be possible.
-/

namespace ScamOn.Remediation

/-! ## Idempotency keys -/

/-- The text that `generate_idempotency_key` hashes. -/
def canonicalStr (tenantId incidentId : Uuid) (targetType targetId : String) (action : ActionTaken)
    (policyVersion : String) : String :=
  tenantId.str ++ ":" ++ incidentId.str ++ ":" ++ targetType ++ ":" ++ targetId ++ ":" ++
    action.value ++ ":" ++ policyVersion

/-- `generate_idempotency_key`, over the hash function of the standard library. -/
def generateIdempotencyKey (sha256 : String → String) (tenantId incidentId : Uuid)
    (targetType targetId : String) (action : ActionTaken) (policyVersion : String) : String :=
  sha256 (canonicalStr tenantId incidentId targetType targetId action policyVersion)

/-- The target type `dispatch_remediation` gives an action. -/
def targetTypeOf (action : ActionTaken) : String :=
  if action ≠ .blocked then "mailbox" else "network"

/-- The text hashed for a request. -/
def keyText (tenantId incidentId : Uuid) (targetId : String) (action : ActionTaken) : String :=
  canonicalStr tenantId incidentId (targetTypeOf action) targetId action "1.0.0"

/-- The key `dispatch_remediation` computes for a request. -/
def idempotencyKey (sha256 : String → String) (tenantId incidentId : Uuid) (targetId : String)
    (action : ActionTaken) : String :=
  generateIdempotencyKey sha256 tenantId incidentId (targetTypeOf action) targetId action "1.0.0"

theorem colon_notMem_value (a : ActionTaken) : ':' ∉ a.value.toList := by
  cases a <;> decide

theorem ActionTaken.value_injective : Function.Injective ActionTaken.value := by
  intro a b
  cases a <;> cases b <;> decide

theorem length_targetTypeOf (a : ActionTaken) : (targetTypeOf a).toList.length = 7 := by
  cases a <;> decide

/-- **The canonical text determines the request.**  Identifiers and target types
have fixed lengths, and actions hold no colon, so the target is what remains,
colons included. -/
theorem canonicalStr_inj {t t' i i' : Uuid} {x x' : String} {a a' : ActionTaken} {v : String}
    (h : canonicalStr t i (targetTypeOf a) x a v = canonicalStr t' i' (targetTypeOf a') x' a' v) :
    t = t' ∧ i = i' ∧ x = x' ∧ a = a' := by
  have hchars := congrArg String.toList h
  simp only [canonicalStr, String.toList_append, Uuid.toList_str, List.append_assoc] at hchars
  obtain ⟨ht, hrest⟩ := Uuid.chars_append_inj hchars
  obtain ⟨hi, hrest⟩ := Uuid.chars_append_inj (List.append_cancel_left hrest)
  obtain ⟨-, hrest⟩ := List.append_inj (List.append_cancel_left hrest)
    (by rw [length_targetTypeOf, length_targetTypeOf])
  have htail : x.toList ++ (':' :: a.value.toList) = x'.toList ++ (':' :: a'.value.toList) := by
    refine (List.append_left_inj (":".toList ++ v.toList)).1 ?_
    simpa using List.append_cancel_left hrest
  obtain ⟨hx, ha⟩ :=
    Text.append_cons_inj_right (colon_notMem_value a) (colon_notMem_value a') htail
  exact ⟨ht, hi, String.toList_inj.1 hx, ActionTaken.value_injective (String.toList_inj.1 ha)⟩

theorem idempotencyKey_inj {sha256 : String → String} {texts : Set String}
    (hsha : Set.InjOn sha256 texts) {t t' i i' : Uuid} {x x' : String} {a a' : ActionTaken}
    (hmem : keyText t i x a ∈ texts) (hmem' : keyText t' i' x' a' ∈ texts)
    (h : idempotencyKey sha256 t i x a = idempotencyKey sha256 t' i' x' a') :
    t = t' ∧ i = i' ∧ x = x' ∧ a = a' := canonicalStr_inj (hsha hmem hmem' h)

/-! ## Results and the audit repository -/

/-- `RemediationResultDTO`, without its timing field. -/
structure RemediationResult where
  remediationId : Uuid
  tenantId : Uuid
  incidentId : Uuid
  messageId : String
  assessmentId : Uuid
  decisionPlanId : Uuid
  requestedAction : ActionTaken
  approvedAction : ActionTaken
  actionStatus : ActionStatus
  idempotencyKey : String
  executingAdapter : String
  externalReferenceId : Option String
  verificationStatus : String
  auditStatus : String
  siemExportStatus : String
  isDryRun : Bool
  failureReason : Option String
  deriving DecidableEq

/-- The statuses that a later request takes as done: `VERIFIED` and `EXECUTED`. -/
def RemediationResult.Effective (r : RemediationResult) : Prop :=
  r.actionStatus = .verified ∨ r.actionStatus = .executed

instance (r : RemediationResult) : Decidable r.Effective :=
  inferInstanceAs (Decidable (_ ∨ _))

/-- The audit repository: the saved records, the latest first. -/
structure AuditRepository where
  records : List RemediationResult

namespace AuditRepository

/-- `save_remediation_audit`. -/
def save (repo : AuditRepository) (r : RemediationResult) : AuditRepository :=
  ⟨r :: repo.records⟩

/-- `get_remediation_by_idempotency_key`: the latest record of the key.  The
message identifier is not stored, and the tenant is the caller's. -/
def getByIdempotencyKey (repo : AuditRepository) (tenantId : Uuid) (key : String) :
    Option RemediationResult :=
  (repo.records.find? (·.idempotencyKey = key)).map fun r =>
    { r with tenantId := tenantId, messageId := "msg_cached", auditStatus := "COMMITTED" }

/-- What a lookup answers is a saved record of the key, up to the rewritten fields. -/
theorem getByIdempotencyKey_some {repo : AuditRepository} {tenantId : Uuid} {key : String}
    {r : RemediationResult} (h : repo.getByIdempotencyKey tenantId key = some r) :
    ∃ r₀ ∈ repo.records, r₀.idempotencyKey = key ∧ r.actionStatus = r₀.actionStatus ∧
      r.isDryRun = r₀.isDryRun := by
  obtain ⟨r₀, hfind, rfl⟩ := Option.map_eq_some_iff.1 h
  have hkey : r₀.idempotencyKey = key := by simpa using List.find?_some hfind
  exact ⟨r₀, List.mem_of_find?_eq_some hfind, hkey, rfl, rfl⟩

end AuditRepository

/-! ## Dispatching -/

/-- `IRemediationAdapter`: its name and the actions it supports.  What its
`execute_action` and `verify_action` answer is part of each call. -/
structure Adapter where
  adapterName : String
  supportsAction : ActionTaken → Bool

/-- `RemediationDispatcher`. -/
structure RemediationDispatcher where
  policyEngine : ResponsePolicyEngine
  adapters : List Adapter

/-- The arguments of `dispatch_remediation`, with what the environment does
during the call: the fresh identifier, what the selected adapter answers (or the
exception it raises), and whether the SIEM export goes through. -/
structure DispatchCall where
  now : ℚ
  tenantId : Uuid
  incidentId : Uuid
  assessment : RiskAssessment
  decisionPlan : DecisionPlan
  requestedAction : ActionTaken
  targetId : String
  approvalToken : Option HumanApprovalToken
  isDryRun : Bool
  freshId : Uuid
  executeAnswer : Except String (Bool × Option String × Option String)
  verifyAnswer : Except String (Bool × String)
  siemExported : Bool

namespace DispatchCall

/-- The arguments the call hands to the policy engine. -/
def policyCall (c : DispatchCall) : PolicyCall :=
  ⟨c.now, c.tenantId, c.assessment, c.decisionPlan, c.requestedAction, c.approvalToken⟩

/-- The key of the call. -/
def key (sha256 : String → String) (c : DispatchCall) : String :=
  idempotencyKey sha256 c.tenantId c.incidentId c.targetId c.requestedAction

/-- The text that is hashed for it. -/
def keyText (c : DispatchCall) : String :=
  Remediation.keyText c.tenantId c.incidentId c.targetId c.requestedAction

/-- **The keys separate requests**: the key of a call is the hash of its text, and the texts of two
calls differ exactly if they name different tenants, incidents, targets or actions. -/
theorem keyText_ne_iff (c c' : DispatchCall) :
    (∀ sha256, c.key sha256 = sha256 c.keyText) ∧
      (c.keyText ≠ c'.keyText ↔
        c.tenantId ≠ c'.tenantId ∨ c.incidentId ≠ c'.incidentId ∨ c.targetId ≠ c'.targetId ∨
          c.requestedAction ≠ c'.requestedAction) := by
  refine ⟨fun sha256 => rfl, ?_⟩
  constructor
  · intro hne
    by_contra hsame
    simp only [ne_eq, not_or, not_not] at hsame
    obtain ⟨ht, hi, htarget, hact⟩ := hsame
    exact hne (by rw [keyText, keyText, ht, hi, htarget, hact])
  · intro hdiffer heq
    obtain ⟨ht, hi, htarget, hact⟩ := canonicalStr_inj heq
    rcases hdiffer with hne | hne | hne | hne
    · exact hne ht
    · exact hne hi
    · exact hne htarget
    · exact hne hact

/-- What `export_siem_event` answers. -/
def siemStatus (c : DispatchCall) : String :=
  if c.siemExported then "SIEM_EXPORTED" else "SIEM_EXPORT_FAILED"

/-- The result in its `REQUESTED` state. -/
def requested (key : String) (c : DispatchCall) : RemediationResult where
  remediationId := c.freshId
  tenantId := c.tenantId
  incidentId := c.incidentId
  messageId := c.assessment.messageId
  assessmentId := c.assessment.assessmentId
  decisionPlanId := c.decisionPlan.planId
  requestedAction := c.requestedAction
  approvedAction := c.requestedAction
  actionStatus := .requested
  idempotencyKey := key
  executingAdapter := "None"
  externalReferenceId := none
  verificationStatus := "PENDING"
  auditStatus := "PENDING"
  siemExportStatus := "NOT_ATTEMPTED"
  isDryRun := c.isDryRun
  failureReason := none

end DispatchCall

/-- An invocation of an adapter's `execute_action`, and whether it reported success. -/
structure Execution where
  tenantId : Uuid
  incidentId : Uuid
  targetId : String
  requestedAction : ActionTaken
  isDryRun : Bool
  adapter : Adapter
  success : Bool

/-- What a call leaves behind. -/
structure DispatchOutcome where
  dispatcher : RemediationDispatcher
  auditRepo : AuditRepository
  executions : List Execution
  result : Except String RemediationResult

/-- File a result and return it. -/
def commit (d : RemediationDispatcher) (repo : AuditRepository) (xs : List Execution)
    (r : RemediationResult) : DispatchOutcome :=
  ⟨d, repo.save r, xs, .ok r⟩

/-- Stages 6 to 9 of `dispatch_remediation`: execute, verify, export, file.  An
exception from the adapter leaves the call before anything is filed. -/
def executeAndVerify (d : RemediationDispatcher) (repo : AuditRepository) (c : DispatchCall)
    (dto : RemediationResult) (a : Adapter) : DispatchOutcome :=
  let dto := { dto with executingAdapter := a.adapterName, actionStatus := .dispatching }
  let execution : Bool → Execution := fun success =>
    ⟨c.tenantId, c.incidentId, c.targetId, c.requestedAction, c.isDryRun, a, success⟩
  match c.executeAnswer with
  | .error exc => ⟨d, repo, [execution false], .error exc⟩
  | .ok (false, _, errMsg) =>
    let reason := match errMsg with
      | some msg => if msg = "" then "ADAPTER_EXECUTION_FAILED" else msg
      | none => "ADAPTER_EXECUTION_FAILED"
    commit d repo [execution false] { dto with actionStatus := .failed, failureReason := some reason }
  | .ok (true, refId, _) =>
    match c.verifyAnswer with
    | .error exc => ⟨d, repo, [execution true], .error exc⟩
    | .ok (true, verMsg) =>
      commit d repo [execution true]
        { dto with
          actionStatus := .verified
          externalReferenceId := refId
          verificationStatus := verMsg
          siemExportStatus := c.siemStatus }
    | .ok (false, verMsg) =>
      commit d repo [execution true]
        { dto with
          actionStatus := .failed
          externalReferenceId := refId
          verificationStatus := "VERIFICATION_FAILED"
          failureReason := some verMsg
          siemExportStatus := c.siemStatus }

/-- Stages 3 to 9: what happens to a request that no earlier success answers. -/
def dispatchFresh (d : RemediationDispatcher) (repo : AuditRepository) (key : String)
    (c : DispatchCall) : DispatchOutcome :=
  let evaluated := evaluateActionPolicy d.policyEngine c.policyCall
  let d := { d with policyEngine := evaluated.1 }
  let decision := evaluated.2
  let dto := { c.requested key with
    actionStatus := decision.status, approvedAction := decision.action }
  if decision.status = .rejected ∨ decision.status = .failedPermanently ∨
      decision.status = .pendingApproval then
    commit d repo [] { dto with failureReason := decision.reason }
  else if c.isDryRun then
    commit d repo []
      { dto with
        actionStatus := .verified
        executingAdapter := "DryRunAdapter"
        externalReferenceId := some ("dry_run_" ++ String.ofList (key.toList.take 8))
        verificationStatus := "DRY_RUN_SIMULATED"
        siemExportStatus := c.siemStatus }
  else
    match d.adapters.find? (·.supportsAction decision.action) with
    | none =>
      commit d repo []
        { dto with
          actionStatus := .failedPermanently
          failureReason := some ("NO_ADAPTER_FOR_ACTION_" ++ decision.action.value) }
    | some a => executeAndVerify d repo c dto a

/-- `dispatch_remediation`. -/
def dispatchRemediation (sha256 : String → String) (d : RemediationDispatcher)
    (repo : AuditRepository) (c : DispatchCall) : DispatchOutcome :=
  match repo.getByIdempotencyKey c.tenantId (c.key sha256) with
  | some cached =>
    if cached.Effective then ⟨d, repo, [], .ok cached⟩
    else dispatchFresh d repo (c.key sha256) c
  | none => dispatchFresh d repo (c.key sha256) c

/-! ## What one call does -/

/-- `x` is a successful real execution of the action `c` asks for, by an adapter
that supports it. -/
def Execution.Realises (x : Execution) (c : DispatchCall) : Prop :=
  x.isDryRun = false ∧ x.tenantId = c.tenantId ∧ x.incidentId = c.incidentId ∧
    x.targetId = c.targetId ∧ x.requestedAction = c.requestedAction ∧
    x.adapter.supportsAction c.requestedAction = true ∧ x.success = true

/-- The call filed and returned `r`: under its own key, with its own dry-run
flag, and, when the call is real and `r` a success, after a successful execution. -/
def DispatchOutcome.Files (o : DispatchOutcome) (repo : AuditRepository) (key : String)
    (c : DispatchCall) (r : RemediationResult) : Prop :=
  o.auditRepo = repo.save r ∧ o.result = .ok r ∧ r.idempotencyKey = key ∧
    r.isDryRun = c.isDryRun ∧
    (c.isDryRun = false → r.Effective → ∃ x ∈ o.executions, x.Realises c)

theorem executeAndVerify_cases (d : RemediationDispatcher) (repo : AuditRepository)
    (c : DispatchCall) {key : String} {dto : RemediationResult} {a : Adapter}
    (hkey : dto.idempotencyKey = key) (hdry : dto.isDryRun = c.isDryRun)
    (ha : a.supportsAction c.requestedAction = true) :
    (∃ exc, (executeAndVerify d repo c dto a).auditRepo = repo ∧
      (executeAndVerify d repo c dto a).result = .error exc) ∨
    ∃ r, (executeAndVerify d repo c dto a).Files repo key c r := by
  unfold executeAndVerify
  rcases c.executeAnswer with exc | ⟨_ | _, refId, errMsg⟩
  · exact Or.inl ⟨exc, rfl, rfl⟩
  · refine Or.inr ⟨_, rfl, rfl, hkey, hdry, ?_⟩
    rintro - (h | h) <;> cases h
  · rcases c.verifyAnswer with exc | ⟨_ | _, verMsg⟩
    · exact Or.inl ⟨exc, rfl, rfl⟩
    · refine Or.inr ⟨_, rfl, rfl, hkey, hdry, ?_⟩
      rintro - (h | h) <;> cases h
    · refine Or.inr ⟨_, rfl, rfl, hkey, hdry, ?_⟩
      intro hreal _
      exact ⟨_, List.mem_singleton_self _, hreal, rfl, rfl, rfl, rfl, ha, rfl⟩

theorem dispatchFresh_cases (d : RemediationDispatcher) (repo : AuditRepository) (key : String)
    (c : DispatchCall) :
    (∃ exc, (dispatchFresh d repo key c).auditRepo = repo ∧
      (dispatchFresh d repo key c).result = .error exc) ∨
    ∃ r, (dispatchFresh d repo key c).Files repo key c r := by
  unfold dispatchFresh
  have haction := evaluate_action d.policyEngine c.policyCall
  generalize evaluateActionPolicy d.policyEngine c.policyCall = evaluated at haction ⊢
  obtain ⟨e, decision⟩ := evaluated
  simp only at haction ⊢
  split_ifs with hstop hdry
  · refine Or.inr ⟨_, rfl, rfl, rfl, rfl, ?_⟩
    rintro - (h | h)
    · rcases hstop with h' | h' | h' <;> exact absurd (h'.symm.trans h) (by decide)
    · rcases hstop with h' | h' | h' <;> exact absurd (h'.symm.trans h) (by decide)
  · refine Or.inr ⟨_, rfl, rfl, rfl, rfl, ?_⟩
    intro hreal
    rw [hdry] at hreal
    cases hreal
  · cases hfind : d.adapters.find? (·.supportsAction decision.action) with
    | none =>
      refine Or.inr ⟨_, rfl, rfl, rfl, rfl, ?_⟩
      rintro - (h | h) <;> cases h
    | some a =>
      have ha : a.supportsAction decision.action = true := by simpa using List.find?_some hfind
      rw [haction] at ha
      exact executeAndVerify_cases _ repo c rfl rfl ha

/-- **What a call can do.**  It returns the latest success of its key and changes
nothing, or it raises and files nothing, or it files and returns a new result. -/
theorem dispatch_cases (sha256 : String → String) (d : RemediationDispatcher)
    (repo : AuditRepository) (c : DispatchCall) :
    (∃ r, repo.getByIdempotencyKey c.tenantId (c.key sha256) = some r ∧ r.Effective ∧
      dispatchRemediation sha256 d repo c = ⟨d, repo, [], .ok r⟩) ∨
    (∃ exc, (dispatchRemediation sha256 d repo c).auditRepo = repo ∧
      (dispatchRemediation sha256 d repo c).result = .error exc) ∨
    ∃ r, (dispatchRemediation sha256 d repo c).Files repo (c.key sha256) c r := by
  unfold dispatchRemediation
  cases hget : repo.getByIdempotencyKey c.tenantId (c.key sha256) with
  | none => exact Or.inr (dispatchFresh_cases d repo _ c)
  | some cached =>
    by_cases heff : cached.Effective
    · exact Or.inl ⟨cached, rfl, heff, by simp [heff]⟩
    · simp only [if_neg heff]
      exact Or.inr (dispatchFresh_cases d repo _ c)

/-! ## Many dispatchers, one audit repository -/

section Deployment

variable {ι : Type} [DecidableEq ι]

/-- Dispatchers that share an audit repository, and the executions so far. -/
structure Deployment (ι : Type) where
  dispatchers : ι → RemediationDispatcher
  auditRepo : AuditRepository
  executions : List Execution

/-- The deployment before its first call. -/
def Deployment.init (dispatchers : ι → RemediationDispatcher) : Deployment ι :=
  ⟨dispatchers, ⟨[]⟩, []⟩

/-- A call of one of the dispatchers. -/
def Deployment.step (sha256 : String → String) (w : Deployment ι) (call : ι × DispatchCall) :
    Deployment ι × Except String RemediationResult :=
  let o := dispatchRemediation sha256 (w.dispatchers call.1) w.auditRepo call.2
  (⟨Function.update w.dispatchers call.1 o.dispatcher, o.auditRepo, w.executions ++ o.executions⟩,
    o.result)

/-- If the call is real and comes back successful, for an action that an adapter
of the dispatcher supports, then a real call for the same tenant, incident,
target and action has executed it successfully by now. -/
def ReallyExecuted (sha256 : String → String) (w : Deployment ι) (call : ι × DispatchCall) : Prop :=
  call.2.isDryRun = false → ∀ r, (w.step sha256 call).2 = .ok r → r.Effective →
    (∃ a ∈ (w.dispatchers call.1).adapters, a.supportsAction call.2.requestedAction = true) →
    ∃ x ∈ (w.step sha256 call).1.executions, x.Realises call.2

/-- A real call does not find a dry run's success as the latest record of its key. -/
def NotShadowed (sha256 : String → String) (w : Deployment ι) (call : ι × DispatchCall) : Prop :=
  call.2.isDryRun = false →
    ∀ r, w.auditRepo.getByIdempotencyKey call.2.tenantId (call.2.key sha256) = some r →
      r.Effective → r.isDryRun = false

/-- The execution is a real success under this key, for one of the texts. -/
def Execution.Backs (sha256 : String → String) (texts : Set String) (x : Execution) (key : String) :
    Prop :=
  x.isDryRun = false ∧ x.success = true ∧ x.adapter.supportsAction x.requestedAction = true ∧
    keyText x.tenantId x.incidentId x.targetId x.requestedAction ∈ texts ∧
    key = idempotencyKey sha256 x.tenantId x.incidentId x.targetId x.requestedAction

/-- Every real success on file stems from an execution under its key. -/
def Deployment.Backed (sha256 : String → String) (texts : Set String) (w : Deployment ι) : Prop :=
  ∀ r ∈ w.auditRepo.records, r.Effective → r.isDryRun = false →
    ∃ x ∈ w.executions, x.Backs sha256 texts r.idempotencyKey

variable {sha256 : String → String} {texts : Set String}

omit [DecidableEq ι] in
theorem backed_init (dispatchers : ι → RemediationDispatcher) :
    (Deployment.init dispatchers).Backed sha256 texts :=
  fun _ hr => absurd hr List.not_mem_nil

theorem backed_step (w : Deployment ι) (call : ι × DispatchCall) (hw : w.Backed sha256 texts)
    (htext : call.2.keyText ∈ texts) : (w.step sha256 call).1.Backed sha256 texts := by
  have hold : ∀ r ∈ w.auditRepo.records, r.Effective → r.isDryRun = false →
      ∃ x ∈ (w.step sha256 call).1.executions, x.Backs sha256 texts r.idempotencyKey := by
    intro r hr heff hreal
    obtain ⟨x, hx, hbacks⟩ := hw r hr heff hreal
    exact ⟨x, List.mem_append_left _ hx, hbacks⟩
  intro r hr heff hreal
  rcases dispatch_cases sha256 (w.dispatchers call.1) w.auditRepo call.2 with
    ⟨r', -, -, ho⟩ | ⟨exc, hrepo, -⟩ | ⟨r', hrepo, -, hkey, hdry, hexec⟩
  · rw [Deployment.step, ho] at hr
    exact hold r hr heff hreal
  · rw [Deployment.step, hrepo] at hr
    exact hold r hr heff hreal
  · rw [Deployment.step, hrepo] at hr
    rcases List.mem_cons.1 hr with rfl | hr
    · obtain ⟨x, hx, hxdry, ht, hi, htarget, hact, hsup, hsucc⟩ :=
        hexec (by rw [← hdry, hreal]) heff
      refine ⟨x, List.mem_append_right _ hx, hxdry, hsucc, by rw [hact]; exact hsup, ?_, ?_⟩
      · rw [ht, hi, htarget, hact]
        exact htext
      · rw [hkey, DispatchCall.key, ht, hi, htarget, hact]
    · exact hold r hr heff hreal

theorem reallyExecuted_step (hsha : Set.InjOn sha256 texts) (w : Deployment ι)
    (call : ι × DispatchCall) (hw : w.Backed sha256 texts) (htext : call.2.keyText ∈ texts)
    (hns : NotShadowed sha256 w call) : ReallyExecuted sha256 w call := by
  intro hreal r hres heff _
  rcases dispatch_cases sha256 (w.dispatchers call.1) w.auditRepo call.2 with
    ⟨r', hget, heff', ho⟩ | ⟨exc, -, herr⟩ | ⟨r', -, hok, -, -, hexec⟩
  · -- a cached success is a real one, so an execution under the same key backs it
    have hrr : r' = r := by
      rw [Deployment.step, ho] at hres
      exact Except.ok.inj hres
    subst hrr
    have hcached : r'.isDryRun = false := hns hreal r' hget heff'
    obtain ⟨r₀, hr₀, hkey, hstatus, hdry⟩ := AuditRepository.getByIdempotencyKey_some hget
    have heff₀ : r₀.Effective := by
      rw [RemediationResult.Effective, ← hstatus]
      exact heff'
    obtain ⟨x, hx, hxdry, hsucc, hsup, hxtext, hxkey⟩ := hw r₀ hr₀ heff₀ (by rw [← hdry, hcached])
    have hsame : call.2.key sha256 =
        idempotencyKey sha256 x.tenantId x.incidentId x.targetId x.requestedAction := by
      rw [← hkey, hxkey]
    obtain ⟨ht, hi, htarget, hact⟩ := idempotencyKey_inj hsha htext hxtext hsame
    refine ⟨x, List.mem_append_left _ hx, hxdry, ht.symm, hi.symm, htarget.symm, hact.symm, ?_,
      hsucc⟩
    rw [hact]
    exact hsup
  · rw [Deployment.step, herr] at hres
    cases hres
  · have hrr : r' = r := by
      rw [Deployment.step, hok] at hres
      exact Except.ok.inj hres
    subst hrr
    obtain ⟨x, hx, hreal'⟩ := hexec hreal heff
    exact ⟨x, List.mem_append_right _ hx, hreal'⟩

/-- **A real success was really executed.**  In every run over one audit
repository in which no real call finds a dry run's success under its key, each
real call that comes back successful stands for a successful real execution,
provided the hash tells the texts of the run apart. -/
theorem executed_of_notShadowed (dispatchers : ι → RemediationDispatcher)
    (calls : List (ι × DispatchCall))
    (hsha : Set.InjOn sha256 {text | ∃ call ∈ calls, call.2.keyText = text})
    (h : Machine.Always (Deployment.step sha256) (NotShadowed sha256)
      (Deployment.init dispatchers) calls) :
    Machine.Always (Deployment.step sha256) (ReallyExecuted sha256)
      (Deployment.init dispatchers) calls := by
  have h' := h.and_of_mem (Q := fun call => ∃ c ∈ calls, c.2.keyText = call.2.keyText)
    fun call hcall => ⟨call, hcall, rfl⟩
  exact Machine.always_of_inv (fun w call hw hC => backed_step w call hw hC.2)
    (fun w call hw hC => reallyExecuted_step hsha w call hw hC.2 hC.1) (backed_init dispatchers) h'

end Deployment

/-! ## A dry run and the real run it hides -/

/-- The mailbox adapter's actions. -/
def sampleAdapter : Adapter where
  adapterName := "EmailMailboxAdapter"
  supportsAction := fun a => a = .quarantined ∨ a = .retracted ∨ a = .bannerInjected ∨ a = .blocked

def sampleDispatcher : RemediationDispatcher := ⟨.init none, [sampleAdapter]⟩

/-- A quarantine of message `m-1`, which the adapter would carry out. -/
def sampleQuarantine (isDryRun : Bool) : DispatchCall where
  now := 1767225660
  tenantId := .ofNat 1
  incidentId := .ofNat 2
  assessment := sampleAssessment
  decisionPlan := samplePlan
  requestedAction := .quarantined
  targetId := "user@corp.local"
  approvalToken := none
  isDryRun := isDryRun
  freshId := .ofNat 9
  executeAnswer := .ok (true, some "m365_quarantined_00000001", none)
  verifyAnswer := .ok (true, "VERIFIED_MAILBOX_SUCCESS")
  siemExported := true

/-- A collision-free function that hashes the sample's canonical text as SHA-256
does. -/
def sampleSha256 : String → String :=
  Equiv.swap
    ("00000000-0000-0000-0000-000000000001:00000000-0000-0000-0000-000000000002:" ++
      "mailbox:user@corp.local:QUARANTINED:1.0.0")
    "f3bb8817620a5056f3eee5898e24113e740887e2ef384787acdb813abfdeab65"

/-- Two real quarantines meet the condition: the first is executed, the second
gets its record. -/
theorem executed_sampleQuarantine :
    Machine.Always (Deployment.step sampleSha256) (ReallyExecuted sampleSha256)
      (Deployment.init fun _ : Unit => sampleDispatcher)
      [((), sampleQuarantine false), ((), sampleQuarantine false)] := by
  refine executed_of_notShadowed _ _ (Equiv.injective _).injOn ⟨?_, ?_, trivial⟩
  · intro _ r hget
    cases hget
  · set w := ((Deployment.init fun _ : Unit => sampleDispatcher).step sampleSha256
      ((), sampleQuarantine false)).1 with hw
    have hfiled : (w.auditRepo.getByIdempotencyKey (.ofNat 1)
        ((sampleQuarantine false).key sampleSha256)).map (·.isDryRun) = some false := by
      rw [hw]; decide +kernel
    intro _ r hget _
    have hr : w.auditRepo.getByIdempotencyKey (.ofNat 1)
        ((sampleQuarantine false).key sampleSha256) = some r := hget
    rw [hr] at hfiled
    exact Option.some.inj hfiled

/-- After a dry run, the real request comes back `VERIFIED` and no adapter was
ever called. -/
theorem dry_run_stands_in :
    ¬ Machine.Always (Deployment.step sampleSha256) (ReallyExecuted sampleSha256)
      (Deployment.init fun _ : Unit => sampleDispatcher)
      [((), sampleQuarantine true), ((), sampleQuarantine false)] := by
  rintro ⟨-, h, -⟩
  set w := ((Deployment.init fun _ : Unit => sampleDispatcher).step sampleSha256
    ((), sampleQuarantine true)).1 with hw
  have hstatus : (w.step sampleSha256 ((), sampleQuarantine false)).2.toOption.map
      (·.actionStatus) = some .verified := by rw [hw]; decide +kernel
  have hnone : (w.step sampleSha256 ((), sampleQuarantine false)).1.executions.isEmpty = true := by
    rw [hw]; decide +kernel
  have hsup : (w.dispatchers ()).adapters.any (·.supportsAction .quarantined) = true := by
    rw [hw]; decide +kernel
  cases hres : (w.step sampleSha256 ((), sampleQuarantine false)).2 with
  | error exc =>
    rw [hres] at hstatus
    cases hstatus
  | ok r =>
    rw [hres] at hstatus
    obtain ⟨x, hx, -⟩ := h rfl r hres (Or.inl (Option.some.inj hstatus)) (List.any_eq_true.1 hsup)
    rw [List.isEmpty_iff.1 hnone] at hx
    exact absurd hx List.not_mem_nil

end ScamOn.Remediation
