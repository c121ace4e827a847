import ScamOn.Lib.Loop
import ScamOn.Lib.Text
import ScamOn.Planner.Sort

/-!
# The plan executor

`PlannerOrchestrator.execute_plan` runs the steps of a plan one after the other.  A step is
cancelled if the caller asks for it or a dependency failed, skipped if a condition is not
met, and otherwise handed to its tool, with retries; what came of it goes into a record and
into the agent state.

* `executePlan` is the run, with what it has done so far in a `Run`, exceptions and all.
  What tools answer and when the caller cancels is the `Environment`.
* `retryTurn` is one turn of the loop of retries; the loop has no bound of its own, so a run
  is given fuel, and is `running` if it needs more.
* `retryLoop_eq_ok_iff` says how the loop ends, `Executed` what comes of a step that is
  handed to its tool.
* `Effect` lists what the loop over the steps does with one of them, and `exists_gets_iff`
  says that it does one of these exactly if the step is in order, `StepOk`.
-/

namespace ScamOn.Planner

/-! ## Records and results -/

/-- `StepExecutionStatus`. -/
inductive StepExecutionStatus
  | pending | running | completed | failed | skipped | cancelled | retrying
  deriving DecidableEq, Repr

/-- `StepExecutionRecord`, without its times. -/
structure StepExecutionRecord where
  stepId : String
  toolName : String
  status : StepExecutionStatus
  errorMessage : Option String
  retryCount : ℕ
  estimatedCost : PyNumber
  estimatedValue : PyNumber
  deriving DecidableEq

/-- `OrchestrationSummary`, without its time. -/
structure OrchestrationSummary where
  totalSteps : ℕ
  executedSteps : ℕ
  completedSteps : ℕ
  failedSteps : ℕ
  skippedSteps : ℕ
  cancelledSteps : ℕ
  records : List StepExecutionRecord
  deriving DecidableEq

/-- `OrchestrationResult`. -/
structure OrchestrationResult where
  state : AgentState
  summary : OrchestrationSummary
  success : Bool

/-- `PlannerOrchestrator`: the tools, and the conditions by name. -/
structure PlannerOrchestrator where
  registry : ToolRegistry
  conditionEvaluators : Dict String (AgentState → Except PyException Bool)

/-- `register_condition`. -/
def PlannerOrchestrator.registerCondition (orch : PlannerOrchestrator) (name : String)
    (evaluator : AgentState → Except PyException Bool) : PlannerOrchestrator :=
  { orch with conditionEvaluators := orch.conditionEvaluators.set name evaluator }

/-- What happens around a run: what a call of a step's tool answers, by the number of the
calls before it, a result or the text of an exception; whether `time.sleep` returns, by the
number of the retries before it; what the caller answers when it is asked about cancellation, by
the number of the times it was asked; and the texts that pydantic and `repr` make. -/
structure Environment where
  attempt : String → ℕ → Except String ToolResult
  sleep : String → ℕ → PyNumber → Except PyException Unit
  cancelRequested : Option (ℕ → Bool)
  report : ValidationReport
  reprTuple : List String → String

/-- Why a run has no result: an exception left it, or it is still running. -/
inductive Stop
  | raised (e : PyException)
  | running
  deriving DecidableEq

/-! ## Conditions -/

section Conditions

variable (lower : String → String) (state : AgentState)

/-- `_eval_has_urls`. -/
def evalHasUrls : Except PyException Bool :=
  match state.parsedEmail with
  | none => .ok false
  | some email =>
    if Text.contains email.bodyText "http://" || Text.contains email.bodyText "https://" then .ok true
    else
      match state.toolResults.get? "url_tool" with
      | none => .ok false
      | some result =>
        ((result.metadata.get? "total_urls_extracted").getD (.int 0)).greaterThanZero

/-- `_eval_has_attachments`. -/
def evalHasAttachments : Bool :=
  match state.parsedEmail with
  | none => false
  | some email => !email.attachments.isEmpty

/-- `_eval_has_image_attachments`. -/
def evalHasImageAttachments : Bool :=
  match state.parsedEmail with
  | none => false
  | some email =>
    email.attachments.any fun a =>
      "image/".toList.isPrefixOf (lower a.contentType).toList ||
        [".png", ".jpg", ".jpeg", ".gif", ".bmp", ".tiff", ".webp"].any fun suffix =>
          suffix.toList.isSuffixOf (lower a.filename).toList

/-- `_eval_spf_failed`. -/
def evalSpfFailed : Bool :=
  state.evidence.any fun ev =>
    (Text.contains (lower ev.category) "spf" || Text.contains (lower ev.title) "spf") &&
      (ev.severity = .high || ev.severity = .critical || Text.contains (lower ev.description) "fail")

/-- `_eval_suspicious_sender`. -/
def evalSuspiciousSender : Bool :=
  state.evidence.any fun ev =>
    (Text.contains (lower ev.category) "sender" || Text.contains (lower ev.category) "domain") &&
      (ev.severity = .medium || ev.severity = .high || ev.severity = .critical)

end Conditions

/-- The constructor of the orchestrator, with the conditions it knows. -/
def PlannerOrchestrator.create (lower : String → String) (registry : ToolRegistry) :
    PlannerOrchestrator where
  registry := registry
  conditionEvaluators :=
    (((((Dict.set ∅ "has_urls" evalHasUrls).set "has_attachments" fun s =>
        .ok (evalHasAttachments s)).set "has_image_attachments" fun s =>
        .ok (evalHasImageAttachments lower s)).set "spf_failed" fun s =>
        .ok (evalSpfFailed lower s)).set "suspicious_sender" fun s =>
        .ok (evalSuspiciousSender lower s)).set "always_true" fun _ => .ok true

/-- The conditions of a step, up to the first that is not met or has no evaluator. -/
def conditionsMet (orch : PlannerOrchestrator) (state : AgentState) :
    List String → Except PyException Bool
  | [] => .ok true
  | cond :: rest =>
    match orch.conditionEvaluators.get? cond with
    | none => .ok false
    | some evaluator =>
      match evaluator state with
      | .error e => .error e
      | .ok false => .ok false
      | .ok true => conditionsMet orch state rest

/-! ## Retries -/

/-- `retry_config.get("max_retries", 0)`. -/
def ExecutionStep.maxRetries (step : ExecutionStep) : PyValue :=
  (step.retryPolicy.get? "max_retries").getD (.int 0)

/-- `retry_config.get("delay", 0.0)`. -/
def ExecutionStep.delay (step : ExecutionStep) : PyValue :=
  (step.retryPolicy.get? "delay").getD (.float (.finite 0))

/-- The result of an answer that completed. -/
def completion : Except String ToolResult → Option ToolResult
  | .ok result => if result.status = .completed then some result else none
  | .error _ => none

/-- The text that is kept of an answer that did not. -/
def failureText : Except String ToolResult → String
  | .ok result =>
    match result.error with
    | some error => error.message
    | none => "Execution failed."
  | .error text => text

/-- `if delay > 0: time.sleep(delay)`. -/
def pause (sleep : PyNumber → Except PyException Unit) (delay : PyValue) :
    Except PyException Unit :=
  match delay.greaterThanZero with
  | .error e => .error e
  | .ok false => .ok ()
  | .ok true => delay.number?.elim (.ok ()) sleep

/-- How the attempts of a step end: with a result, or with the text of the last failure. -/
inductive Attempts
  | completed (result : ToolResult)
  | exhausted (lastError : String)

/-- One turn of the loop, with the number of retries before it: nothing if there is another
turn, else the number of calls and how they end. -/
def retryTurn (attempt : ℕ → Except String ToolResult)
    (sleep : ℕ → PyNumber → Except PyException Unit) (maxRetries delay : PyValue)
    (retryCount : ℕ) : Option (ℕ × Except Stop Attempts) :=
  match completion (attempt retryCount) with
  | some result => some (retryCount + 1, .ok (.completed result))
  | none =>
    match maxRetries.lessThan retryCount with
    | .error e => some (retryCount + 1, .error (.raised e))
    | .ok false => some (retryCount + 1, .ok (.exhausted (failureText (attempt retryCount))))
    | .ok true =>
      match pause (sleep retryCount) delay with
      | .error e => some (retryCount + 1, .error (.raised e))
      | .ok () => none

/-- The loop of retries. -/
def retryLoop (attempt : ℕ → Except String ToolResult)
    (sleep : ℕ → PyNumber → Except PyException Unit) (maxRetries delay : PyValue) (fuel : ℕ) :
    ℕ × Except Stop Attempts :=
  (Loop.repeatUntil (retryTurn attempt sleep maxRetries delay) fuel 0).getD (fuel, .error .running)

/-- A record of a step. -/
def ExecutionStep.record (step : ExecutionStep) (status : StepExecutionStatus)
    (errorMessage : Option String) (retryCount : ℕ) : StepExecutionRecord :=
  ⟨step.stepId, step.tool, status, errorMessage, retryCount, step.estimatedCost, step.estimatedValue⟩

/-- `_execute_step_with_retries`, with the number of calls of the tool. -/
def executeStepWithRetries (orch : PlannerOrchestrator) (env : Environment) (fuel : ℕ)
    (step : ExecutionStep) : ℕ × Except Stop (StepExecutionRecord × Option ToolResult) :=
  match orch.registry.get step.tool with
  | .error _ =>
    (0, .ok (step.record .failed (some ("Tool '" ++ step.tool ++ "' not found in registry.")) 0, none))
  | .ok _ =>
    match retryLoop (env.attempt step.stepId) (env.sleep step.stepId) step.maxRetries step.delay
        fuel with
    | (calls, .error stop) => (calls, .error stop)
    | (calls, .ok (.completed result)) =>
      (calls, .ok (step.record .completed none (calls - 1), some result))
    | (calls, .ok (.exhausted lastError)) =>
      (calls, .ok (step.record .failed (some lastError) (calls - 1), none))

/-! ## The loop over the steps -/

/-- What a run has done so far.  `calls` has an entry for each call of a tool. -/
structure Run where
  state : AgentState
  records : List StepExecutionRecord
  statusMap : Dict String StepExecutionStatus
  calls : List String

/-- The run after a step. -/
def Run.note (run : Run) (record : StepExecutionRecord) : Run :=
  { run with
    records := run.records ++ [record]
    statusMap := run.statusMap.set record.stepId record.status }

/-- The status that is looked up for a dependency: of the step of that identifier, else of
the first one of that tool. -/
def depStatus (sorted : List ExecutionStep) (statusMap : Dict String StepExecutionStatus)
    (dep : String) : Option StepExecutionStatus :=
  match statusMap.get? dep with
  | some status => some status
  | none => (sorted.find? (·.tool = dep)).bind fun other => statusMap.get? other.stepId

/-- Some dependency of a step failed or was cancelled. -/
def depFailed (sorted : List ExecutionStep) (statusMap : Dict String StepExecutionStatus)
    (step : ExecutionStep) : Bool :=
  step.dependencies.any fun dep =>
    depStatus sorted statusMap dep = some .failed || depStatus sorted statusMap dep = some .cancelled

/-- `error_message or "Tool execution failed."`. -/
def failureMessage (record : StepExecutionRecord) : String :=
  match record.errorMessage with
  | some text => if text = "" then "Tool execution failed." else text
  | none => "Tool execution failed."

theorem fits_propagationError : Fits 1 128 "propagation_error" := by decide

theorem fits_toolExecutionFailed : Fits 1 128 "tool_execution_failed" := by decide

/-- What an executed step does to the agent state. -/
def propagate (report : ValidationReport) (state : AgentState) (step : ExecutionStep)
    (record : StepExecutionRecord) (toolResult : Option ToolResult) :
    Except PyException AgentState :=
  match record.status with
  | .completed =>
    let updated : Except PyException AgentState :=
      match toolResult with
      | none => .error ⟨"RuntimeError", "Completed tool step did not return an execution result."⟩
      | some result =>
        state.withToolResult report result
          [("requested_tool", .str step.tool), ("step_id", .str step.stepId)]
    match updated with
    | .ok state' => .ok state'
    | .error e =>
      (ToolErrorInfo.create report "propagation_error" e.text [] fits_propagationError).map
        state.withError
  | .failed =>
    (ToolErrorInfo.create report "tool_execution_failed" (failureMessage record)
      [("tool_name", .str step.tool), ("step_id", .str step.stepId)]
      fits_toolExecutionFailed).map state.withError
  | _ => .ok state

/-- Whether the caller cancels the next step. -/
def cancelled (env : Environment) (run : Run) : Bool :=
  match env.cancelRequested with
  | some requested => requested run.records.length
  | none => false

/-- The loop's body: one step. -/
def stepBody (orch : PlannerOrchestrator) (env : Environment) (sorted : List ExecutionStep)
    (fuel : ℕ) (run : Run) (step : ExecutionStep) : Run × Except Stop Unit :=
  if cancelled env run then
    (run.note (step.record .cancelled (some "Execution cancelled by caller.") 0), .ok ())
  else if depFailed sorted run.statusMap step then
    (run.note (step.record .cancelled (some "Dependent step failed or cancelled.") 0), .ok ())
  else
    match conditionsMet orch run.state step.conditions with
    | .error e => (run, .error (.raised e))
    | .ok false =>
      (run.note (step.record .skipped
        (some ("Conditions not met: " ++ env.reprTuple step.conditions)) 0), .ok ())
    | .ok true =>
      let executed := executeStepWithRetries orch env fuel step
      let run := { run with calls := run.calls ++ List.replicate executed.1 step.stepId }
      match executed.2 with
      | .error stop => (run, .error stop)
      | .ok (record, toolResult) =>
        let run := run.note record
        match propagate env.report run.state step record toolResult with
        | .error e => (run, .error (.raised e))
        | .ok state => ({ run with state := state }, .ok ())

/-- How many records have a status. -/
def countStatus (records : List StepExecutionRecord) (status : StepExecutionStatus) : ℕ :=
  records.countP (·.status = status)

/-- The result of a run that has come to its end. -/
def Run.result (run : Run) (plan : ExecutionPlan) : OrchestrationResult where
  state := run.state
  summary :=
    { totalSteps := plan.steps.length
      executedSteps := run.records.countP fun r => r.status = .completed || r.status = .failed
      completedSteps := countStatus run.records .completed
      failedSteps := countStatus run.records .failed
      skippedSteps := countStatus run.records .skipped
      cancelledSteps := countStatus run.records .cancelled
      records := run.records }
  success := countStatus run.records .failed = 0

/-- The run before its first step. -/
def Run.start (state : AgentState) : Run := ⟨state, [], ∅, []⟩

/-- The result of a plan that cannot be sorted. -/
def unsortable (state : AgentState) (plan : ExecutionPlan) : OrchestrationResult :=
  ⟨state, ⟨plan.steps.length, 0, 0, 0, 0, 0, []⟩, false⟩

/-- `execute_plan`: what was done, and the result. -/
def executePlan (orch : PlannerOrchestrator) (env : Environment) (fuel : ℕ) (state : AgentState)
    (plan : ExecutionPlan) : Run × Except Stop OrchestrationResult :=
  match topologicalSort plan.steps state with
  | .error _ => (.start state, .ok (unsortable state plan))
  | .ok sorted =>
    let done := Loop.forEach (stepBody orch env sorted fuel) (.start state) sorted
    (done.1, done.2.map fun _ => done.1.result plan)

/-! ## How retries end -/

/-- A delay can be slept: it is a number, and if it is positive, `time.sleep` returns. -/
def PauseOk (sleep : PyNumber → Except PyException Unit) (delay : PyValue) : Prop :=
  ∃ d, delay.number? = some d ∧ (PyNumber.lt (.finite 0) d = true → sleep d = .ok ())

/-- A retry policy gets as far as `k` retries: none need it; for one there has to be a number
of retries, of at least `k`, and a delay that can be slept before each. -/
def Allows (sleep : ℕ → PyNumber → Except PyException Unit) (maxRetries delay : PyValue) (k : ℕ) :
    Prop :=
  k = 0 ∨ (∃ m, maxRetries.number? = some m ∧ ∀ r, m.rounds = some r → k ≤ r) ∧
    ∀ i < k, PauseOk (sleep i) delay

/-- A retry policy stops after `k` retries. -/
def StopsAt (maxRetries : PyValue) (k : ℕ) : Prop :=
  ∃ m r, maxRetries.number? = some m ∧ m.rounds = some r ∧ r ≤ k

/-- What the last of the attempts is. -/
def EndsWith (answer : Except String ToolResult) (maxRetries : PyValue) (k : ℕ) : Attempts → Prop
  | .completed result => completion answer = some result
  | .exhausted text => completion answer = none ∧ StopsAt maxRetries k ∧ text = failureText answer

variable {attempt : ℕ → Except String ToolResult} {sleep : ℕ → PyNumber → Except PyException Unit}
  {maxRetries delay : PyValue}

theorem pause_eq_ok_iff {sleep : PyNumber → Except PyException Unit} :
    pause sleep delay = .ok () ↔ PauseOk sleep delay := by
  unfold pause PauseOk PyValue.greaterThanZero
  cases hnumber : delay.number? with
  | none => simp
  | some d =>
    cases hlt : PyNumber.lt (.finite 0) d with
    | false => simp [hlt]
    | true => simp [hlt]

/-- There is another turn exactly if the attempt failed and the policy goes on. -/
theorem retryTurn_eq_none_iff {k : ℕ} :
    retryTurn attempt sleep maxRetries delay k = none ↔
      completion (attempt k) = none ∧ maxRetries.lessThan k = .ok true ∧
        PauseOk (sleep k) delay := by
  rw [← pause_eq_ok_iff]
  unfold retryTurn
  cases completion (attempt k) with
  | some result => simp
  | none =>
    rcases maxRetries.lessThan k with e | _ | _
    · simp
    · simp
    · cases pause (sleep k) delay <;> simp

theorem retryTurn_eq_ok_iff {k calls : ℕ} {a : Attempts} :
    retryTurn attempt sleep maxRetries delay k = some (calls, .ok a) ↔
      calls = k + 1 ∧ EndsWith (attempt k) maxRetries k a := by
  have hstops : StopsAt maxRetries k ↔ maxRetries.lessThan k = .ok false := by
    rw [PyValue.lessThan_eq_ok_false_iff, StopsAt]
  unfold retryTurn
  cases hcompletion : completion (attempt k) with
  | some result =>
    cases a with
    | completed result' => simp [EndsWith, hcompletion, eq_comm]
    | exhausted text => simp [EndsWith, hcompletion]
  | none =>
    rcases hless : maxRetries.lessThan k with e | _ | _
    · cases a <;> simp [EndsWith, hcompletion, hstops, hless]
    · cases a <;> simp [EndsWith, hcompletion, hstops, hless, eq_comm]
    · cases pause (sleep k) delay <;> cases a <;> simp [EndsWith, hcompletion, hstops, hless]

theorem retryTurn_ne_running {k calls : ℕ} :
    retryTurn attempt sleep maxRetries delay k ≠ some (calls, .error .running) := by
  unfold retryTurn
  cases completion (attempt k) with
  | some result => simp
  | none =>
    rcases maxRetries.lessThan k with e | _ | _
    · simp
    · simp
    · cases pause (sleep k) delay <;> simp

/-- The policy gets as far as `k` retries exactly if no turn before stops it. -/
theorem allows_iff {k : ℕ} :
    Allows sleep maxRetries delay k ↔
      ∀ i < k, maxRetries.lessThan i = .ok true ∧ PauseOk (sleep i) delay := by
  simp only [PyValue.lessThan_eq_ok_true_iff]
  constructor
  · rintro (rfl | ⟨⟨m, hm, hle⟩, hpause⟩) i hi
    · omega
    · exact ⟨⟨m, hm, fun r hr => hi.trans_le (hle r hr)⟩, hpause i hi⟩
  · intro h
    rcases Nat.eq_zero_or_pos k with rfl | hpos
    · exact .inl rfl
    · obtain ⟨⟨m, hm, -⟩, -⟩ := h 0 hpos
      refine .inr ⟨⟨m, hm, fun r hr => ?_⟩, fun i hi => (h i hi).2⟩
      obtain ⟨⟨m', hm', hlt⟩, -⟩ := h (k - 1) (by omega)
      obtain rfl : m' = m := Option.some.inj (hm'.symm.trans hm)
      have := hlt r hr
      omega

theorem retryLoop_ne_running_iff {fuel : ℕ} :
    (retryLoop attempt sleep maxRetries delay fuel).2 ≠ .error .running ↔
      ∃ out, Loop.repeatUntil (retryTurn attempt sleep maxRetries delay) fuel 0 = some out := by
  unfold retryLoop
  cases hloop : Loop.repeatUntil (retryTurn attempt sleep maxRetries delay) fuel 0 with
  | none => simp
  | some out =>
    obtain ⟨j, -, -, -, hj⟩ := Loop.repeatUntil_eq_some_iff.1 hloop
    refine ⟨fun _ => ⟨out, rfl⟩, fun _ hrunning => ?_⟩
    obtain ⟨calls, answer⟩ := out
    obtain rfl : answer = .error .running := hrunning
    exact retryTurn_ne_running hj

/-- More fuel changes nothing once the loop is done. -/
theorem retryLoop_mono {fuel fuel' : ℕ} (hle : fuel ≤ fuel')
    (h : (retryLoop attempt sleep maxRetries delay fuel).2 ≠ .error .running) :
    retryLoop attempt sleep maxRetries delay fuel' = retryLoop attempt sleep maxRetries delay fuel := by
  obtain ⟨out, hout⟩ := retryLoop_ne_running_iff.1 h
  simp [retryLoop, hout, Loop.repeatUntil_mono hout hle]

/-- **How the loop of retries ends**: after `k` retries that the policy allows, each after a
failure. -/
theorem retryLoop_eq_ok_iff {calls : ℕ} {a : Attempts} :
    (∃ fuel, retryLoop attempt sleep maxRetries delay fuel = (calls, .ok a)) ↔
      ∃ k, calls = k + 1 ∧ Allows sleep maxRetries delay k ∧ (∀ i < k, completion (attempt i) = none) ∧
        EndsWith (attempt k) maxRetries k a := by
  have hloop : ∀ fuel, retryLoop attempt sleep maxRetries delay fuel = (calls, .ok a) ↔
      Loop.repeatUntil (retryTurn attempt sleep maxRetries delay) fuel 0 = some (calls, .ok a) := by
    intro fuel
    unfold retryLoop
    cases Loop.repeatUntil (retryTurn attempt sleep maxRetries delay) fuel 0 <;> simp
  simp only [hloop, Loop.repeatUntil_eq_some_iff, retryTurn_eq_none_iff, retryTurn_eq_ok_iff, allows_iff]
  constructor
  · rintro ⟨fuel, k, -, -, hbefore, hcalls, hend⟩
    exact ⟨k, hcalls, fun i hi => (hbefore i (Nat.zero_le i) hi).2,
      fun i hi => (hbefore i (Nat.zero_le i) hi).1, hend⟩
  · rintro ⟨k, hcalls, hallows, hfailed, hend⟩
    exact ⟨k + 1, k, Nat.zero_le k, by omega, fun i _ hi => ⟨hfailed i hi, hallows i hi⟩, hcalls, hend⟩

/-! ## One step -/

/-- What the tool of a step answers can go into the agent state: a result under a name that
a record takes, or that is reported in a text of the right length; a failure in a text that
is not too long. -/
def Recordable (report : ValidationReport) : Attempts → Prop
  | .completed result => Fits 1 128 result.toolName ∨
      Fits 1 1024 (report "ExecutionRecord" "tool_name" result.toolName)
  | .exhausted text => text.length ≤ 1024

/-- The attempts of a step come to an end, and what they end with can be recorded: some
number of retries, each after a failure, is allowed by the policy, and then an attempt
completes or the policy stops. -/
def RetriesOk (report : ValidationReport) (attempt : ℕ → Except String ToolResult)
    (sleep : ℕ → PyNumber → Except PyException Unit) (maxRetries delay : PyValue) : Prop :=
  ∃ k a, Allows sleep maxRetries delay k ∧ (∀ i < k, completion (attempt i) = none) ∧
    EndsWith (attempt k) maxRetries k a ∧ Recordable report a

variable {orch : PlannerOrchestrator} {env : Environment} {sorted : List ExecutionStep}
  {run run' : Run} {step : ExecutionStep}

/-- A step gets as far as its conditions. -/
def Considered (env : Environment) (sorted : List ExecutionStep) (run : Run) (step : ExecutionStep) :
    Prop :=
  cancelled env run = false ∧ depFailed sorted run.statusMap step = false

/-- A step gets as far as its tool. -/
def ReachesTool (orch : PlannerOrchestrator) (env : Environment) (sorted : List ExecutionStep)
    (run : Run) (step : ExecutionStep) : Prop :=
  Considered env sorted run step ∧ conditionsMet orch run.state step.conditions = .ok true

/-- **When a step does not stop the run**: no condition that is evaluated raises, and if a
registered tool is called, its attempts come to an end that can be recorded. -/
def StepOk (orch : PlannerOrchestrator) (env : Environment) (sorted : List ExecutionStep) (run : Run)
    (step : ExecutionStep) : Prop :=
  (Considered env sorted run step → ∃ met, conditionsMet orch run.state step.conditions = .ok met) ∧
    (ReachesTool orch env sorted run step → orch.registry.hasTool step.tool = true →
      RetriesOk env.report (env.attempt step.stepId) (env.sleep step.stepId) step.maxRetries
        step.delay)

theorem registry_get_cases (registry : ToolRegistry) (tool : String) :
    (registry.hasTool tool = true ∧ ∃ metadata, registry.get tool = .ok metadata) ∨
      registry.hasTool tool = false ∧ ∃ e, registry.get tool = .error e := by
  unfold ToolRegistry.hasTool ToolRegistry.get Dict.contains
  cases registry.tools.get? tool with
  | some metadata => exact .inl ⟨rfl, metadata, rfl⟩
  | none => exact .inr ⟨rfl, _, rfl⟩

/-- What a step that was handed to its tool ends as: the number of calls, the record and
the result. -/
inductive Executed (orch : PlannerOrchestrator) (env : Environment) (step : ExecutionStep) :
    ℕ → StepExecutionRecord → Option ToolResult → Prop
  | unregistered : orch.registry.hasTool step.tool = false → Executed orch env step 0
      (step.record .failed (some ("Tool '" ++ step.tool ++ "' not found in registry.")) 0) none
  | completed (k : ℕ) (result : ToolResult) : orch.registry.hasTool step.tool = true →
      Allows (env.sleep step.stepId) step.maxRetries step.delay k →
      (∀ i < k, completion (env.attempt step.stepId i) = none) →
      completion (env.attempt step.stepId k) = some result →
      Executed orch env step (k + 1) (step.record .completed none k) (some result)
  | exhausted (k : ℕ) : orch.registry.hasTool step.tool = true →
      Allows (env.sleep step.stepId) step.maxRetries step.delay k →
      (∀ i ≤ k, completion (env.attempt step.stepId i) = none) →
      StopsAt step.maxRetries k → Executed orch env step (k + 1)
        (step.record .failed (some (failureText (env.attempt step.stepId k))) k) none

theorem executeStepWithRetries_eq_ok_iff {calls : ℕ} {record : StepExecutionRecord}
    {toolResult : Option ToolResult} :
    (∃ fuel, executeStepWithRetries orch env fuel step = (calls, .ok (record, toolResult))) ↔
      Executed orch env step calls record toolResult := by
  unfold executeStepWithRetries
  rcases registry_get_cases orch.registry step.tool with ⟨hhas, metadata, hget⟩ | ⟨hhas, e, hget⟩
  · simp only [hget]
    constructor
    · rintro ⟨fuel, h⟩
      rcases hloop : retryLoop (env.attempt step.stepId) (env.sleep step.stepId) step.maxRetries
          step.delay fuel with
        ⟨n, stop | ⟨result⟩ | ⟨text⟩⟩
      · simp [hloop] at h
      · obtain ⟨k, rfl, hallows, hfailed, hend⟩ := retryLoop_eq_ok_iff.1 ⟨fuel, hloop⟩
        simp only [hloop, Prod.mk.injEq, Except.ok.injEq, Nat.add_sub_cancel] at h
        obtain ⟨rfl, rfl, rfl⟩ := h
        exact .completed k result hhas hallows hfailed hend
      · obtain ⟨k, rfl, hallows, hfailed, hnone, hstops, rfl⟩ := retryLoop_eq_ok_iff.1 ⟨fuel, hloop⟩
        simp only [hloop, Prod.mk.injEq, Except.ok.injEq, Nat.add_sub_cancel] at h
        obtain ⟨rfl, rfl, rfl⟩ := h
        refine .exhausted k hhas hallows (fun i hi => ?_) hstops
        rcases hi.eq_or_lt with rfl | hlt
        · exact hnone
        · exact hfailed i hlt
    · intro h
      cases h with
      | unregistered hnot => simp [hhas] at hnot
      | completed k result _ hallows hfailed hresult =>
        obtain ⟨fuel, hloop⟩ := retryLoop_eq_ok_iff.2
          ⟨k, rfl, hallows, hfailed, (show EndsWith _ _ k (.completed result) from hresult)⟩
        exact ⟨fuel, by simp [hloop]⟩
      | exhausted k _ hallows hfailed hstops =>
        obtain ⟨fuel, hloop⟩ := retryLoop_eq_ok_iff.2
          ⟨k, rfl, hallows, fun i hi => hfailed i hi.le,
            (show EndsWith _ _ k (.exhausted _) from ⟨hfailed k le_rfl, hstops, rfl⟩)⟩
        exact ⟨fuel, by simp [hloop]⟩
  · simp only [hget]
    constructor
    · rintro ⟨-, h⟩
      simp only [Prod.mk.injEq, Except.ok.injEq] at h
      obtain ⟨rfl, rfl, rfl⟩ := h
      exact .unregistered hhas
    · intro h
      cases h with
      | unregistered _ => exact ⟨0, rfl⟩
      | completed k result hhas' => simp [hhas] at hhas'
      | exhausted k hhas' => simp [hhas] at hhas'

/-- A failed step can be recorded if its text is not too long; an empty one is replaced. -/
theorem fits_failureMessage_iff (step : ExecutionStep) (text : String) (k : ℕ) :
    Fits 1 1024 (failureMessage (step.record .failed (some text) k)) ↔ text.length ≤ 1024 := by
  simp only [failureMessage, ExecutionStep.record]
  split_ifs with h
  · simp only [h]
    decide
  · have hpos : text.length ≠ 0 := by simpa using h
    simp only [Fits]
    omega

theorem toolErrorInfo_create_eq_ok_iff {report : ValidationReport} {code message : String}
    {metadata : List (String × PyValue)} {hcode : Fits 1 128 code} :
    (∃ info, ToolErrorInfo.create report code message metadata hcode = .ok info) ↔
      Fits 1 1024 message := by
  unfold ToolErrorInfo.create
  split_ifs with h
  · simp [h]
  · simp [h]

theorem exists_map_eq_ok_iff {ε α β : Type*} {x : Except ε α} {f : α → β} :
    (∃ b, x.map f = .ok b) ↔ ∃ a, x = .ok a := by
  cases x <;> simp [Except.map]

/-- **When the outcome of a step goes into the agent state.** -/
theorem propagate_completed_iff (report : ValidationReport) (state : AgentState)
    (step : ExecutionStep) (k : ℕ) (result : ToolResult) :
    (∃ state', propagate report state step (step.record .completed none k) (some result) =
      .ok state') ↔ Recordable report (.completed result) := by
  simp only [propagate, ExecutionStep.record, Recordable]
  by_cases hfits : Fits 1 128 result.toolName
  · simp [AgentState.withToolResult, hfits]
  · have hrefused : ∀ details, state.withToolResult report result details =
        .error ⟨"ValidationError", report "ExecutionRecord" "tool_name" result.toolName⟩ := by
      simp [AgentState.withToolResult, hfits]
    simp only [hrefused, hfits, false_or, exists_map_eq_ok_iff, toolErrorInfo_create_eq_ok_iff]

theorem propagate_failed_iff (report : ValidationReport) (state : AgentState)
    (step : ExecutionStep) (k : ℕ) (text : String) (toolResult : Option ToolResult) :
    (∃ state', propagate report state step (step.record .failed (some text) k) toolResult =
      .ok state') ↔ Recordable report (.exhausted text) := by
  have hpropagate : propagate report state step (step.record .failed (some text) k) toolResult =
      (ToolErrorInfo.create report "tool_execution_failed"
        (failureMessage (step.record .failed (some text) k))
        [("tool_name", .str step.tool), ("step_id", .str step.stepId)] fits_toolExecutionFailed).map
          state.withError := rfl
  rw [hpropagate, exists_map_eq_ok_iff, toolErrorInfo_create_eq_ok_iff, fits_failureMessage_iff, Recordable]

theorem length_unregistered_le (step : ExecutionStep) :
    ("Tool '" ++ step.tool ++ "' not found in registry.").length ≤ 1024 := by
  have htool := step.tool_fits.2
  have hleft : "Tool '".length = 6 := by decide
  have hright : "' not found in registry.".length = 24 := by decide
  rw [String.length_append, String.length_append]
  omega

/-- **What the loop's body does with a step that does not stop it**: it notes one record,
and hands the step to its tool unless it is cancelled or skipped. -/
inductive Effect (orch : PlannerOrchestrator) (env : Environment) (sorted : List ExecutionStep)
    (run : Run) (step : ExecutionStep) : Run → Prop
  | cancelled : cancelled env run = true → Effect orch env sorted run step
      (run.note (step.record .cancelled (some "Execution cancelled by caller.") 0))
  | blocked : cancelled env run = false → depFailed sorted run.statusMap step = true →
      Effect orch env sorted run step
        (run.note (step.record .cancelled (some "Dependent step failed or cancelled.") 0))
  | skipped : Considered env sorted run step →
      conditionsMet orch run.state step.conditions = .ok false → Effect orch env sorted run step
        (run.note (step.record .skipped
          (some ("Conditions not met: " ++ env.reprTuple step.conditions)) 0))
  | executed {calls : ℕ} {record : StepExecutionRecord} {toolResult : Option ToolResult}
      {state : AgentState} : ReachesTool orch env sorted run step →
      Executed orch env step calls record toolResult →
      propagate env.report run.state step record toolResult = .ok state →
      Effect orch env sorted run step
        { run.note record with
          state := state, calls := run.calls ++ List.replicate calls step.stepId }

theorem gets_iff_effect :
    Loop.Gets (stepBody orch env sorted) run step run' ↔ Effect orch env sorted run step run' := by
  unfold Loop.Gets stepBody
  constructor
  · rintro ⟨fuel, ⟨⟩, h⟩
    split_ifs at h with hcancelled hdep
    · cases h
      exact .cancelled hcancelled
    · cases h
      exact .blocked (by simpa using hcancelled) hdep
    · have hconsidered : Considered env sorted run step :=
        ⟨by simpa using hcancelled, by simpa using hdep⟩
      split at h
      · cases h
      · rename_i hconditions
        cases h
        exact .skipped hconsidered hconditions
      · rename_i hconditions
        rcases hexec : executeStepWithRetries orch env fuel step with ⟨calls, stop | ⟨record, toolResult⟩⟩
        · simp [hexec] at h
        · simp only [hexec] at h
          split at h
          · cases h
          · rename_i state hpropagate
            cases h
            exact .executed ⟨hconsidered, hconditions⟩
              (executeStepWithRetries_eq_ok_iff.1 ⟨fuel, hexec⟩) hpropagate
  · intro h
    cases h with
    | cancelled hcancelled => exact ⟨0, (), by simp [hcancelled]⟩
    | blocked hcancelled hdep => exact ⟨0, (), by simp [hcancelled, hdep]⟩
    | skipped hconsidered hconditions =>
      exact ⟨0, (), by simp [hconsidered.1, hconsidered.2, hconditions]⟩
    | @executed calls record toolResult state hreaches hexecuted hpropagate =>
      obtain ⟨fuel, hexec⟩ := executeStepWithRetries_eq_ok_iff.2 hexecuted
      refine ⟨fuel, (), ?_⟩
      simp only [hreaches.1.1, hreaches.1.2, hreaches.2, hexec, Bool.false_eq_true, if_false]
      simp only [Run.note, hpropagate]

/-- **A step does not stop the run exactly if it is in order.** -/
theorem exists_gets_iff :
    (∃ run', Loop.Gets (stepBody orch env sorted) run step run') ↔ StepOk orch env sorted run step := by
  simp only [gets_iff_effect]
  constructor
  · rintro ⟨run', h⟩
    cases h with
    | cancelled hcancelled =>
      exact ⟨fun h => by simp [h.1] at hcancelled, fun h => by simp [h.1.1] at hcancelled⟩
    | blocked hcancelled hdep =>
      exact ⟨fun h => by simp [h.2] at hdep, fun h => by simp [h.1.2] at hdep⟩
    | skipped hconsidered hconditions =>
      exact ⟨fun _ => ⟨false, hconditions⟩, fun h => by simp [h.2] at hconditions⟩
    | executed hreaches hexecuted hpropagate =>
      refine ⟨fun _ => ⟨true, hreaches.2⟩, fun _ hhas => ?_⟩
      cases hexecuted with
      | unregistered hnot => simp [hhas] at hnot
      | completed k result _ hallows hfailed hresult =>
        exact ⟨k, .completed result, hallows, hfailed, hresult,
          (propagate_completed_iff _ _ _ _ _).1 ⟨_, hpropagate⟩⟩
      | exhausted k _ hallows hfailed hstops =>
        exact ⟨k, .exhausted _, hallows, fun i hi => hfailed i hi.le, ⟨hfailed k le_rfl, hstops, rfl⟩,
          (propagate_failed_iff _ _ _ _ _ _).1 ⟨_, hpropagate⟩⟩
  · rintro ⟨hconditions, hretries⟩
    rcases hcancelled : cancelled env run with _ | _
    · rcases hdep : depFailed sorted run.statusMap step with _ | _
      · obtain ⟨_ | _, hmet⟩ := hconditions ⟨hcancelled, hdep⟩
        · exact ⟨_, .skipped ⟨hcancelled, hdep⟩ hmet⟩
        · have hreaches : ReachesTool orch env sorted run step := ⟨⟨hcancelled, hdep⟩, hmet⟩
          rcases hhas : orch.registry.hasTool step.tool with _ | _
          · obtain ⟨state, hstate⟩ := (propagate_failed_iff env.report run.state step 0 _ none).2
              (length_unregistered_le step)
            exact ⟨_, .executed hreaches (.unregistered hhas) hstate⟩
          · obtain ⟨k, result | text, hallows, hfailed, hend, hrecord⟩ := hretries hreaches hhas
            · obtain ⟨state, hstate⟩ :=
                (propagate_completed_iff env.report run.state step k result).2 hrecord
              exact ⟨_, .executed hreaches (.completed k result hhas hallows hfailed hend) hstate⟩
            · obtain ⟨hnone, hstops, rfl⟩ := hend
              obtain ⟨state, hstate⟩ :=
                (propagate_failed_iff env.report run.state step k _ none).2 hrecord
              refine ⟨_, .executed hreaches (.exhausted k hhas hallows (fun i hi => ?_) hstops) hstate⟩
              rcases hi.eq_or_lt with rfl | hlt
              · exact hnone
              · exact hfailed i hlt
      · exact ⟨_, .blocked hcancelled hdep⟩
    · exact ⟨_, .cancelled hcancelled⟩

/-- More fuel changes nothing about a step that is done. -/
theorem stepBody_mono (fuel fuel' : ℕ) (run : Run) (step : ExecutionStep) (hle : fuel ≤ fuel')
    (h : (stepBody orch env sorted fuel run step).2 ≠ .error .running) :
    stepBody orch env sorted fuel' run step = stepBody orch env sorted fuel run step := by
  have hexec : (executeStepWithRetries orch env fuel step).2 ≠ .error .running →
      executeStepWithRetries orch env fuel' step = executeStepWithRetries orch env fuel step := by
    unfold executeStepWithRetries
    rcases orch.registry.get step.tool with e | metadata
    · simp
    · intro hne
      have hloop : (retryLoop (env.attempt step.stepId) (env.sleep step.stepId) step.maxRetries
          step.delay fuel).2 ≠
          .error .running := by
        rcases hloop : retryLoop (env.attempt step.stepId) (env.sleep step.stepId) step.maxRetries
          step.delay fuel with
          ⟨n, stop | ⟨result⟩ | ⟨text⟩⟩
        · simpa [hloop] using hne
        · simp
        · simp
      dsimp only
      rw [retryLoop_mono hle hloop]
  unfold stepBody at h ⊢
  split_ifs at h ⊢ with hcancelled hdep
  · rfl
  · rfl
  · rcases hconditions : conditionsMet orch run.state step.conditions with e | _ | _
    · rfl
    · rfl
    · simp only [hconditions] at h
      have hne : (executeStepWithRetries orch env fuel step).2 ≠ .error .running := by
        intro hrunning
        simp [hrunning] at h
      dsimp only
      rw [hexec hne]

end ScamOn.Planner
