import Mathlib.Logic.Relation
import ScamOn.Planner.PlannerService
import ScamOn.Planner.Runs

/-!
# Investigations

`MultiStepInvestigator.investigate` asks the planner for a plan, has it executed and asks
again, until the planner has nothing new or the limit of iterations is reached.

* `Inquiry` is what the loop carries: the agent state, the summaries so far and the
  identifiers of the steps that are finished.
* `turn` is one turn of the loop, and `investigate` the loop.  Plan and tools may answer
  differently in every turn, `World`.
* `Turns` is a turn that is followed by another; `Ledger` is what holds in every state that
  turns lead to, if no plan that is executed has a completed step in it.
* `investigation_never_repeats` is what follows for the result.
-/

namespace ScamOn.Planner

/-! ## The loop -/

/-- `InvestigationResult`. -/
structure InvestigationResult where
  state : AgentState
  iterations : ℕ
  history : List OrchestrationSummary
  success : Bool
  message : String

/-- `MultiStepInvestigator`.  The planner answers by the number of the turn. -/
structure MultiStepInvestigator where
  planner : ℕ → AgentState → PlanningResult
  orchestrator : PlannerOrchestrator
  maxIterations : ℕ

/-- What happens around an investigation, by the number of the turn.  In each turn the caller
is first asked about cancellation by the loop itself, then by the run of the plan. -/
structure World where
  attempt : ℕ → String → ℕ → Except String ToolResult
  sleep : ℕ → String → ℕ → PyNumber → Except PyException Unit
  cancelRequested : Option (ℕ → ℕ → Bool)
  report : ValidationReport
  reprTuple : List String → String

/-- What happens around the run of a turn. -/
def World.round (world : World) (iteration : ℕ) : Environment where
  attempt := world.attempt iteration
  sleep := world.sleep iteration
  cancelRequested := world.cancelRequested.map fun requested k => requested iteration (k + 1)
  report := world.report
  reprTuple := world.reprTuple

/-- The variables of the loop.  `newSteps` is not assigned before the first plan; `answers`
has what the planner has answered so far. -/
structure Inquiry where
  state : AgentState
  iteration : ℕ
  history : List OrchestrationSummary
  executedStepIds : List String
  newSteps : Option (List ExecutionStep)
  answers : List PlanningResult

/-- The variables before the first turn. -/
def Inquiry.start (state : AgentState) : Inquiry := ⟨state, 0, [], [], none, []⟩

/-- How a turn ends: with another one, with `break`, with a result, or not at all. -/
inductive Turn
  | again
  | leave
  | finished (result : InvestigationResult)
  | stopped (stop : Stop)

/-- The statuses of a step that is not executed again. -/
def StepExecutionStatus.isFinished (status : StepExecutionStatus) : Bool :=
  status = .completed || status = .failed || status = .skipped

/-- The steps that a summary reports as finished. -/
def OrchestrationSummary.finishedIds (summary : OrchestrationSummary) : List String :=
  (summary.records.filter (·.status.isFinished)).map (·.stepId)

/-- The decision that ends an investigation. -/
def finalDecision (iteration : ℕ) (plan : ExecutionPlan) : PlanningDecision where
  reasoning := "Investigation completed: no more steps requested. Planner goal: " ++ plan.goal
  confidence := plan.confidence
  isFinal := true
  metadata := .final iteration plan.goal plan.strategy

/-- The decision that a plan is executed. -/
def iterationDecision (iteration : ℕ) (plan : ExecutionPlan) (newSteps : List ExecutionStep) :
    PlanningDecision where
  reasoning := "Iterative plan for step " ++ toString (iteration + 1) ++ ": " ++ plan.goal
  confidence := plan.confidence
  isFinal := false
  metadata := .iteration (plan.steps.map (·.stepId)) (plan.steps.map (·.tool))
    (plan.steps.foldl (fun d s => d.set s.stepId s.tool) ∅) (newSteps.map (·.stepId)) plan.goal
    plan.strategy

/-- A result that is no success. -/
def Inquiry.halted (q : Inquiry) (message : String) : InvestigationResult :=
  ⟨q.state, q.iteration, q.history, false, message⟩

/-- The message of a turn in which nothing completed and something failed. -/
def zeroCompleted : String :=
  "Investigation halted: plan execution returned zero completed steps and recorded failures."

/-- The steps of a plan that are not finished. -/
def Inquiry.newStepsOf (q : Inquiry) (plan : ExecutionPlan) : List ExecutionStep :=
  plan.steps.filter fun s => !q.executedStepIds.contains s.stepId

/-- The variables after the planner's answer. -/
def Inquiry.answered (q : Inquiry) (answer : PlanningResult) : Inquiry :=
  { q with answers := q.answers ++ [answer] }

/-- The variables after a decision about `plan`. -/
def Inquiry.decided (q : Inquiry) (plan : ExecutionPlan) (decision : PlanningDecision) : Inquiry :=
  { q with state := q.state.withPlanningDecision decision, newSteps := some (q.newStepsOf plan) }

/-- The variables after the run of a plan. -/
def Inquiry.executed (q : Inquiry) (result : OrchestrationResult) : Inquiry :=
  { q with
    state := result.state
    iteration := q.iteration + 1
    history := q.history ++ [result.summary]
    executedStepIds := q.executedStepIds ++ result.summary.finishedIds }

/-- Whether the caller cancels before a turn. -/
def World.cancels (world : World) (iteration : ℕ) : Bool :=
  match world.cancelRequested with
  | some requested => requested iteration 0
  | none => false

variable (inv : MultiStepInvestigator) (world : World)

/-- The run of a plan in a turn: the whole plan is handed to the orchestrator. -/
def Inquiry.execute (fuel : ℕ) (q : Inquiry) (plan : ExecutionPlan) : Except Stop OrchestrationResult :=
  (executePlan inv.orchestrator (world.round q.iteration) fuel q.state plan).2

/-- One turn of the loop. -/
def turn (fuel : ℕ) (q : Inquiry) : Inquiry × Turn :=
  if world.cancels q.iteration then (q, .finished (q.halted "Investigation cancelled by caller."))
  else
    let answer := inv.planner q.iteration q.state
    let q := q.answered answer
    match answer.success, answer.plan with
    | true, some plan =>
      if (q.newStepsOf plan).isEmpty then (q.decided plan (finalDecision q.iteration plan), .leave)
      else
        let q := q.decided plan (iterationDecision q.iteration plan (q.newStepsOf plan))
        match q.execute inv world fuel plan with
        | .error stop => (q, .stopped stop)
        | .ok result =>
          let q := q.executed result
          if result.summary.completedSteps = 0 ∧ 0 < result.summary.failedSteps then
            (q, .finished (q.halted zeroCompleted))
          else (q, .again)
    | _, _ =>
      (q, .finished (q.halted ("Investigation failed during planning step: " ++
        textOr "Planner returned invalid plan." answer.errorMessage)))

/-- What comes after the loop. -/
def conclude (q : Inquiry) : Except Stop InvestigationResult :=
  if q.iteration < inv.maxIterations then
    .ok ⟨q.state, q.iteration, q.history, true, "Investigation completed successfully."⟩
  else if q.iteration = inv.maxIterations then
    match q.newSteps with
    | none => .error (.raised ⟨"UnboundLocalError",
        "cannot access local variable 'new_steps' where it is not associated with a value"⟩)
    | some [] => .ok ⟨q.state, q.iteration, q.history, true, "Investigation completed successfully."⟩
    | some (_ :: _) => .ok (q.halted "Halted: reached iteration limit.")
  else .ok (q.halted "Halted: reached iteration limit.")

/-- The loop, by the number of turns that are left. -/
def investigateLoop (fuel : ℕ) : ℕ → Inquiry → Inquiry × Except Stop InvestigationResult
  | 0, q => (q, conclude inv q)
  | n + 1, q =>
    match turn inv world fuel q with
    | (q', .again) => investigateLoop fuel n q'
    | (q', .leave) => (q', conclude inv q')
    | (q', .finished result) => (q', .ok result)
    | (q', .stopped stop) => (q', .error stop)

/-- `investigate`: the variables at the end, and the result. -/
def investigate (fuel : ℕ) (state : AgentState) : Inquiry × Except Stop InvestigationResult :=
  investigateLoop inv world fuel inv.maxIterations (.start state)

/-! ## Plans that come to their end -/

/-- Every step of a plan is in order, in the state that the steps before it lead to. -/
def PlanOk (orch : PlannerOrchestrator) (env : Environment) (state : AgentState)
    (plan : ExecutionPlan) : Prop :=
  ∀ sorted, topologicalSort plan.steps state = .ok sorted →
    Loop.Throughout (Effect orch env sorted) (StepOk orch env sorted) (.start state) sorted

section Plans

variable {orch : PlannerOrchestrator} {env : Environment} {state : AgentState} {plan : ExecutionPlan}

theorem planOk_iff : PlanOk orch env state plan ↔
    ∃ fuel result, (executePlan orch env fuel state plan).2 = .ok result := by
  cases hsort : topologicalSort plan.steps state with
  | error e => simp [PlanOk, executePlan, hsort]
  | ok sorted =>
    rw [executePlan_returns_iff hsort, PlanOk, hsort]
    simp

/-- More fuel does not change a result. -/
theorem executePlan_mono {fuel fuel' : ℕ} {result : OrchestrationResult} (hle : fuel ≤ fuel')
    (h : (executePlan orch env fuel state plan).2 = .ok result) :
    (executePlan orch env fuel' state plan).2 = .ok result := by
  unfold executePlan at h ⊢
  cases hsort : topologicalSort plan.steps state with
  | error e => simpa [hsort] using h
  | ok sorted =>
    simp only [hsort] at h ⊢
    have hne : (Loop.forEach (stepBody orch env sorted fuel) (.start state) sorted).2 ≠
        .error .running := by
      intro hrunning
      rw [hrunning] at h
      cases h
    rw [Loop.forEach_mono (fun run step => stepBody_mono fuel fuel' run step hle) hne]
    exact h

/-- A summary has completed a step. -/
def OrchestrationSummary.completes (summary : OrchestrationSummary) (stepId : String) : Bool :=
  summary.records.any fun r => r.stepId = stepId && r.status = .completed

/-- The steps that a run completes are steps of its plan. -/
theorem mem_of_completes {fuel : ℕ} {result : OrchestrationResult} {stepId : String}
    (h : (executePlan orch env fuel state plan).2 = .ok result)
    (hcompletes : result.summary.completes stepId = true) :
    ∃ s ∈ plan.steps, s.stepId = stepId := by
  obtain ⟨r, hr, hid⟩ : ∃ r ∈ result.summary.records, r.stepId = stepId := by
    simp only [OrchestrationSummary.completes, List.any_eq_true, Bool.and_eq_true,
      decide_eq_true_eq] at hcompletes
    obtain ⟨r, hr, hid, -⟩ := hcompletes
    exact ⟨r, hr, hid⟩
  cases hsort : topologicalSort plan.steps state with
  | error e =>
    simp only [executePlan, hsort, Except.ok.injEq] at h
    subst h
    simp [unsortable] at hr
  | ok sorted =>
    obtain ⟨-, -, hperm, -⟩ := topologicalSort_eq_ok hsort
    obtain ⟨haccounted, rfl⟩ := accounted_of_executePlan hsort (Prod.ext rfl h)
    have hmem : stepId ∈ sorted.map (·.stepId) := by
      rw [← haccounted.ids, ← hid]
      exact List.mem_map_of_mem hr
    obtain ⟨s, hs, rfl⟩ := List.mem_map.1 hmem
    exact ⟨s, hperm.mem_iff.1 hs, rfl⟩

end Plans

/-! ## Turns -/

/-- In this turn the planner's plan is executed. -/
structure Executes (q : Inquiry) (plan : ExecutionPlan) : Prop where
  goesOn : world.cancels q.iteration = false
  success : (inv.planner q.iteration q.state).success = true
  proposed : (inv.planner q.iteration q.state).plan = some plan
  unfinished : q.newStepsOf plan ≠ []

/-- The variables when the plan of a turn is handed to the orchestrator. -/
def Inquiry.ready (q : Inquiry) (plan : ExecutionPlan) : Inquiry :=
  (q.answered (inv.planner q.iteration q.state)).decided plan
    (iterationDecision q.iteration plan (q.newStepsOf plan))

/-- A turn of the loop that is followed by another. -/
def Turns (q q' : Inquiry) : Prop :=
  q.iteration < inv.maxIterations ∧ ∃ fuel, turn inv world fuel q = (q', .again)

/-- The states that turns lead to. -/
def Reached (state : AgentState) (q : Inquiry) : Prop :=
  Relation.ReflTransGen (Turns inv world) (.start state) q

variable {inv world} {q q' : Inquiry} {plan : ExecutionPlan}

/-- **What a turn with a plan to execute does.** -/
theorem turn_of_executes (h : Executes inv world q plan) (fuel : ℕ) :
    turn inv world fuel q =
      match (q.ready inv plan).execute inv world fuel plan with
      | .error stop => (q.ready inv plan, .stopped stop)
      | .ok result =>
        if result.summary.completedSteps = 0 ∧ 0 < result.summary.failedSteps then
          ((q.ready inv plan).executed result,
            .finished (((q.ready inv plan).executed result).halted zeroCompleted))
        else ((q.ready inv plan).executed result, .again) := by
  have hnew : (q.newStepsOf plan).isEmpty = false := by simpa using h.unfinished
  unfold turn
  rw [if_neg (by simp [h.goesOn])]
  simp only [h.success, h.proposed]
  rw [if_neg (by simpa [Inquiry.newStepsOf, Inquiry.answered] using hnew)]
  rfl

/-- **Any other turn** is the last: it ends with a failure, or with nothing new to do. -/
theorem turn_of_not_executes (h : ¬∃ plan, Executes inv world q plan) :
    (∃ q' message, q'.history = q.history ∧
      ∀ fuel, turn inv world fuel q = (q', .finished (q.halted message))) ∨
    ∃ q' plan, q'.history = q.history ∧ q'.iteration = q.iteration ∧
      q'.answers = q.answers ++ [inv.planner q.iteration q.state] ∧
      (inv.planner q.iteration q.state).plan = some plan ∧ q.newStepsOf plan = [] ∧
      ∀ fuel, turn inv world fuel q = (q', .leave) := by
  unfold turn
  cases hcancels : world.cancels q.iteration with
  | true => exact .inl ⟨q, _, rfl, fun fuel => by rw [if_pos rfl]⟩
  | false =>
    simp only [Bool.false_eq_true, if_false]
    cases hsuccess : (inv.planner q.iteration q.state).success with
    | false => exact .inl ⟨q.answered (inv.planner q.iteration q.state), _, rfl, fun fuel => rfl⟩
    | true =>
      cases hplan : (inv.planner q.iteration q.state).plan with
      | none => exact .inl ⟨q.answered (inv.planner q.iteration q.state), _, rfl, fun fuel => rfl⟩
      | some plan =>
        have hnone : q.newStepsOf plan = [] := by
          by_contra hnew
          exact h ⟨plan, hcancels, hsuccess, hplan, hnew⟩
        refine .inr ⟨(q.answered (inv.planner q.iteration q.state)).decided plan
          (finalDecision q.iteration plan), plan, rfl, rfl, rfl, rfl, hnone, fun fuel => ?_⟩
        dsimp only
        rw [if_pos (by simpa [Inquiry.newStepsOf, Inquiry.answered] using hnone)]
        rfl

/-! ## What turns keep -/

/-- **The ledger of an investigation**: one summary for each turn, the finished steps of the
summaries, and no step that two of them have completed. -/
structure Ledger (q : Inquiry) : Prop where
  turns : q.history.length = q.iteration
  finished : ∀ sid, sid ∈ q.executedStepIds ↔ sid ∈ q.history.flatMap (·.finishedIds)
  once : ∀ sid, q.history.countP (·.completes sid) ≤ 1
  assigned : 0 < q.iteration → ∃ s rest, q.newSteps = some (s :: rest)

theorem ledger_start (state : AgentState) : Ledger (.start state) where
  turns := rfl
  finished := by simp [Inquiry.start]
  once := by simp [Inquiry.start]
  assigned := by simp [Inquiry.start]

/-- No step of a plan is completed in the history. -/
def Fresh (q : Inquiry) (plan : ExecutionPlan) : Prop :=
  ∀ s ∈ plan.steps, ∀ summary ∈ q.history, summary.completes s.stepId = false

/-- **The run of a fresh plan keeps the ledger.** -/
theorem Ledger.executed (h : Ledger q) (hexecutes : Executes inv world q plan) (hfresh : Fresh q plan)
    {fuel : ℕ} {result : OrchestrationResult}
    (hresult : (q.ready inv plan).execute inv world fuel plan = .ok result) :
    Ledger ((q.ready inv plan).executed result) where
  turns := by
    have hturns := h.turns
    simp [Inquiry.executed, Inquiry.ready, Inquiry.decided, Inquiry.answered, hturns]
  finished := by
    intro sid
    have hfinished := h.finished sid
    simp only [Inquiry.executed, Inquiry.ready, Inquiry.decided, Inquiry.answered, List.mem_append,
      List.flatMap_append, List.flatMap_singleton, hfinished]
  once := by
    intro sid
    have honce := h.once sid
    simp only [Inquiry.executed, Inquiry.ready, Inquiry.decided, Inquiry.answered,
      List.countP_append, List.countP_singleton]
    cases hcompletes : result.summary.completes sid with
    | false => simpa using honce
    | true =>
      obtain ⟨s, hs, rfl⟩ := mem_of_completes hresult hcompletes
      have hzero : q.history.countP (·.completes s.stepId) = 0 := by
        rw [List.countP_eq_zero]
        intro summary hsummary
        simp [hfresh s hs summary hsummary]
      simp [hzero]
  assigned := by
    intro _
    obtain ⟨s, rest, hsteps⟩ := List.exists_cons_of_ne_nil hexecutes.unfinished
    exact ⟨s, rest, congrArg some hsteps⟩

/-- A turn that is followed by another has executed a plan. -/
theorem executes_of_turns (h : Turns inv world q q') :
    ∃ plan fuel result, Executes inv world q plan ∧
      (q.ready inv plan).execute inv world fuel plan = .ok result ∧
      q' = (q.ready inv plan).executed result := by
  obtain ⟨-, fuel, hturn⟩ := h
  by_cases hexecutes : ∃ plan, Executes inv world q plan
  · obtain ⟨plan, hexecutes⟩ := hexecutes
    rw [turn_of_executes hexecutes] at hturn
    cases hresult : (q.ready inv plan).execute inv world fuel plan with
    | error stop => simp [hresult] at hturn
    | ok result =>
      simp only [hresult] at hturn
      split_ifs at hturn
      · simp at hturn
      · exact ⟨plan, fuel, result, hexecutes, hresult, (Prod.mk.inj hturn).1.symm⟩
  · rcases turn_of_not_executes hexecutes with ⟨_, message, -, hall⟩ | ⟨_, _, -, -, -, -, -, hall⟩
    · simp [hall fuel] at hturn
    · simp [hall fuel] at hturn

/-- Every plan that the investigation executes is fresh, and its run comes to an end. -/
def Orderly (inv : MultiStepInvestigator) (world : World) (state : AgentState) : Prop :=
  ∀ q, Reached inv world state q → q.iteration < inv.maxIterations →
    ∀ plan, Executes inv world q plan → Fresh q plan ∧
      PlanOk inv.orchestrator (world.round q.iteration) (q.ready inv plan).state plan

/-- **Every state of an orderly investigation has its ledger in order.** -/
theorem ledger_of_reached {state : AgentState} (horderly : Orderly inv world state)
    (h : Reached inv world state q) : Ledger q := by
  induction h with
  | refl => exact ledger_start state
  | @tail q q' hreached hturns ih =>
    obtain ⟨plan, fuel, result, hexecutes, hresult, rfl⟩ := executes_of_turns hturns
    exact ih.executed hexecutes (horderly q hreached hturns.1 plan hexecutes).1 hresult

/-! ## The result -/

/-- What is promised of a result: the number of summaries, no step that two of them have
completed, and that a success means that the planner's last plan had nothing unfinished. -/
structure Promised (inv : MultiStepInvestigator) (q : Inquiry) (result : InvestigationResult) :
    Prop where
  bounded : result.history.length ≤ inv.maxIterations
  once : ∀ sid, result.history.countP (·.completes sid) ≤ 1
  nothingNew : result.success = true → ∃ plan, q.answers.getLast?.bind (·.plan) = some plan ∧
    ∀ s ∈ plan.steps, s.stepId ∈ result.history.flatMap (·.finishedIds)

theorem Ledger.promised (h : Ledger q) (hle : q.iteration ≤ inv.maxIterations) (message : String)
    (q' : Inquiry) : Promised inv q' (q.halted message) where
  bounded := by
    rw [Inquiry.halted, h.turns]
    exact hle
  once := h.once
  nothingNew := by simp [Inquiry.halted]

/-- The planner has nothing new: its last plan has finished steps only. -/
theorem Ledger.promised_of_leave (h : Ledger q) (hlt : q.iteration < inv.maxIterations)
    {answer : PlanningResult} (hhistory : q'.history = q.history)
    (hiteration : q'.iteration = q.iteration) (hanswers : q'.answers = q.answers ++ [answer])
    (hplan : answer.plan = some plan) (hnone : q.newStepsOf plan = []) :
    ∃ result, conclude inv q' = .ok result ∧ Promised inv q' result := by
  refine ⟨_, by rw [conclude, if_pos (hiteration ▸ hlt)], ?_, ?_, fun _ => ⟨plan, ?_, ?_⟩⟩
  · rw [hhistory, h.turns]
    exact hlt.le
  · rw [hhistory]
    exact h.once
  · simp [hanswers, hplan]
  · intro s hs
    rw [hhistory, ← h.finished]
    by_contra hnew
    have hmem : s ∈ q.newStepsOf plan := List.mem_filter.2 ⟨hs, by simpa using hnew⟩
    rw [hnone] at hmem
    cases hmem

/-- **A run of turns** from a state of an orderly investigation has a result, as promised. -/
theorem investigateLoop_returns {state : AgentState} (horderly : Orderly inv world state)
    (hmax : 0 < inv.maxIterations) (n : ℕ) (q : Inquiry) (hreached : Reached inv world state q)
    (hleft : q.iteration + n = inv.maxIterations) :
    ∃ least q' result, (∀ fuel, least ≤ fuel → investigateLoop inv world fuel n q = (q', .ok result)) ∧
      Promised inv q' result := by
  induction n generalizing q with
  | zero =>
    have hledger := ledger_of_reached horderly hreached
    obtain ⟨s, rest, hsteps⟩ := hledger.assigned (by omega)
    refine ⟨0, q, q.halted "Halted: reached iteration limit.", fun fuel _ => ?_,
      hledger.promised (by omega) _ q⟩
    rw [investigateLoop, conclude, if_neg (by omega), if_pos (by omega), hsteps]
  | succ n ih =>
    have hledger := ledger_of_reached horderly hreached
    have hlt : q.iteration < inv.maxIterations := by omega
    by_cases hexecutes : ∃ plan, Executes inv world q plan
    · obtain ⟨plan, hexecutes⟩ := hexecutes
      obtain ⟨hfresh, hok⟩ := horderly q hreached hlt plan hexecutes
      obtain ⟨least, result, hresult⟩ := planOk_iff.1 hok
      -- the run of the plan is the same with any fuel from `least` on
      have hsame : ∀ fuel, least ≤ fuel →
          (q.ready inv plan).execute inv world fuel plan = .ok result :=
        fun fuel hfuel => executePlan_mono hfuel hresult
      have hledger' := hledger.executed hexecutes hfresh (hsame least le_rfl)
      by_cases hhalts : result.summary.completedSteps = 0 ∧ 0 < result.summary.failedSteps
      · refine ⟨least, (q.ready inv plan).executed result, _, fun fuel hfuel => ?_,
          hledger'.promised hlt zeroCompleted _⟩
        rw [investigateLoop, turn_of_executes hexecutes, hsame fuel hfuel]
        simp only [if_pos hhalts]
      · have hagain : ∀ fuel, least ≤ fuel →
            turn inv world fuel q = ((q.ready inv plan).executed result, .again) := by
          intro fuel hfuel
          rw [turn_of_executes hexecutes, hsame fuel hfuel]
          simp only [if_neg hhalts]
        obtain ⟨least', q', final, hloop, hpromised⟩ := ih ((q.ready inv plan).executed result)
          (hreached.tail ⟨hlt, least, hagain least le_rfl⟩)
          (by rw [Nat.add_comm n 1, ← Nat.add_assoc] at hleft; exact hleft)
        refine ⟨max least least', q', final, fun fuel hfuel => ?_, hpromised⟩
        rw [investigateLoop, hagain fuel (le_of_max_le_left hfuel)]
        exact hloop fuel (le_of_max_le_right hfuel)
    · rcases turn_of_not_executes hexecutes with
        ⟨q', message, -, hturn⟩ | ⟨q', plan, hhistory, hiteration, hanswers, hplan, hnone, hturn⟩
      · refine ⟨0, q', _, fun fuel _ => ?_, hledger.promised hlt.le message q'⟩
        rw [investigateLoop, hturn fuel]
      · obtain ⟨result, hresult, hpromised⟩ :=
          hledger.promised_of_leave hlt hhistory hiteration hanswers hplan hnone
        refine ⟨0, q', result, fun fuel _ => ?_, hpromised⟩
        rw [investigateLoop, hturn fuel, ← hresult]

/-- **An orderly investigation never repeats a finished step.**  It needs a turn to begin
with. -/
theorem investigation_never_repeats (inv : MultiStepInvestigator) (world : World)
    (state : AgentState) (hmax : 0 < inv.maxIterations) (horderly : Orderly inv world state) :
    ∃ least q result,
      (∀ fuel, least ≤ fuel → investigate inv world fuel state = (q, .ok result)) ∧
        Promised inv q result :=
  investigateLoop_returns horderly hmax inv.maxIterations (.start state) .refl (Nat.zero_add _)

/-! ## A planner that adds to its plan -/

/-- Tools that complete. -/
def steadyWorld : World where
  attempt _ stepId _ := .ok ⟨stepId, .completed, ∅, [], [], none, none⟩
  sleep _ _ _ _ := .ok ()
  cancelRequested := none
  report _ _ _ := ""
  reprTuple _ := ""

/-- A plan that starts with the parser. -/
def parserPlan (more : List ExecutionStep) : ExecutionPlan :=
  ⟨"Analyse the email.", .sequential, plainStep "parser_tool" 1 [] fits_parserTool one_le_first :: more, 1,
    fits_goal, mem_certain⟩

/-- An investigator whose planner answers with the plans of `plans`. -/
def planning (plans : ℕ → ExecutionPlan) (maxIterations : ℕ) : MultiStepInvestigator where
  planner iteration _ :=
    ⟨some (plans iteration), ⟨"groq", "model", ∅, PlannerService.fits_groq, by decide⟩, .none,
      true, none⟩
  orchestrator := .create id sampleRegistry
  maxIterations := maxIterations

/-- The planner proposes the same plan again. -/
def contentInvestigator : MultiStepInvestigator := planning (fun _ => parserPlan []) 2

/-- After the parser, the planner also wants the URL tool. -/
def growingInvestigator : MultiStepInvestigator :=
  planning (fun iteration => parserPlan
    (if iteration = 0 then [] else [plainStep "url_tool" 2 [] fits_urlTool one_le_second])) 3

theorem orderly_contentInvestigator :
    Orderly contentInvestigator steadyWorld (.create none "state") := by
  -- with any fuel at all the parser completes, and then there is nothing new
  have hfirst : ∀ fuel, turn contentInvestigator steadyWorld (fuel + 1) (.start (.create none "state")) =
      ((turn contentInvestigator steadyWorld 1 (.start (.create none "state"))).1, .again) :=
    fun fuel => rfl
  have hnone : ∀ fuel, (turn contentInvestigator steadyWorld fuel
      (turn contentInvestigator steadyWorld 1 (.start (.create none "state"))).1).2 = .leave :=
    fun fuel => rfl
  have hreached : ∀ q, Reached contentInvestigator steadyWorld (.create none "state") q →
      q = .start (.create none "state") ∨
        q = (turn contentInvestigator steadyWorld 1 (.start (.create none "state"))).1 := by
    intro q h
    induction h with
    | refl => exact .inl rfl
    | @tail q q' _ hturns ih =>
      obtain ⟨-, fuel, hturn⟩ := hturns
      rcases ih with rfl | rfl
      · cases fuel with
        | zero => cases (Prod.mk.inj hturn).2
        | succ fuel =>
          rw [hfirst fuel] at hturn
          exact .inr (Prod.mk.inj hturn).1.symm
      · have hleave := hnone fuel
        rw [hturn] at hleave
        cases hleave
  intro q hq _ plan hexecutes
  rcases hreached q hq with rfl | rfl
  · obtain rfl : parserPlan [] = plan := Option.some.inj hexecutes.proposed
    exact ⟨by simp [Fresh, Inquiry.start], planOk_iff.2 ⟨1, _, rfl⟩⟩
  · obtain rfl : parserPlan [] = plan := Option.some.inj hexecutes.proposed
    exact absurd rfl hexecutes.unfinished

theorem never_repeats_contentInvestigator :
    0 < contentInvestigator.maxIterations ∧
      Orderly contentInvestigator steadyWorld (.create none "state") ∧
      ∃ least q result, (∀ fuel, least ≤ fuel →
          investigate contentInvestigator steadyWorld fuel (.create none "state") = (q, .ok result)) ∧
        Promised contentInvestigator q result :=
  ⟨by decide, orderly_contentInvestigator,
    investigation_never_repeats _ _ _ (by decide) orderly_contentInvestigator⟩

/-- The parser is completed in two summaries: the second plan is executed as a whole. -/
theorem parser_completes_twice :
    ¬∃ least q result, (∀ fuel, least ≤ fuel →
        investigate growingInvestigator steadyWorld fuel (.create none "state") = (q, .ok result)) ∧
      Promised growingInvestigator q result := by
  rintro ⟨least, q, result, hruns, hpromised⟩
  have htwice : ((investigate growingInvestigator steadyWorld (least + 1) (.create none "state")).2.map
      fun r => r.history.countP (·.completes "parser_tool")) = .ok 2 := rfl
  rw [hruns (least + 1) (Nat.le_succ least)] at htwice
  have hcount : result.history.countP (·.completes "parser_tool") = 2 := Except.ok.inj htwice
  have honce := hpromised.once "parser_tool"
  omega

end ScamOn.Planner
