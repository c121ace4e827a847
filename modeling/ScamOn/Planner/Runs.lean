import ScamOn.Planner.Orchestration

/-!
# Runs of a plan

What a whole run of `execute_plan` leaves behind, from what one step adds to it.

* `executePlan_returns_iff`: a run comes to its end exactly if every step is in order in
  the state that the steps before it lead to.
* `Adds` is what one step adds, and `Accounted` what it adds up to: one record for each
  step, the calls of its tool, and the growth of history and errors.
* `survives_iff`: when a plan that may come from anywhere can neither crash nor hang the
  executor.
* `stepsAccounted_iff`: when the run of an ordinary plan accounts for every step.
-/

namespace ScamOn.Planner

variable {orch : PlannerOrchestrator} {env : Environment} {sorted : List ExecutionStep}
  {run run' : Run} {step : ExecutionStep}

/-! ## What one step adds -/

/-- **When a plan that can be sorted comes to its end**: every step is in order, in the state
that the steps before it lead to. -/
theorem executePlan_returns_iff {state : AgentState} {plan : ExecutionPlan}
    (hsort : topologicalSort plan.steps state = .ok sorted) :
    (∃ fuel result, (executePlan orch env fuel state plan).2 = .ok result) ↔
      Loop.Throughout (Effect orch env sorted) (StepOk orch env sorted) (.start state) sorted := by
  have hgets : Loop.Gets (stepBody orch env sorted) = Effect orch env sorted := by
    funext run step run'
    exact propext gets_iff_effect
  rw [← hgets, ← Loop.forEach_ends_iff stepBody_mono (fun run step => exists_gets_iff)]
  simp only [executePlan, hsort]
  refine exists_congr fun fuel => ?_
  exact exists_map_eq_ok_iff

/-- The result that a completed record stands for. -/
def stored (env : Environment) (r : StepExecutionRecord) : Option ToolResult :=
  completion (env.attempt r.stepId r.retryCount)

/-- How often the tool of a record was called. -/
def callsOf (orch : PlannerOrchestrator) (r : StepExecutionRecord) : ℕ :=
  if orch.registry.hasTool r.toolName && (r.status = .completed || r.status = .failed) then
    r.retryCount + 1
  else 0

/-- What a record adds to the errors of the agent state. -/
def newErrors (env : Environment) (r : StepExecutionRecord) : List ToolErrorInfo :=
  match r.status, stored env r with
  | .failed, _ =>
    (ToolErrorInfo.create env.report "tool_execution_failed" (failureMessage r)
      [("tool_name", .str r.toolName), ("step_id", .str r.stepId)]
        fits_toolExecutionFailed).toOption.toList
  | .completed, some result =>
    if Fits 1 128 result.toolName then result.error.toList
    else
      (ToolErrorInfo.create env.report "propagation_error"
        (env.report "ExecutionRecord" "tool_name" result.toolName) []
        fits_propagationError).toOption.toList
  | _, _ => []

/-- The data of a record of the history. -/
def historyKey (h : ExecutionRecord) : ℕ × String × ToolExecutionStatus × List (String × PyValue) :=
  (h.stepNumber, h.toolName, h.status, h.details)

/-- What a record adds to the history of the agent state, but for its number. -/
def newHistory (env : Environment) (r : StepExecutionRecord) :
    Option (String × ToolExecutionStatus × List (String × PyValue)) :=
  match r.status, stored env r with
  | .completed, some result =>
    if Fits 1 128 result.toolName then
      some (result.toolName, result.status,
        [("requested_tool", .str r.toolName), ("step_id", .str r.stepId)])
    else none
  | _, _ => none

/-- The record is one of the step: it was cancelled, skipped, or handed to its tool. -/
def RecordOf (orch : PlannerOrchestrator) (env : Environment) (step : ExecutionStep)
    (r : StepExecutionRecord) : Prop :=
  (∃ text, r = step.record .cancelled (some text) 0) ∨
    (∃ text, r = step.record .skipped (some text) 0) ∨
    ∃ calls toolResult, Executed orch env step calls r toolResult

theorem RecordOf.stepId_eq {r : StepExecutionRecord} (h : RecordOf orch env step r) :
    r.stepId = step.stepId ∧ r.toolName = step.tool := by
  rcases h with ⟨text, rfl⟩ | ⟨text, rfl⟩ | ⟨calls, toolResult, hexecuted⟩
  · exact ⟨rfl, rfl⟩
  · exact ⟨rfl, rfl⟩
  · cases hexecuted <;> exact ⟨rfl, rfl⟩

/-- **What one step adds to a run.** -/
structure Adds (orch : PlannerOrchestrator) (env : Environment) (run : Run) (step : ExecutionStep)
    (r : StepExecutionRecord) (run' : Run) : Prop where
  recordOf : RecordOf orch env step r
  records : run'.records = run.records ++ [r]
  statusMap : run'.statusMap = run.statusMap.set step.stepId r.status
  calls : run'.calls = run.calls ++ List.replicate (callsOf orch r) step.stepId
  errors : run'.state.errors = run.state.errors ++ newErrors env r
  history : ∃ new, run'.state.executionHistory = run.state.executionHistory ++ new ∧
    new.map historyKey =
      (newHistory env r).toList.map fun x => (run.state.executionHistory.length + 1, x)
  fits : r.status = .failed → Fits 1 1024 (failureMessage r)

/-- A failed step adds its text to the errors. -/
theorem propagate_failed_eq_ok {report : ValidationReport} {state state' : AgentState} {k : ℕ}
    {text : String} {toolResult : Option ToolResult}
    (h : propagate report state step (step.record .failed (some text) k) toolResult = .ok state') :
    state'.executionHistory = state.executionHistory ∧
      state'.errors = state.errors ++ (ToolErrorInfo.create report "tool_execution_failed"
        (failureMessage (step.record .failed (some text) k))
        [("tool_name", .str step.tool), ("step_id", .str step.stepId)]
        fits_toolExecutionFailed).toOption.toList := by
  simp only [propagate, ExecutionStep.record] at h ⊢
  cases hcreate : ToolErrorInfo.create report "tool_execution_failed"
      (failureMessage ⟨step.stepId, step.tool, .failed, some text, k, step.estimatedCost,
        step.estimatedValue⟩)
      [("tool_name", .str step.tool), ("step_id", .str step.stepId)] fits_toolExecutionFailed with
  | error e =>
    rw [hcreate] at h
    cases h
  | ok info =>
    rw [hcreate] at h
    cases h
    exact ⟨rfl, rfl⟩

/-- A completed step adds its result, or the report of a name that a record does not take. -/
theorem propagate_completed_eq_ok {report : ValidationReport} {state state' : AgentState} {k : ℕ}
    {result : ToolResult}
    (h : propagate report state step (step.record .completed none k) (some result) = .ok state') :
    (∃ hfits : Fits 1 128 result.toolName, state' = state.recorded result
        ⟨state.executionHistory.length + 1, result.toolName, result.status,
          [("requested_tool", .str step.tool), ("step_id", .str step.stepId)], Nat.succ_pos _, hfits⟩) ∨
      ¬Fits 1 128 result.toolName ∧ ∃ info, ToolErrorInfo.create report "propagation_error"
        (report "ExecutionRecord" "tool_name" result.toolName) [] fits_propagationError = .ok info ∧
          state' = state.withError info := by
  simp only [propagate, ExecutionStep.record] at h
  by_cases hfits : Fits 1 128 result.toolName
  · rw [AgentState.withToolResult, dif_pos hfits] at h
    cases h
    exact .inl ⟨hfits, rfl⟩
  · rw [AgentState.withToolResult, dif_neg hfits] at h
    dsimp only at h
    cases hcreate : ToolErrorInfo.create report "propagation_error"
        (report "ExecutionRecord" "tool_name" result.toolName) [] fits_propagationError with
    | error e =>
      rw [hcreate] at h
      cases h
    | ok info =>
      rw [hcreate] at h
      cases h
      exact .inr ⟨hfits, info, rfl, rfl⟩

theorem adds_of_effect (h : Effect orch env sorted run step run') :
    ∃ r, Adds orch env run step r run' := by
  cases h with
  | cancelled _ =>
    exact ⟨_, .inl ⟨_, rfl⟩, rfl, rfl, by simp [callsOf, ExecutionStep.record, Run.note],
      by simp [newErrors, ExecutionStep.record, Run.note],
      ⟨[], by simp [newHistory, ExecutionStep.record, Run.note]⟩, by simp [ExecutionStep.record]⟩
  | blocked _ _ =>
    exact ⟨_, .inl ⟨_, rfl⟩, rfl, rfl, by simp [callsOf, ExecutionStep.record, Run.note],
      by simp [newErrors, ExecutionStep.record, Run.note],
      ⟨[], by simp [newHistory, ExecutionStep.record, Run.note]⟩, by simp [ExecutionStep.record]⟩
  | skipped _ _ =>
    exact ⟨_, .inr (.inl ⟨_, rfl⟩), rfl, rfl, by simp [callsOf, ExecutionStep.record, Run.note],
      by simp [newErrors, ExecutionStep.record, Run.note],
      ⟨[], by simp [newHistory, ExecutionStep.record, Run.note]⟩, by simp [ExecutionStep.record]⟩
  | @executed calls r toolResult state hreaches hexecuted hpropagate =>
    cases hexecuted with
    | unregistered hnot =>
      obtain ⟨hhistory, herrors⟩ := propagate_failed_eq_ok hpropagate
      exact ⟨_, .inr (.inr ⟨0, none, .unregistered hnot⟩), rfl, rfl,
        by simp [callsOf, ExecutionStep.record, hnot], herrors,
        ⟨[], by simpa using hhistory, by simp [newHistory, ExecutionStep.record]⟩,
        fun _ => (fits_failureMessage_iff _ _ _).2 (length_unregistered_le step)⟩
    | exhausted k hhas hallows hfailed hstops =>
      obtain ⟨hhistory, herrors⟩ := propagate_failed_eq_ok hpropagate
      exact ⟨_, .inr (.inr ⟨k + 1, none, .exhausted k hhas hallows hfailed hstops⟩), rfl, rfl,
        by simp [callsOf, ExecutionStep.record, hhas], herrors,
        ⟨[], by simpa using hhistory, by simp [newHistory, ExecutionStep.record]⟩,
        fun _ => (fits_failureMessage_iff _ _ _).2
          ((propagate_failed_iff _ _ _ _ _ _).1 ⟨_, hpropagate⟩)⟩
    | completed k result hhas hallows hfailed hresult =>
      refine ⟨_, .inr (.inr ⟨k + 1, some result, .completed k result hhas hallows hfailed hresult⟩),
        rfl, rfl, by simp [callsOf, ExecutionStep.record, hhas], ?_, ?_, by simp [ExecutionStep.record]⟩
      · rcases propagate_completed_eq_ok hpropagate with ⟨hfits, rfl⟩ | ⟨hfits, info, hinfo, rfl⟩
        · simp [newErrors, stored, ExecutionStep.record, hresult, hfits, AgentState.recorded]
        · simp [newErrors, stored, ExecutionStep.record, hresult, hfits, AgentState.withError, hinfo,
            Except.toOption]
      · rcases propagate_completed_eq_ok hpropagate with ⟨hfits, rfl⟩ | ⟨hfits, info, -, rfl⟩
        · exact ⟨[_], rfl, by
            simp [newHistory, stored, ExecutionStep.record, hresult, hfits, historyKey]⟩
        · exact ⟨[], by simp [AgentState.withError], by
            simp [newHistory, stored, ExecutionStep.record, hresult, hfits]⟩

/-! ## What a run adds up to -/

/-- **The account of a run**, after the steps `done`. -/
structure Accounted (orch : PlannerOrchestrator) (env : Environment) (state : AgentState)
    (done : List ExecutionStep) (run : Run) : Prop where
  records : List.Forall₂ (RecordOf orch env) done run.records
  status : ∀ r ∈ run.records, run.statusMap.get? r.stepId = some r.status
  unseen : ∀ sid, sid ∉ done.map (·.stepId) → run.statusMap.get? sid = none
  calls : run.calls = run.records.flatMap fun r => List.replicate (callsOf orch r) r.stepId
  errors : run.state.errors = state.errors ++ run.records.flatMap (newErrors env)
  history : ∃ new, run.state.executionHistory = state.executionHistory ++ new ∧
    new.map historyKey = (run.records.filterMap (newHistory env)).mapIdx
      fun i x => (state.executionHistory.length + i + 1, x)
  fits : ∀ r ∈ run.records, r.status = .failed → Fits 1 1024 (failureMessage r)

variable {state : AgentState} {done : List ExecutionStep}

theorem map_stepId_records {records : List StepExecutionRecord}
    (h : List.Forall₂ (RecordOf orch env) done records) :
    records.map (·.stepId) = done.map (·.stepId) := by
  induction h with
  | nil => rfl
  | cons hfirst _ ih => rw [List.map_cons, List.map_cons, ih, hfirst.stepId_eq.1]

theorem Accounted.ids (h : Accounted orch env state done run) :
    run.records.map (·.stepId) = done.map (·.stepId) := map_stepId_records h.records

/-- A step is not among those before it. -/
theorem stepId_notMem_of_split {rest : List ExecutionStep}
    (hnodup : (sorted.map (·.stepId)).Nodup) (hsplit : sorted = done ++ step :: rest) :
    step.stepId ∉ done.map (·.stepId) := by
  rw [hsplit, List.map_append, List.map_cons] at hnodup
  exact fun hmem => List.disjoint_of_nodup_append hnodup hmem (by simp)

theorem accounted_start (state : AgentState) : Accounted orch env state [] (.start state) where
  records := .nil
  status := by simp [Run.start]
  unseen := by simp [Run.start]
  calls := rfl
  errors := by simp [Run.start]
  history := ⟨[], by simp [Run.start], rfl⟩
  fits := by simp [Run.start]

/-- **One more step keeps the account.** -/
theorem Accounted.snoc (h : Accounted orch env state done run) {r : StepExecutionRecord}
    (hnew : step.stepId ∉ done.map (·.stepId)) (hadds : Adds orch env run step r run') :
    Accounted orch env state (done ++ [step]) run' where
  records := by
    rw [hadds.records]
    exact List.rel_append h.records (.cons hadds.recordOf .nil)
  status := by
    intro r' hr'
    rw [hadds.statusMap, Dict.get?_set]
    rw [hadds.records, List.mem_append, List.mem_singleton] at hr'
    rcases hr' with hr' | rfl
    · have hne : r'.stepId ≠ step.stepId := by
        rintro heq
        refine hnew ?_
        rw [← h.ids, ← heq]
        exact List.mem_map_of_mem hr'
      rw [if_neg hne, h.status r' hr']
    · rw [if_pos hadds.recordOf.stepId_eq.1]
  unseen := by
    intro sid hsid
    simp only [List.map_append, List.map_singleton, List.mem_append, List.mem_singleton,
      not_or] at hsid
    rw [hadds.statusMap, Dict.get?_set_of_ne _ _ hsid.2, h.unseen sid hsid.1]
  calls := by
    rw [hadds.calls, hadds.records, h.calls]
    simp [hadds.recordOf.stepId_eq.1]
  errors := by
    rw [hadds.errors, hadds.records, h.errors]
    simp
  history := by
    obtain ⟨new, hhistory, hkeys⟩ := h.history
    obtain ⟨new', hhistory', hkeys'⟩ := hadds.history
    have hlength : new.length = (run.records.filterMap (newHistory env)).length := by
      simpa using congrArg List.length hkeys
    refine ⟨new ++ new', by rw [hhistory', hhistory, List.append_assoc], ?_⟩
    rw [List.map_append, hkeys, hkeys', hadds.records, List.filterMap_append, List.mapIdx_append,
      hhistory, List.length_append, hlength]
    cases hone : newHistory env r with
    | none => simp [hone]
    | some x => simp [hone, Nat.add_assoc]
  fits := by
    intro r' hr'
    rw [hadds.records, List.mem_append, List.mem_singleton] at hr'
    rcases hr' with hr' | rfl
    · exact h.fits r' hr'
    · exact hadds.fits

/-- **The account of a whole run**, and its result. -/
theorem accounted_of_executePlan {plan : ExecutionPlan} {fuel : ℕ} {result : OrchestrationResult}
    (hsort : topologicalSort plan.steps state = .ok sorted)
    (h : executePlan orch env fuel state plan = (run, .ok result)) :
    Accounted orch env state sorted run ∧ result = run.result plan := by
  obtain ⟨hnodup, -, hperm, -⟩ := topologicalSort_eq_ok hsort
  have hsorted : (sorted.map (·.stepId)).Nodup := (hperm.map _).nodup_iff.2 hnodup
  have hok : ∀ done a rest run run' b, sorted = done ++ a :: rest → Accounted orch env state done run →
      stepBody orch env sorted fuel run a = (run', .ok b) →
        Accounted orch env state (done ++ [a]) run' := by
    intro done a rest run run' b hsplit hrun hbody
    obtain ⟨r, hadds⟩ := adds_of_effect (gets_iff_effect.1 ⟨fuel, b, hbody⟩)
    exact hrun.snoc (stepId_notMem_of_split hsorted hsplit) hadds
  have hinv := Loop.forEach_inv_prefix (J := fun _ => True) hok
    (fun _ _ _ _ _ _ _ _ _ => trivial) (accounted_start state)
  simp only [executePlan, hsort] at h
  rcases hloop : Loop.forEach (stepBody orch env sorted fuel) (.start state) sorted with
    ⟨final, e | bs⟩
  · rw [hloop] at h
    simp [Except.map] at h
  · rw [hloop] at h hinv
    simp only [Except.map, Prod.mk.injEq, Except.ok.injEq] at h
    obtain ⟨rfl, rfl⟩ := h
    exact ⟨hinv.1 bs rfl, rfl⟩

theorem exists_step_of_mem {records : List StepExecutionRecord}
    (h : List.Forall₂ (RecordOf orch env) done records) {r : StepExecutionRecord} (hr : r ∈ records) :
    ∃ s ∈ done, RecordOf orch env s r := by
  induction h with
  | nil => cases hr
  | @cons s r' done records hfirst _ ih =>
    rcases List.mem_cons.1 hr with rfl | hr
    · exact ⟨s, by simp, hfirst⟩
    · obtain ⟨s', hs', hrecord⟩ := ih hr
      exact ⟨s', by simp [hs'], hrecord⟩

/-- The record of a step, by its identifier. -/
theorem Accounted.recordOf (h : Accounted orch env state done run)
    (hnodup : (done.map (·.stepId)).Nodup) {s : ExecutionStep} (hs : s ∈ done)
    {r : StepExecutionRecord} (hr : r ∈ run.records) (hid : r.stepId = s.stepId) :
    RecordOf orch env s r := by
  obtain ⟨s', hs', hrecord⟩ := exists_step_of_mem h.records hr
  have heq : s' = s := List.inj_on_of_nodup_map hnodup hs' hs (hrecord.stepId_eq.1.symm.trans hid)
  rwa [heq] at hrecord

theorem count_flatMap_replicate {records : List StepExecutionRecord} {n : StepExecutionRecord → ℕ}
    (hnodup : (records.map (·.stepId)).Nodup) {r : StepExecutionRecord} (hr : r ∈ records) :
    (records.flatMap fun r => List.replicate (n r) r.stepId).count r.stepId = n r := by
  induction records with
  | nil => cases hr
  | cons r' rest ih =>
    rw [List.map_cons, List.nodup_cons] at hnodup
    rw [List.flatMap_cons, List.count_append]
    rcases List.mem_cons.1 hr with rfl | hr
    · have hnone : (rest.flatMap fun r => List.replicate (n r) r.stepId).count r.stepId = 0 := by
        rw [List.count_eq_zero, List.mem_flatMap]
        rintro ⟨r', hr', hmem⟩
        refine hnodup.1 ?_
        rw [(List.mem_replicate.1 hmem).2]
        exact List.mem_map_of_mem hr'
      rw [hnone, List.count_replicate_self, Nat.add_zero]
    · have hne : r'.stepId ≠ r.stepId := by
        intro heq
        rw [heq] at hnodup
        exact hnodup.1 (List.mem_map_of_mem hr)
      rw [ih hnodup.2 hr, List.count_replicate]
      simp [hne]

/-- A tool was called as often as the record of its step says. -/
theorem Accounted.count_calls (h : Accounted orch env state done run)
    (hnodup : (done.map (·.stepId)).Nodup) {r : StepExecutionRecord} (hr : r ∈ run.records) :
    run.calls.count r.stepId = callsOf orch r := by
  rw [h.calls]
  exact count_flatMap_replicate (by rwa [h.ids]) hr

/-! ## Plans from anywhere -/

/-- **The executor survives a plan**: the run ends with a result; a tool that was called and
never completed has a `FAILED` record, and every such record an entry among the errors. -/
def Survives (orch : PlannerOrchestrator) (env : Environment) (state : AgentState)
    (plan : ExecutionPlan) : Prop :=
  ∃ fuel run result, executePlan orch env fuel state plan = (run, .ok result) ∧
    (∀ s ∈ plan.steps, s.stepId ∈ run.calls →
      (∀ i < run.calls.count s.stepId, completion (env.attempt s.stepId i) = none) →
        ∃ r ∈ result.summary.records, r.stepId = s.stepId ∧ r.status = .failed) ∧
    ∀ r ∈ result.summary.records, r.status = .failed → ∃ e ∈ result.state.errors,
      e.code = "tool_execution_failed" ∧ e.message = failureMessage r ∧
        e.metadata = [("tool_name", .str r.toolName), ("step_id", .str r.stepId)]

/-- A failed record adds one error. -/
theorem newErrors_failed {r : StepExecutionRecord} (hfailed : r.status = .failed)
    (hfits : Fits 1 1024 (failureMessage r)) :
    newErrors env r = [⟨"tool_execution_failed", failureMessage r,
      [("tool_name", .str r.toolName), ("step_id", .str r.stepId)], fits_toolExecutionFailed, hfits⟩] := by
  simp [newErrors, hfailed, ToolErrorInfo.create, hfits, Except.toOption]

/-- A step whose tool was called, and never completed, failed. -/
theorem Accounted.failed_of_called (h : Accounted orch env state done run)
    (hnodup : (done.map (·.stepId)).Nodup) {s : ExecutionStep} (hs : s ∈ done)
    (hcalled : s.stepId ∈ run.calls)
    (hnone : ∀ i < run.calls.count s.stepId, completion (env.attempt s.stepId i) = none) :
    ∃ r ∈ run.records, r.stepId = s.stepId ∧ r.status = .failed := by
  rw [h.calls, List.mem_flatMap] at hcalled
  obtain ⟨r, hr, hmem⟩ := hcalled
  obtain ⟨hpos, hid⟩ := List.mem_replicate.1 hmem
  have hcount := h.count_calls hnodup hr
  rw [← hid] at hcount
  refine ⟨r, hr, hid.symm, ?_⟩
  rcases h.recordOf hnodup hs hr hid.symm with ⟨text, rfl⟩ | ⟨text, rfl⟩ | ⟨calls, toolResult, hexecuted⟩
  · simp [callsOf, ExecutionStep.record] at hpos
  · simp [callsOf, ExecutionStep.record] at hpos
  · cases hexecuted with
    | unregistered _ => rfl
    | exhausted => rfl
    | completed k result hhas hallows hbefore hresult =>
      have hlt : k < run.calls.count s.stepId := by
        rw [hcount]
        simp [callsOf, ExecutionStep.record, hhas]
      rw [hnone k hlt] at hresult
      cases hresult

/-- **When the executor survives a plan**: identifiers repeat or the graph has a cycle, so that
nothing is run, or every step is in order in the state that the steps before it lead to. -/
theorem survives_iff (orch : PlannerOrchestrator) (env : Environment) (state : AgentState)
    (plan : ExecutionPlan) :
    Survives orch env state plan ↔
      ∀ sorted, topologicalSort plan.steps state = .ok sorted →
        Loop.Throughout (Effect orch env sorted) (StepOk orch env sorted) (.start state) sorted := by
  constructor
  · rintro ⟨fuel, run, result, hexec, -⟩ sorted hsort
    exact (executePlan_returns_iff hsort).1 ⟨fuel, result, by rw [hexec]⟩
  · intro h
    cases hsort : topologicalSort plan.steps state with
    | error e =>
      refine ⟨0, .start state, unsortable state plan, by simp [executePlan, hsort], ?_, ?_⟩
      · simp [Run.start]
      · simp [unsortable]
    | ok sorted =>
      obtain ⟨fuel, result, hresult⟩ := (executePlan_returns_iff hsort).2 (h sorted hsort)
      have hexec : executePlan orch env fuel state plan =
          ((executePlan orch env fuel state plan).1, .ok result) := by rw [← hresult]
      obtain ⟨haccount, rfl⟩ := accounted_of_executePlan hsort hexec
      obtain ⟨hnodup, -, hperm, -⟩ := topologicalSort_eq_ok hsort
      have hsorted : (sorted.map (·.stepId)).Nodup := (hperm.map _).nodup_iff.2 hnodup
      refine ⟨fuel, _, _, hexec, fun s hs hcalled hnone => ?_, fun r hr hfailed => ?_⟩
      · exact haccount.failed_of_called hsorted (hperm.mem_iff.2 hs) hcalled hnone
      · refine ⟨⟨"tool_execution_failed", failureMessage r,
          [("tool_name", .str r.toolName), ("step_id", .str r.stepId)], fits_toolExecutionFailed,
          haccount.fits r hr hfailed⟩, ?_, rfl, rfl, rfl⟩
        show _ ∈ (executePlan orch env fuel state plan).1.state.errors
        rw [haccount.errors, List.mem_append, List.mem_flatMap]
        refine .inr ⟨r, hr, ?_⟩
        rw [newErrors_failed hfailed (haccount.fits r hr hfailed)]
        exact List.mem_singleton.2 rfl

/-- A plan whose only step says `"max_retries": null`. -/
def nullRetries : ExecutionPlan :=
  ⟨"Analyse the email.", .full,
    [{ plainStep "parser_tool" 1 [] fits_parserTool one_le_first with
      retryPolicy := Dict.set ∅ "max_retries" (.other "NoneType") }], 1, fits_goal, mem_certain⟩

/-- `time.sleep`, if the clock reads so little that only the delay counts: it raises
`OverflowError` on 2^63 nanoseconds or more. -/
def boundedSleep : PyNumber → Except PyException Unit
  | .finite q =>
    if q * 10 ^ 9 < 2 ^ 63 then .ok ()
    else .error ⟨"OverflowError", "timestamp too large to convert to C PyTime_t"⟩
  | .inf => .error ⟨"OverflowError", "timestamp too large to convert to C PyTime_t"⟩
  | _ => .error ⟨"ValueError", "sleep length must be non-negative"⟩

/-- Every call of a tool raises. -/
def raisingTools : Environment where
  attempt _ _ := .error "boom"
  sleep _ _ := boundedSleep
  cancelRequested := none
  report _ _ _ := ""
  reprTuple _ := ""

/-- The number of retries is compared with `None`, outside of any `try`. -/
theorem nullRetries_crashes :
    ¬Survives (.create id sampleRegistry) raisingTools (.create none "state") nullRetries := by
  rintro ⟨fuel, run, result, hexec, -⟩
  have hsort : topologicalSort nullRetries.steps (.create none "state") = .ok nullRetries.steps := rfl
  obtain ⟨⟨-, hretries⟩, -⟩ := (executePlan_returns_iff hsort).1 ⟨fuel, result, by rw [hexec]⟩
  obtain ⟨k, a, -, -, hend, -⟩ := hretries ⟨⟨rfl, rfl⟩, rfl⟩ rfl
  cases a with
  | completed result => cases hend
  | exhausted text =>
    obtain ⟨-, ⟨m, r, hm, -⟩, -⟩ := hend
    cases hm

/-! ## Ordinary plans -/

/-- The tool of a step was called as its record says: not at all, unless it is registered and
was executed; then up to the first result that completed, and not more often than the policy
allows. -/
def CalledAsRecorded (orch : PlannerOrchestrator) (env : Environment) (run : Run)
    (s : ExecutionStep) (r : StepExecutionRecord) : Prop :=
  if orch.registry.hasTool s.tool = true ∧ (r.status = .completed ∨ r.status = .failed) then
    ∃ k, run.calls.count s.stepId = k + 1 ∧ (∀ m : ℤ, s.maxRetries = .int m → (k : ℤ) ≤ max 0 m) ∧
      (∀ i < k, completion (env.attempt s.stepId i) = none) ∧
      (r.status = .completed ↔ ∃ result, completion (env.attempt s.stepId k) = some result)
  else run.calls.count s.stepId = 0

/-- What a record adds to the errors if all results can be stored: one for a failure, and the
error that a result carries. -/
def ErrorsAsRecorded (env : Environment) (r : StepExecutionRecord) (new : List ToolErrorInfo) : Prop :=
  (r.status = .failed → ∃ e, new = [e] ∧ e.code = "tool_execution_failed" ∧
      e.message = failureMessage r ∧
      e.metadata = [("tool_name", .str r.toolName), ("step_id", .str r.stepId)]) ∧
    (r.status = .completed → ∃ result, stored env r = some result ∧ new = result.error.toList) ∧
    (r.status ≠ .failed → r.status ≠ .completed → new = [])

/-- The tool name of the result that a completed record stands for. -/
def storedName (env : Environment) (r : StepExecutionRecord) : String :=
  match stored env r with
  | some result => result.toolName
  | none => ""

/-- **The run accounts for every step**: it returns, with one record for each step in sorted
order; the counts add up; tools were called as the records say; the history grows by one
numbered record for each completed step, and the errors as the records say. -/
def StepsAccounted (orch : PlannerOrchestrator) (env : Environment) (state : AgentState)
    (plan : ExecutionPlan) : Prop :=
  ∃ fuel run result sorted, topologicalSort plan.steps state = .ok sorted ∧
    executePlan orch env fuel state plan = (run, .ok result) ∧
    result.summary.records.map (·.stepId) = sorted.map (·.stepId) ∧
    result.summary.totalSteps = result.summary.completedSteps + result.summary.failedSteps +
      result.summary.skippedSteps + result.summary.cancelledSteps ∧
    (∀ s ∈ plan.steps, ∀ r ∈ result.summary.records, r.stepId = s.stepId →
      CalledAsRecorded orch env run s r) ∧
    (∃ new, result.state.executionHistory = state.executionHistory ++ new ∧
      new.map historyKey = (result.summary.records.filter (·.status = .completed)).mapIdx fun i r =>
        (state.executionHistory.length + i + 1, storedName env r, .completed,
          [("requested_tool", .str r.toolName), ("step_id", .str r.stepId)])) ∧
    ∃ new, result.state.errors = state.errors ++ new.flatten ∧
      List.Forall₂ (ErrorsAsRecorded env) result.summary.records new

/-- A plan and its surroundings as the executor expects them: integers for the retries, numbers
for the delays, conditions that return, results that can be stored, and exceptions of at
most 1024 characters. -/
structure Ordinary (orch : PlannerOrchestrator) (env : Environment) (plan : ExecutionPlan) : Prop where
  nodup : (plan.steps.map (·.stepId)).Nodup
  acyclic : ¬DepthFirst.HasCycle (stepGraph plan.steps)
  maxRetries : ∀ s ∈ plan.steps, ∃ m : ℤ, s.maxRetries = .int m
  delay : ∀ s ∈ plan.steps, ∃ d, s.delay.number? = some d
  conditions : ∀ name evaluator, orch.conditionEvaluators.get? name = some evaluator →
    ∀ state, ∃ met, evaluator state = .ok met
  results : ∀ sid i result, env.attempt sid i = .ok result → Fits 1 128 result.toolName
  exceptions : ∀ sid i text, env.attempt sid i = .error text → text.length ≤ 1024

/-- Whenever a step is retried and its delay is positive, `time.sleep` returns. -/
def SleepOk (orch : PlannerOrchestrator) (env : Environment) (sorted : List ExecutionStep) (run : Run)
    (step : ExecutionStep) : Prop :=
  ReachesTool orch env sorted run step → orch.registry.hasTool step.tool = true →
    ∀ (i : ℕ) (m : ℤ) (d : PyNumber), (∀ j ≤ i, completion (env.attempt step.stepId j) = none) →
      step.maxRetries = .int m → i < m → step.delay.number? = some d →
        PyNumber.lt (.finite 0) d = true → env.sleep step.stepId i d = .ok ()

theorem rounds_int (m : ℤ) : (PyNumber.finite m).rounds = some m.toNat := by
  simp [PyNumber.rounds]

theorem exists_conditionsMet (hconditions : ∀ name evaluator,
    orch.conditionEvaluators.get? name = some evaluator → ∀ state, ∃ met, evaluator state = .ok met)
    (state : AgentState) (conditions : List String) :
    ∃ met, conditionsMet orch state conditions = .ok met := by
  induction conditions with
  | nil => exact ⟨true, rfl⟩
  | cons cond rest ih =>
    unfold conditionsMet
    cases hget : orch.conditionEvaluators.get? cond with
    | none => exact ⟨false, rfl⟩
    | some evaluator =>
      obtain ⟨_ | _, hmet⟩ := hconditions cond evaluator hget state
      · exact ⟨false, by simp [hmet]⟩
      · simpa [hmet] using ih

variable {plan : ExecutionPlan}

/-- The text of a failed attempt is not too long. -/
theorem Ordinary.length_failureText_le (h : Ordinary orch env plan) (sid : String) (i : ℕ) :
    (failureText (env.attempt sid i)).length ≤ 1024 := by
  unfold failureText
  split
  · split
    · rename_i error _
      exact error.message_fits.2
    · decide
  · rename_i text hattempt
    exact h.exceptions sid i text hattempt

theorem Ordinary.fits_of_completion (h : Ordinary orch env plan) {sid : String} {i : ℕ}
    {result : ToolResult} (hresult : completion (env.attempt sid i) = some result) :
    Fits 1 128 result.toolName ∧ result.status = .completed := by
  unfold completion at hresult
  split at hresult
  · rename_i result' hattempt
    split_ifs at hresult with hstatus
    cases hresult
    exact ⟨h.results sid i _ hattempt, hstatus⟩
  · cases hresult

/-- **In an ordinary plan only a delay can stop the run.** -/
theorem Ordinary.stepOk_iff (h : Ordinary orch env plan) {step : ExecutionStep}
    (hstep : step ∈ plan.steps) (sorted : List ExecutionStep) (run : Run) :
    StepOk orch env sorted run step ↔ SleepOk orch env sorted run step := by
  obtain ⟨m, hm⟩ := h.maxRetries step hstep
  obtain ⟨d, hd⟩ := h.delay step hstep
  have hnumber : step.maxRetries.number? = some (.finite m) := by rw [hm]; rfl
  constructor
  · rintro ⟨-, hretries⟩ hreaches hhas i m' d' hfailures hm' hi hd' hlt
    obtain rfl : m' = m := PyValue.int.inj (hm'.symm.trans hm)
    obtain rfl : d' = d := Option.some.inj (hd'.symm.trans hd)
    obtain ⟨k, a, hallows, hfailed, hend, -⟩ := hretries hreaches hhas
    have hik : i < k := by
      -- the attempts end neither with one that failed nor while the policy goes on
      by_contra hle
      cases a with
      | completed result =>
        rw [EndsWith, hfailures k (by omega)] at hend
        cases hend
      | exhausted text =>
        obtain ⟨-, ⟨x, r, hx, hr, hrk⟩, -⟩ := hend
        obtain rfl : x = .finite m' := Option.some.inj (hx.symm.trans hnumber)
        rw [rounds_int] at hr
        obtain rfl : m'.toNat = r := Option.some.inj hr
        omega
    rcases hallows with rfl | ⟨-, hpauses⟩
    · omega
    · obtain ⟨d₁, hd₁, hsleeps⟩ := hpauses i hik
      obtain rfl : d₁ = d' := Option.some.inj (hd₁.symm.trans hd)
      exact hsleeps hlt
  · intro hsleep
    refine ⟨fun _ => exists_conditionsMet h.conditions _ _, fun hreaches hhas => ?_⟩
    have hallows : ∀ k, (∀ i < k, completion (env.attempt step.stepId i) = none) → k ≤ m.toNat →
        Allows (env.sleep step.stepId) step.maxRetries step.delay k := by
      intro k hfailed hle
      rcases Nat.eq_zero_or_pos k with rfl | hpos
      · exact .inl rfl
      · refine .inr ⟨⟨_, hnumber, fun r hr => ?_⟩, fun i hi => ⟨d, hd, fun hlt => ?_⟩⟩
        · rw [rounds_int] at hr
          exact Option.some.inj hr ▸ hle
        · exact hsleep hreaches hhas i m d (fun j hj => hfailed j (by omega)) hm (by omega) hd hlt
    by_cases hsome : ∃ k, k ≤ m.toNat ∧ ∃ result, completion (env.attempt step.stepId k) = some result
    · classical
      obtain ⟨hle, result, hresult⟩ := Nat.find_spec hsome
      have hfailed : ∀ i < Nat.find hsome, completion (env.attempt step.stepId i) = none := by
        intro i hi
        have hmin := Nat.find_min hsome hi
        push Not at hmin
        exact Option.eq_none_iff_forall_ne_some.2 (hmin (by omega))
      exact ⟨_, .completed result, hallows _ hfailed hle, hfailed, hresult,
        .inl (h.fits_of_completion hresult).1⟩
    · push Not at hsome
      have hfailed : ∀ i ≤ m.toNat, completion (env.attempt step.stepId i) = none := fun i hi =>
        Option.eq_none_iff_forall_ne_some.2 (hsome i hi)
      exact ⟨m.toNat, .exhausted _, hallows _ (fun i hi => hfailed i hi.le) le_rfl,
        fun i hi => hfailed i hi.le,
        ⟨hfailed _ le_rfl, ⟨_, _, hnumber, rounds_int m, le_rfl⟩, rfl⟩, h.length_failureText_le _ _⟩

/-! ## The account of an ordinary plan -/

theorem status_of_recordOf {r : StepExecutionRecord} (h : RecordOf orch env step r) :
    r.status = .completed ∨ r.status = .failed ∨ r.status = .skipped ∨ r.status = .cancelled := by
  rcases h with ⟨text, rfl⟩ | ⟨text, rfl⟩ | ⟨calls, toolResult, hexecuted⟩
  · simp [ExecutionStep.record]
  · simp [ExecutionStep.record]
  · cases hexecuted <;> simp [ExecutionStep.record]

/-- The four counts add up to the number of records. -/
theorem countStatus_add {records : List StepExecutionRecord}
    (h : List.Forall₂ (RecordOf orch env) done records) :
    countStatus records .completed + countStatus records .failed + countStatus records .skipped +
      countStatus records .cancelled = done.length := by
  unfold countStatus
  induction h with
  | nil => rfl
  | @cons s r done records hfirst _ ih =>
    rw [List.length_cons, ← ih]
    simp only [List.countP_cons]
    rcases status_of_recordOf hfirst with hstatus | hstatus | hstatus | hstatus <;>
      simp [hstatus] <;> omega

/-- Tools are called as the records say. -/
theorem Accounted.calledAsRecorded (h : Accounted orch env state done run)
    (hnodup : (done.map (·.stepId)).Nodup) {s : ExecutionStep} (hs : s ∈ done)
    {r : StepExecutionRecord} (hr : r ∈ run.records) (hid : r.stepId = s.stepId) :
    CalledAsRecorded orch env run s r := by
  have hcount := h.count_calls hnodup hr
  rw [hid] at hcount
  have hbound : ∀ {k : ℕ}, Allows (env.sleep s.stepId) s.maxRetries s.delay k → ∀ m : ℤ, s.maxRetries = .int m →
      (k : ℤ) ≤ max 0 m := by
    rintro k (rfl | ⟨⟨x, hx, hle⟩, -⟩) m hm
    · simp
    · obtain rfl : x = .finite m := Option.some.inj (hx.symm.trans (by rw [hm]; rfl))
      have := hle _ (rounds_int m)
      omega
  unfold CalledAsRecorded
  rw [hcount]
  rcases h.recordOf hnodup hs hr hid with ⟨text, rfl⟩ | ⟨text, rfl⟩ | ⟨calls, toolResult, hexecuted⟩
  · simp [callsOf, ExecutionStep.record]
  · simp [callsOf, ExecutionStep.record]
  · cases hexecuted with
    | unregistered hnot => simp [callsOf, ExecutionStep.record, hnot]
    | completed k result hhas hallows hfailed hresult =>
      rw [if_pos ⟨hhas, .inl rfl⟩]
      refine ⟨k, by simp [callsOf, ExecutionStep.record, hhas], hbound hallows, hfailed, ?_⟩
      simp [ExecutionStep.record, hresult]
    | exhausted k hhas hallows hfailed hstops =>
      rw [if_pos ⟨hhas, .inr rfl⟩]
      refine ⟨k, by simp [callsOf, ExecutionStep.record, hhas], hbound hallows,
        fun i hi => hfailed i hi.le, ?_⟩
      simp [ExecutionStep.record, hfailed k le_rfl]

/-- A completed record stands for a result that was stored. -/
theorem Ordinary.stored_of_completed (h : Ordinary orch env plan) {r : StepExecutionRecord}
    (hrecord : RecordOf orch env step r) (hcompleted : r.status = .completed) :
    ∃ result, stored env r = some result ∧ Fits 1 128 result.toolName ∧ result.status = .completed := by
  rcases hrecord with ⟨text, rfl⟩ | ⟨text, rfl⟩ | ⟨calls, toolResult, hexecuted⟩
  · cases hcompleted
  · cases hcompleted
  · cases hexecuted with
    | unregistered _ => cases hcompleted
    | exhausted => cases hcompleted
    | completed k result _ _ _ hresult => exact ⟨result, hresult, h.fits_of_completion hresult⟩

theorem Ordinary.errorsAsRecorded (h : Ordinary orch env plan) {r : StepExecutionRecord}
    (hrecord : RecordOf orch env step r) (hfits : r.status = .failed → Fits 1 1024 (failureMessage r)) :
    ErrorsAsRecorded env r (newErrors env r) := by
  refine ⟨fun hfailed => ⟨_, newErrors_failed hfailed (hfits hfailed), rfl, rfl, rfl⟩,
    fun hcompleted => ?_, fun hfailed hcompleted => ?_⟩
  · obtain ⟨result, hstored, hname, -⟩ := h.stored_of_completed hrecord hcompleted
    exact ⟨result, hstored, by simp [newErrors, hcompleted, hstored, hname]⟩
  · rcases status_of_recordOf hrecord with hstatus | hstatus | hstatus | hstatus
    · exact absurd hstatus hcompleted
    · exact absurd hstatus hfailed
    · simp [newErrors, hstatus]
    · simp [newErrors, hstatus]

/-- What the records add to the history, in an ordinary plan. -/
theorem Ordinary.filterMap_newHistory (h : Ordinary orch env plan) {records : List StepExecutionRecord}
    (hrecords : List.Forall₂ (RecordOf orch env) done records) :
    records.filterMap (newHistory env) = (records.filter (·.status = .completed)).map fun r =>
      (storedName env r, .completed,
        [("requested_tool", .str r.toolName), ("step_id", .str r.stepId)]) := by
  induction hrecords with
  | nil => rfl
  | @cons s r done records hfirst _ ih =>
    by_cases hcompleted : r.status = .completed
    · obtain ⟨result, hstored, hname, hstatus⟩ := h.stored_of_completed hfirst hcompleted
      rw [List.filterMap_cons, List.filter_cons]
      simp [newHistory, storedName, hcompleted, hstored, hname, hstatus, ih]
    · have hnone : newHistory env r = none := by
        rcases status_of_recordOf hfirst with hs | hs | hs | hs
        · exact absurd hs hcompleted
        all_goals simp [newHistory, hs]
      rw [List.filterMap_cons_none hnone, ih, List.filter_cons_of_neg (by simpa using hcompleted)]

/-- **When the run of an ordinary plan accounts for every step**: exactly if `time.sleep` returns
whenever a step is retried after a positive delay. -/
theorem stepsAccounted_iff (orch : PlannerOrchestrator) (env : Environment) (state : AgentState)
    (plan : ExecutionPlan) (hordinary : Ordinary orch env plan) :
    StepsAccounted orch env state plan ↔
      ∀ sorted, topologicalSort plan.steps state = .ok sorted →
        Loop.Throughout (Effect orch env sorted) (SleepOk orch env sorted) (.start state) sorted := by
  obtain ⟨sorted, hsort⟩ := exists_topologicalSort_eq_ok hordinary.nodup hordinary.acyclic state
  obtain ⟨-, -, hperm, -⟩ := topologicalSort_eq_ok hsort
  have hsorted : (sorted.map (·.stepId)).Nodup := (hperm.map _).nodup_iff.2 hordinary.nodup
  have hiff : (∃ fuel result, (executePlan orch env fuel state plan).2 = .ok result) ↔
      Loop.Throughout (Effect orch env sorted) (SleepOk orch env sorted) (.start state) sorted := by
    rw [executePlan_returns_iff hsort]
    exact Loop.throughout_congr fun run step hstep =>
      hordinary.stepOk_iff (hperm.mem_iff.1 hstep) sorted run
  constructor
  · rintro ⟨fuel, run, result, sorted', hsort', hexec, -⟩ sorted'' hsort''
    obtain rfl : sorted'' = sorted := Except.ok.inj (hsort''.symm.trans hsort)
    exact hiff.1 ⟨fuel, result, by rw [hexec]⟩
  · intro h
    obtain ⟨fuel, result, hresult⟩ := hiff.2 (h sorted hsort)
    have hexec : executePlan orch env fuel state plan =
        ((executePlan orch env fuel state plan).1, .ok result) := by rw [← hresult]
    obtain ⟨haccount, rfl⟩ := accounted_of_executePlan hsort hexec
    refine ⟨fuel, _, _, sorted, hsort, hexec, haccount.ids, ?_, ?_, ?_, ?_⟩
    · show plan.steps.length = _
      rw [← hperm.length_eq, ← countStatus_add haccount.records]
      rfl
    · exact fun s hs r hr hid =>
        haccount.calledAsRecorded hsorted (hperm.mem_iff.2 hs) hr hid
    · obtain ⟨new, hhistory, hkeys⟩ := haccount.history
      refine ⟨new, hhistory, ?_⟩
      rw [hkeys, hordinary.filterMap_newHistory haccount.records, List.mapIdx_eq_iff]
      intro i
      simp [Run.result, Function.comp_def]
    · refine ⟨(executePlan orch env fuel state plan).1.records.map (newErrors env), ?_, ?_⟩
      · show (executePlan orch env fuel state plan).1.state.errors = _
        rw [haccount.errors, List.flatMap_def]
      · refine List.forall₂_map_right_iff.2 (List.forall₂_same.2 fun r hr => ?_)
        obtain ⟨s, -, hrecord⟩ := exists_step_of_mem haccount.records hr
        exact hordinary.errorsAsRecorded hrecord (haccount.fits r hr)

/-- A plan whose only step waits ten thousand million seconds before a retry. -/
def hugeDelay : ExecutionPlan :=
  ⟨"Analyse the email.", .full,
    [{ plainStep "parser_tool" 1 [] fits_parserTool one_le_first with
      retryPolicy := (Dict.set ∅ "max_retries" (.int 1)).set "delay" (.int 10000000000) }], 1,
    fits_goal, mem_certain⟩

/-- The orchestrator with a condition for URLs that never raises. -/
def steadyOrchestrator : PlannerOrchestrator :=
  (PlannerOrchestrator.create id sampleRegistry).registerCondition "has_urls" fun _ => .ok false

theorem sort_hugeDelay :
    topologicalSort hugeDelay.steps (.create none "state") = .ok hugeDelay.steps := rfl

theorem ordinary_hugeDelay : Ordinary steadyOrchestrator raisingTools hugeDelay where
  nodup := by decide
  acyclic := (topologicalSort_eq_ok sort_hugeDelay).2.1
  maxRetries := by
    rintro s hs
    obtain rfl := List.mem_singleton.1 hs
    exact ⟨1, rfl⟩
  delay := by
    rintro s hs
    obtain rfl := List.mem_singleton.1 hs
    exact ⟨_, rfl⟩
  conditions := by
    intro name evaluator h state
    simp only [steadyOrchestrator, PlannerOrchestrator.registerCondition, PlannerOrchestrator.create,
      Dict.get?_set, Dict.get?_empty] at h
    split_ifs at h <;> cases h <;> exact ⟨_, rfl⟩
  results := by
    intro sid i result h
    cases h
  exceptions := by
    intro sid i text h
    cases h
    decide

theorem stepsAccounted_hugeDelay :
    Ordinary steadyOrchestrator raisingTools hugeDelay ∧
      (StepsAccounted steadyOrchestrator raisingTools (.create none "state") hugeDelay ↔
        ∀ sorted, topologicalSort hugeDelay.steps (.create none "state") = .ok sorted →
          Loop.Throughout (Effect steadyOrchestrator raisingTools sorted)
            (SleepOk steadyOrchestrator raisingTools sorted) (.start (.create none "state")) sorted) :=
  ⟨ordinary_hugeDelay, stepsAccounted_iff _ _ _ _ ordinary_hugeDelay⟩

/-- `time.sleep` raises `OverflowError`, outside of any `try`. -/
theorem hugeDelay_crashes :
    Ordinary steadyOrchestrator raisingTools hugeDelay ∧
      ¬StepsAccounted steadyOrchestrator raisingTools (.create none "state") hugeDelay := by
  refine ⟨ordinary_hugeDelay, ?_⟩
  rintro ⟨fuel, run, result, sorted, -, hexec, -⟩
  obtain ⟨hfirst, -⟩ := (executePlan_returns_iff sort_hugeDelay).1 ⟨fuel, result, by rw [hexec]⟩
  have hsleep := (ordinary_hugeDelay.stepOk_iff (List.mem_singleton.2 rfl) _ _).1 hfirst
    ⟨⟨rfl, rfl⟩, rfl⟩ rfl 0 1 (.finite (10000000000 : ℤ)) (fun _ _ => rfl) rfl (by decide) rfl
    (by decide +kernel)
  exact absurd hsleep (by decide +kernel)

end ScamOn.Planner
