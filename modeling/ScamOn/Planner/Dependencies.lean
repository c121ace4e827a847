import ScamOn.Planner.Runs

/-!
# Failed dependencies

Whether a tool is called although something that its step depends on has failed.  A
dependency may name a tool, and with it several steps; the sort puts all of them first,
but the check before a step looks at only one of them.

* `LookedAt` is the step that the check looks at, `Guarded` says that every step a
  dependency refers to is looked at, directly or through other steps.
* `Kept` is the invariant of a run: a step that looks at a failed or cancelled one is
  cancelled.  `Kept.extend` keeps it over one step, whatever comes of it.
* `nothing_on_failed_iff`: nothing ever runs on top of a failed dependency exactly if the plan
  is guarded.
-/

namespace ScamOn.Planner

open Relation TopologicalSort

variable {steps sorted done rest : List ExecutionStep} {state : AgentState} {run run' : Run}
  {orch : PlannerOrchestrator} {env : Environment} {a s t u : ExecutionStep}

/-- The step that the check looks at for a dependency: the one of that identifier, or else the
one of that tool that runs first. -/
def LookedAt (steps : List ExecutionStep) (dep : String) (u : ExecutionStep) : Prop :=
  u ∈ steps ∧ (u.stepId = dep ∨ (∀ v ∈ steps, v.stepId ≠ dep) ∧ u.tool = dep ∧
    ∀ v ∈ steps, v.tool = dep → v.stepId ≠ u.stepId → RunsBefore steps u v)

/-- The check of one step looks at another. -/
def Looks (steps : List ExecutionStep) (s u : ExecutionStep) : Prop :=
  s ∈ steps ∧ ∃ dep ∈ s.dependencies, LookedAt steps dep u

/-- Every step that a dependency refers to is looked at, directly or through other steps. -/
def Guarded (steps : List ExecutionStep) : Prop :=
  ∀ s ∈ steps, ∀ dep ∈ s.dependencies, ∀ t, RefersTo steps dep t → TransGen (Looks steps) s t

/-- The step has a record. -/
def Recorded (run : Run) (s : ExecutionStep) : Prop := ∃ r ∈ run.records, r.stepId = s.stepId

/-- The step ended `FAILED` or `CANCELLED`. -/
def EndedBadly (run : Run) (s : ExecutionStep) : Prop :=
  ∃ r ∈ run.records, r.stepId = s.stepId ∧ (r.status = .failed ∨ r.status = .cancelled)

/-- If the tool of a step was called, no step that a dependency of it refers to failed or was
cancelled. -/
def NothingOnFailed (plan : ExecutionPlan) (run : Run) : Prop :=
  ∀ s ∈ plan.steps, s.stepId ∈ run.calls → ∀ dep ∈ s.dependencies, ∀ t, RefersTo plan.steps dep t →
    ¬EndedBadly run t

/-! ## Positions -/

theorem LookedAt.refersTo {dep : String} (h : LookedAt steps dep u) : RefersTo steps dep u := by
  obtain ⟨hu, hid | ⟨hnone, htool, -⟩⟩ := h
  · exact ⟨hu, .inl hid⟩
  · exact ⟨hu, .inr ⟨htool, hnone⟩⟩

theorem Looks.mem (h : Looks steps s u) : u ∈ steps := by
  obtain ⟨-, dep, -, hlooked⟩ := h
  exact hlooked.1

section Sorted

variable (hsort : topologicalSort steps state = .ok sorted)

include hsort

theorem nodup_sorted : (sorted.map (·.stepId)).Nodup := by
  obtain ⟨hnodup, -, hperm, -⟩ := topologicalSort_eq_ok hsort
  exact (hperm.map _).nodup_iff.2 hnodup

theorem mem_sorted_iff : s ∈ sorted ↔ s ∈ steps := by
  obtain ⟨-, -, hperm, -⟩ := topologicalSort_eq_ok hsort
  exact hperm.mem_iff

theorem eq_of_stepId_eq (hs : s ∈ steps) (ht : t ∈ steps) (hid : s.stepId = t.stepId) : s = t := by
  obtain ⟨hnodup, -⟩ := topologicalSort_eq_ok hsort
  exact List.inj_on_of_nodup_map hnodup hs ht hid

theorem Looks.before (h : Looks steps s u) : Before (sorted.map (·.stepId)) u.stepId s.stepId := by
  obtain ⟨hs, dep, hdep, hlooked⟩ := h
  exact before_of_refersTo hsort hs hdep hlooked.refersTo

/-- What comes before a step that is done, or is next, is done. -/
theorem mem_done_of_before (hsplit : sorted = done ++ a :: rest)
    (hs : s.stepId ∈ (done ++ [a]).map (·.stepId))
    (hbefore : Before (sorted.map (·.stepId)) u.stepId s.stepId) :
    u.stepId ∈ done.map (·.stepId) := by
  have hnodup := nodup_sorted hsort
  have hnext : a.stepId ∉ done.map (·.stepId) := stepId_notMem_of_split hnodup hsplit
  rw [hsplit, List.map_append, List.map_cons] at hbefore
  have hlt := hbefore.2
  by_contra hu
  rw [List.idxOf_append_of_notMem hu] at hlt
  rw [List.map_append, List.mem_append, List.map_singleton, List.mem_singleton] at hs
  rcases hs with hs | hs
  · rw [List.idxOf_append_of_mem hs] at hlt
    have := List.idxOf_lt_length_iff.2 hs
    omega
  · rw [hs, List.idxOf_append_of_notMem hnext, List.idxOf_cons_self] at hlt
    omega

/-- No step of a tool stands before the first one that is found. -/
theorem not_before_of_find? {dep : String} (h : sorted.find? (·.tool = dep) = some u) (hs : s ∈ steps)
    (htool : s.tool = dep) : ¬Before (sorted.map (·.stepId)) s.stepId u.stepId := by
  intro hbefore
  obtain ⟨-, pre, post, hsplit, hpre⟩ := List.find?_eq_some_iff_append.1 h
  have hfresh : u.stepId ∉ pre.map (·.stepId) := stepId_notMem_of_split (nodup_sorted hsort) hsplit
  rw [hsplit, List.map_append, List.map_cons, before_append_cons hfresh, List.mem_map] at hbefore
  obtain ⟨w, hw, hwid⟩ := hbefore
  have hwmem : w ∈ steps := (mem_sorted_iff hsort).1 (by simp [hsplit, hw])
  have hnot := hpre w hw
  simp [eq_of_stepId_eq hsort hwmem hs hwid, htool] at hnot

/-- The first step of a tool in the order of execution is the one that is looked at. -/
theorem find?_tool_of_lookedAt {dep : String} (h : LookedAt steps dep u) (hid : u.stepId ≠ dep) :
    sorted.find? (·.tool = dep) = some u := by
  obtain ⟨hu, hid' | ⟨-, htool, hfirst⟩⟩ := h
  · exact absurd hid' hid
  obtain ⟨v, hv⟩ : ∃ v, sorted.find? (·.tool = dep) = some v := by
    rw [← Option.isSome_iff_exists, List.find?_isSome]
    exact ⟨u, (mem_sorted_iff hsort).2 hu, by simpa using htool⟩
  have hvtool : v.tool = dep := by simpa using List.find?_some hv
  have hvmem : v ∈ steps := (mem_sorted_iff hsort).1 (List.mem_of_find?_eq_some hv)
  by_cases heq : v.stepId = u.stepId
  · rw [hv, eq_of_stepId_eq hsort hvmem hu heq]
  · have hbefore := (before_iff_runsBefore hsort u v).2 (hfirst v hvmem hvtool heq)
    exact absurd hbefore (not_before_of_find? hsort hv hu htool)

theorem lookedAt_of_find? {dep : String} (hnone : ∀ v ∈ steps, v.stepId ≠ dep)
    (h : sorted.find? (·.tool = dep) = some u) : LookedAt steps dep u := by
  have htool : u.tool = dep := by simpa using List.find?_some h
  refine ⟨(mem_sorted_iff hsort).1 (List.mem_of_find?_eq_some h), .inr ⟨hnone, htool, ?_⟩⟩
  intro v hv hvtool hne
  rw [← before_iff_runsBefore hsort]
  have humem : u.stepId ∈ sorted.map (·.stepId) :=
    List.mem_map_of_mem (List.mem_of_find?_eq_some h)
  have hvmem : v.stepId ∈ sorted.map (·.stepId) := List.mem_map_of_mem ((mem_sorted_iff hsort).2 hv)
  exact (before_or_before humem hvmem (Ne.symm hne)).resolve_right (not_before_of_find? hsort h hv hvtool)

/-- **What the check sees**: for a dependency of the next step, the status of the step that is
looked at. -/
theorem depStatus_eq_some_iff (hsplit : sorted = done ++ a :: rest)
    (haccount : Accounted orch env state done run) {dep : String} (hdep : dep ∈ a.dependencies)
    {status : StepExecutionStatus} :
    depStatus sorted run.statusMap dep = some status ↔
      ∃ u, LookedAt steps dep u ∧ run.statusMap.get? u.stepId = some status := by
  have ha : a ∈ steps := (mem_sorted_iff hsort).1 (by simp [hsplit])
  -- a step of that identifier comes before, so it has a status
  have hknown : ∀ v ∈ steps, v.stepId = dep → ∃ status, run.statusMap.get? dep = some status := by
    rintro v hv rfl
    have hbefore := before_of_refersTo hsort ha hdep ⟨hv, .inl rfl⟩
    have hdone := mem_done_of_before hsort hsplit (by simp) hbefore
    rw [← haccount.ids, List.mem_map] at hdone
    obtain ⟨r, hr, hid⟩ := hdone
    exact ⟨r.status, hid ▸ haccount.status r hr⟩
  have hunknown : (∀ v ∈ steps, v.stepId ≠ dep) → run.statusMap.get? dep = none := by
    intro hnone
    refine haccount.unseen dep fun hmem => ?_
    obtain ⟨v, hv, hid⟩ := List.mem_map.1 hmem
    exact hnone v ((mem_sorted_iff hsort).1 (by simp [hsplit, hv])) hid
  unfold depStatus
  constructor
  · intro h
    cases hget : run.statusMap.get? dep with
    | some status' =>
      rw [hget] at h
      cases h
      have hmem : ∃ v ∈ steps, v.stepId = dep := by
        by_contra hnone
        push Not at hnone
        rw [hunknown hnone] at hget
        cases hget
      obtain ⟨v, hv, rfl⟩ := hmem
      exact ⟨v, ⟨hv, .inl rfl⟩, hget⟩
    | none =>
      rw [hget] at h
      obtain ⟨u, hfind, hstatus⟩ := Option.bind_eq_some_iff.1 h
      refine ⟨u, lookedAt_of_find? hsort (fun v hv hid => ?_) hfind, hstatus⟩
      obtain ⟨status', hstatus'⟩ := hknown v hv hid
      rw [hget] at hstatus'
      cases hstatus'
  · rintro ⟨u, hlooked, hstatus⟩
    by_cases hid : u.stepId = dep
    · rw [← hid, hstatus]
    · have hnone : ∀ v ∈ steps, v.stepId ≠ dep := by
        obtain ⟨-, hid' | ⟨hnone, -⟩⟩ := hlooked
        · exact absurd hid' hid
        · exact hnone
      rw [hunknown hnone, find?_tool_of_lookedAt hsort hlooked hid]
      exact hstatus

/-- A step is held back exactly if one that it looks at ended badly. -/
theorem depFailed_iff (hsplit : sorted = done ++ a :: rest)
    (haccount : Accounted orch env state done run) :
    depFailed sorted run.statusMap a = true ↔ ∃ u, Looks steps a u ∧ EndedBadly run u := by
  have ha : a ∈ steps := (mem_sorted_iff hsort).1 (by simp [hsplit])
  have hended : ∀ u, EndedBadly run u ↔ run.statusMap.get? u.stepId = some .failed ∨
      run.statusMap.get? u.stepId = some .cancelled := by
    intro u
    constructor
    · rintro ⟨r, hr, hid, hstatus⟩
      have hget := haccount.status r hr
      rw [hid] at hget
      rcases hstatus with hstatus | hstatus
      · exact .inl (hstatus ▸ hget)
      · exact .inr (hstatus ▸ hget)
    · intro h
      have hmem : u.stepId ∈ done.map (·.stepId) := by
        by_contra hnot
        simp [haccount.unseen _ hnot] at h
      rw [← haccount.ids, List.mem_map] at hmem
      obtain ⟨r, hr, hid⟩ := hmem
      have hget := haccount.status r hr
      rw [hid] at hget
      exact ⟨r, hr, hid, by simpa [hget] using h⟩
  simp only [depFailed, List.any_eq_true, Bool.or_eq_true, decide_eq_true_eq]
  constructor
  · rintro ⟨dep, hdep, hstatus⟩
    rcases hstatus with hstatus | hstatus
    · obtain ⟨u, hlooked, hget⟩ := (depStatus_eq_some_iff hsort hsplit haccount hdep).1 hstatus
      exact ⟨u, ⟨ha, dep, hdep, hlooked⟩, (hended u).2 (.inl hget)⟩
    · obtain ⟨u, hlooked, hget⟩ := (depStatus_eq_some_iff hsort hsplit haccount hdep).1 hstatus
      exact ⟨u, ⟨ha, dep, hdep, hlooked⟩, (hended u).2 (.inr hget)⟩
  · rintro ⟨u, ⟨-, dep, hdep, hlooked⟩, hbad⟩
    refine ⟨dep, hdep, ((hended u).1 hbad).imp (fun hget => ?_) (fun hget => ?_)⟩
    · exact (depStatus_eq_some_iff hsort hsplit haccount hdep).2 ⟨u, hlooked, hget⟩
    · exact (depStatus_eq_some_iff hsort hsplit haccount hdep).2 ⟨u, hlooked, hget⟩

end Sorted

/-! ## Guarded plans -/

/-- **The invariant**: what a step looks at has a record once the step is dealt with; and if
that ended badly, the step was cancelled and its tool not called. -/
structure Kept (steps : List ExecutionStep) (run : Run) : Prop where
  recorded : ∀ s u, Looks steps s u → s.stepId ∈ run.calls ∨ Recorded run s → Recorded run u
  held : ∀ s u, Looks steps s u → EndedBadly run u → s.stepId ∉ run.calls ∧
    ∀ r ∈ run.records, r.stepId = s.stepId → r.status = .cancelled

/-- What the body adds to records and calls, whether or not an exception leaves it. -/
theorem stepBody_extends (orch : PlannerOrchestrator) (env : Environment)
    (sorted : List ExecutionStep) (fuel : ℕ) (run : Run) (a : ExecutionStep) :
    ∃ new more, (stepBody orch env sorted fuel run a).1.records = run.records ++ new ∧
      (stepBody orch env sorted fuel run a).1.calls = run.calls ++ more ∧
      (∀ r ∈ new, r.stepId = a.stepId) ∧ (∀ sid ∈ more, sid = a.stepId) ∧
      (depFailed sorted run.statusMap a = true → more = [] ∧ ∀ r ∈ new, r.status = .cancelled) := by
  unfold stepBody
  split_ifs with hcancelled hdep
  · exact ⟨[_], [], rfl, by simp [Run.note], by simp [ExecutionStep.record], by simp,
      fun _ => ⟨rfl, by simp [ExecutionStep.record]⟩⟩
  · exact ⟨[_], [], rfl, by simp [Run.note], by simp [ExecutionStep.record], by simp,
      fun _ => ⟨rfl, by simp [ExecutionStep.record]⟩⟩
  · rcases conditionsMet orch run.state a.conditions with e | _ | _
    · exact ⟨[], [], by simp, by simp, by simp, by simp, fun h => absurd h hdep⟩
    · exact ⟨[_], [], rfl, by simp [Run.note], by simp [ExecutionStep.record], by simp,
        fun h => absurd h hdep⟩
    · have hmore : ∀ n, ∀ sid ∈ List.replicate n a.stepId, sid = a.stepId := fun n sid h =>
        (List.mem_replicate.1 h).2
      rcases hexec : executeStepWithRetries orch env fuel a with ⟨calls, stop | ⟨record, toolResult⟩⟩
      · exact ⟨[], List.replicate calls a.stepId, by simp, rfl, by simp, hmore calls,
          fun h => absurd h hdep⟩
      · have hid : record.stepId = a.stepId := by
          have hexecuted := executeStepWithRetries_eq_ok_iff.1 ⟨fuel, hexec⟩
          exact (RecordOf.stepId_eq (.inr (.inr ⟨calls, toolResult, hexecuted⟩))).1
        dsimp only
        split
        · exact ⟨[record], List.replicate calls a.stepId, rfl, rfl, by simpa using hid, hmore calls,
            fun h => absurd h hdep⟩
        · exact ⟨[record], List.replicate calls a.stepId, rfl, rfl, by simpa using hid, hmore calls,
            fun h => absurd h hdep⟩

/-- **One step keeps the invariant**, whether or not an exception leaves it. -/
theorem Kept.extend (hsort : topologicalSort steps state = .ok sorted)
    (hsplit : sorted = done ++ a :: rest) (haccount : Accounted orch env state done run)
    (hkept : Kept steps run) {new : List StepExecutionRecord} {more : List String}
    (hrecords : run'.records = run.records ++ new) (hcalls : run'.calls = run.calls ++ more)
    (hnew : ∀ r ∈ new, r.stepId = a.stepId) (hmore : ∀ sid ∈ more, sid = a.stepId)
    (hheld : depFailed sorted run.statusMap a = true → more = [] ∧ ∀ r ∈ new, r.status = .cancelled) :
    Kept steps run' := by
  have hnext : a.stepId ∉ done.map (·.stepId) := stepId_notMem_of_split (nodup_sorted hsort) hsplit
  have hdone : ∀ sid, (sid ∈ run.calls → sid ∈ done.map (·.stepId)) ∧
      ((∃ r ∈ run.records, r.stepId = sid) ↔ sid ∈ done.map (·.stepId)) := by
    intro sid
    rw [← haccount.ids, haccount.calls]
    refine ⟨fun h => ?_, by simp⟩
    obtain ⟨r, hr, hmem⟩ := List.mem_flatMap.1 h
    rw [(List.mem_replicate.1 hmem).2]
    exact List.mem_map_of_mem hr
  -- a step that is dealt with now is done or next, so what it looks at is done
  have hdealt : ∀ s, s.stepId ∈ run'.calls ∨ Recorded run' s →
      s.stepId ∈ (done ++ [a]).map (·.stepId) := by
    intro s h
    rw [List.map_append, List.mem_append, List.map_singleton, List.mem_singleton]
    simp only [Recorded, hrecords, hcalls, List.mem_append] at h
    rcases h with (h | h) | ⟨r, h | h, hid⟩
    · exact .inl ((hdone _).1 h)
    · exact .inr (hmore _ h)
    · exact .inl ((hdone _).2.1 ⟨r, h, hid⟩)
    · exact .inr (hid ▸ hnew r h)
  have hseen : ∀ s u, Looks steps s u → s.stepId ∈ run'.calls ∨ Recorded run' s →
      u.stepId ∈ done.map (·.stepId) := fun s u hlooks h =>
    mem_done_of_before hsort hsplit (hdealt s h) (hlooks.before hsort)
  refine ⟨fun s u hlooks h => ?_, fun s u hlooks hbad => ?_⟩
  · obtain ⟨r, hr, hid⟩ := (hdone _).2.2 (hseen s u hlooks h)
    exact ⟨r, by simp [hrecords, hr], hid⟩
  · by_cases hs : s.stepId ∈ run'.calls ∨ Recorded run' s
    · have hu := hseen s u hlooks hs
      have hbad' : EndedBadly run u := by
        obtain ⟨r, hr, hid, hstatus⟩ := hbad
        rw [hrecords, List.mem_append] at hr
        rcases hr with hr | hr
        · exact ⟨r, hr, hid, hstatus⟩
        · rw [← hid, hnew r hr] at hu
          exact absurd hu hnext
      have hold := hkept.held s u hlooks hbad'
      have hpast := hdealt s hs
      rw [List.map_append, List.mem_append, List.map_singleton, List.mem_singleton] at hpast
      rw [hcalls, hrecords]
      simp only [List.mem_append, not_or]
      rcases hpast with hpast | hpast
      · refine ⟨⟨hold.1, fun h => hnext (hmore _ h ▸ hpast)⟩, fun r hr hid => ?_⟩
        rcases hr with hr | hr
        · exact hold.2 r hr hid
        · rw [← hid, hnew r hr] at hpast
          exact absurd hpast hnext
      · have ha : a ∈ steps := (mem_sorted_iff hsort).1 (by simp [hsplit])
        obtain rfl := eq_of_stepId_eq hsort hlooks.1 ha hpast
        obtain ⟨rfl, hcancelled⟩ := hheld ((depFailed_iff hsort hsplit haccount).2 ⟨u, hlooks, hbad'⟩)
        refine ⟨⟨hold.1, by simp⟩, fun r hr hid => ?_⟩
        rcases hr with hr | hr
        · exact hold.2 r hr hid
        · exact hcancelled r hr
    · push Not at hs
      exact ⟨hs.1, fun r hr hid => absurd ⟨r, hr, hid⟩ hs.2⟩

/-- **Every run keeps the invariant.** -/
theorem kept_executePlan (orch : PlannerOrchestrator) (env : Environment) (fuel : ℕ)
    {plan : ExecutionPlan} (hsort : topologicalSort plan.steps state = .ok sorted) :
    Kept plan.steps (executePlan orch env fuel state plan).1 := by
  have hextend : ∀ done a rest run, sorted = done ++ a :: rest →
      Accounted orch env state done run → Kept plan.steps run →
        Kept plan.steps (stepBody orch env sorted fuel run a).1 := by
    intro done a rest run hsplit haccount hkept
    obtain ⟨new, more, hrecords, hcalls, hnew, hmore, hheld⟩ :=
      stepBody_extends orch env sorted fuel run a
    exact hkept.extend hsort hsplit haccount hrecords hcalls hnew hmore hheld
  have hok : ∀ done a rest run run' b, sorted = done ++ a :: rest →
      Accounted orch env state done run ∧ Kept plan.steps run →
        stepBody orch env sorted fuel run a = (run', .ok b) →
          Accounted orch env state (done ++ [a]) run' ∧ Kept plan.steps run' := by
    intro done a rest run run' b hsplit hrun hbody
    obtain ⟨r, hadds⟩ := adds_of_effect (gets_iff_effect.1 ⟨fuel, b, hbody⟩)
    have hkept := hextend done a rest run hsplit hrun.1 hrun.2
    rw [hbody] at hkept
    exact ⟨hrun.1.snoc (stepId_notMem_of_split (nodup_sorted hsort) hsplit) hadds, hkept⟩
  have herror : ∀ done a rest run run' e, sorted = done ++ a :: rest →
      Accounted orch env state done run ∧ Kept plan.steps run →
        stepBody orch env sorted fuel run a = (run', .error e) → Kept plan.steps run' := by
    intro done a rest run run' e hsplit hrun hbody
    have hkept := hextend done a rest run hsplit hrun.1 hrun.2
    rwa [hbody] at hkept
  have hstart : Kept plan.steps (.start state) := by
    refine ⟨fun s u _ h => ?_, fun s u _ h => ?_⟩
    · simp [Run.start, Recorded] at h
    · simp [Run.start, EndedBadly] at h
  obtain ⟨hend, hstop⟩ := Loop.forEach_inv_prefix (I := fun done run =>
    Accounted orch env state done run ∧ Kept plan.steps run) hok herror ⟨accounted_start state, hstart⟩
  simp only [executePlan, hsort]
  cases hloop : (Loop.forEach (stepBody orch env sorted fuel) (.start state) sorted).2 with
  | ok bs => exact (hend bs hloop).2
  | error e => exact hstop e hloop

/-- Along a chain of steps that look at each other, the end of which ended badly, every step
that was dealt with was cancelled. -/
theorem Kept.not_called (h : Kept steps run) (hpath : TransGen (Looks steps) s t)
    (hbad : EndedBadly run t) :
    s.stepId ∉ run.calls ∧ ∀ r ∈ run.records, r.stepId = s.stepId → r.status = .cancelled := by
  induction hpath using TransGen.head_induction_on with
  | single hlooks => exact h.held _ _ hlooks hbad
  | @head s u hlooks _ ih =>
    by_cases hs : s.stepId ∈ run.calls ∨ Recorded run s
    · obtain ⟨r, hr, hid⟩ := h.recorded s u hlooks hs
      exact h.held s u hlooks ⟨r, hr, hid, .inr (ih.2 r hr hid)⟩
    · push Not at hs
      exact ⟨hs.1, fun r hr hid => absurd ⟨r, hr, hid⟩ hs.2⟩

/-! ## Plans that are not guarded -/

/-- The registry of all tools that a plan names. -/
def registryOf (steps : List ExecutionStep) : ToolRegistry where
  tools := steps.foldl (fun d s => d.set s.tool ⟨s.tool, "A tool.", [], s.tool_fits, fits_description⟩) ∅
  keyed := by
    have hfold : ∀ (l : List ExecutionStep) (d : Dict String ToolMetadata),
        (∀ name metadata, d.get? name = some metadata → metadata.name = name) →
          ∀ name metadata, (l.foldl (fun d s => d.set s.tool
            ⟨s.tool, "A tool.", [], s.tool_fits, fits_description⟩) d).get? name = some metadata →
              metadata.name = name := by
      intro l
      induction l with
      | nil => exact fun d hd => hd
      | cons s rest ih =>
        intro d hd
        refine ih _ fun name metadata h => ?_
        rw [Dict.get?_set] at h
        split_ifs at h with heq
        · cases h
          exact heq.symm
        · exact hd name metadata h
    exact hfold steps ∅ (by simp)

theorem hasTool_registryOf (hs : s ∈ steps) : (registryOf steps).hasTool s.tool = true := by
  have hfold : ∀ (l : List ExecutionStep) (d : Dict String ToolMetadata),
      (s ∈ l ∨ (d.get? s.tool).isSome) → ((l.foldl (fun d s => d.set s.tool
        ⟨s.tool, "A tool.", [], s.tool_fits, fits_description⟩) d).get? s.tool).isSome := by
    intro l
    induction l with
    | nil => simp
    | cons v rest ih =>
      intro d hd
      refine ih _ ?_
      rw [Dict.get?_set]
      by_cases heq : s.tool = v.tool
      · simp [heq]
      · rcases hd with hd | hd
        · rcases List.mem_cons.1 hd with rfl | hd
          · exact absurd rfl heq
          · exact .inl hd
        · simp [heq, hd]
  exact hfold steps ∅ (.inl hs)

/-- An orchestrator for which all conditions of a plan are met. -/
def permissive (steps : List ExecutionStep) : PlannerOrchestrator :=
  (steps.flatMap (·.conditions)).foldl (fun orch cond => orch.registerCondition cond fun _ => .ok true)
    (.create id (registryOf steps))

theorem registry_permissive (steps : List ExecutionStep) :
    (permissive steps).registry = registryOf steps := by
  have hfold : ∀ (l : List String) (orch : PlannerOrchestrator),
      (l.foldl (fun orch cond => orch.registerCondition cond fun _ => .ok true) orch).registry =
        orch.registry := by
    intro l
    induction l with
    | nil => exact fun _ => rfl
    | cons cond rest ih => exact fun orch => ih _
  exact hfold _ _

theorem conditionsMet_permissive (hs : s ∈ steps) (state : AgentState) :
    conditionsMet (permissive steps) state s.conditions = .ok true := by
  have hfold : ∀ (l : List String) (orch : PlannerOrchestrator) (cond : String),
      (cond ∈ l ∨ orch.conditionEvaluators.get? cond = some fun _ => .ok true) →
        (l.foldl (fun orch cond => orch.registerCondition cond fun _ =>
          .ok true) orch).conditionEvaluators.get? cond = some fun _ => .ok true := by
    intro l
    induction l with
    | nil => simp
    | cons first rest ih =>
      intro orch cond h
      refine ih _ cond ?_
      simp only [PlannerOrchestrator.registerCondition, Dict.get?_set]
      by_cases heq : cond = first
      · simp [heq]
      · simpa [heq] using h
  have hmet : ∀ cond ∈ s.conditions,
      (permissive steps).conditionEvaluators.get? cond = some fun _ => .ok true := fun cond hcond =>
    hfold _ _ cond (.inl (List.mem_flatMap.2 ⟨s, hs, hcond⟩))
  generalize s.conditions = conditions at hmet
  induction conditions with
  | nil => rfl
  | cons cond rest ih =>
    unfold conditionsMet
    rw [hmet cond (by simp)]
    exact ih fun c hc => hmet c (by simp [hc])

/-- Every call completes, and the caller cancels only when it is asked for the `n`-th time. -/
def cancelsOnly (n : ℕ) : Environment where
  attempt _ _ := .ok ⟨"tool", .completed, ∅, [], [], none, none⟩
  sleep _ _ _ := .ok ()
  cancelRequested := some fun k => k = n
  report _ _ _ := ""
  reprTuple _ := ""

/-- The caller cancels only the step `t`. -/
def cancelsStep (sorted : List ExecutionStep) (t : ExecutionStep) : Environment :=
  cancelsOnly ((sorted.map (·.stepId)).idxOf t.stepId)

/-- In such a run every step is in order. -/
theorem stepOk_cancelsOnly (hs : s ∈ steps) (n : ℕ) (sorted : List ExecutionStep) (run : Run) :
    StepOk (permissive steps) (cancelsOnly n) sorted run s := by
  refine ⟨fun _ => ⟨true, conditionsMet_permissive hs _⟩, fun _ _ => ?_⟩
  refine ⟨0, .completed ⟨"tool", .completed, ∅, [], [], none, none⟩, .inl rfl, ?_, rfl, .inl ?_⟩
  · intro i hi
    omega
  · show Fits 1 128 "tool"
    decide

/-- What such a run has recorded when the cancelled step is `t`: it cancels that step and those
that look at it, directly or through others, and completes all others. -/
def CancelsBehind (steps : List ExecutionStep) (t : ExecutionStep) (run : Run) : Prop :=
  ∀ s ∈ steps, ∀ r ∈ run.records, r.stepId = s.stepId →
    ((s = t ∨ TransGen (Looks steps) s t) → r.status = .cancelled) ∧
      (¬(s = t ∨ TransGen (Looks steps) s t) → r.status = .completed)

theorem cancelsBehind_step (hsort : topologicalSort steps state = .ok sorted)
    (ht : t ∈ steps) (hsplit : sorted = done ++ a :: rest)
    (haccount : Accounted (permissive steps)
      (cancelsStep sorted t) state done run)
    (h : CancelsBehind steps t run)
    (heffect : Effect (permissive steps) (cancelsStep sorted t) sorted
      run a run') {r : StepExecutionRecord}
    (hadds : Adds (permissive steps) (cancelsStep sorted t) run a r
      run') : CancelsBehind steps t run' := by
  have ha : a ∈ steps := (mem_sorted_iff hsort).1 (by simp [hsplit])
  have hnext : a.stepId ∉ done.map (·.stepId) := stepId_notMem_of_split (nodup_sorted hsort) hsplit
  -- the caller cancels `a` exactly if it is `t`
  have hcancel : cancelled (cancelsStep sorted t) run = true ↔
      a = t := by
    have hlength : run.records.length = (sorted.map (·.stepId)).idxOf a.stepId := by
      rw [hsplit, List.map_append, List.map_cons, List.idxOf_append_of_notMem hnext,
        List.idxOf_cons_self, Nat.add_zero, ← haccount.ids, List.length_map]
    have hmem : a.stepId ∈ sorted.map (·.stepId) := by simp [hsplit]
    simp only [cancelled, cancelsStep, cancelsOnly, hlength, decide_eq_true_eq, List.idxOf_inj hmem]
    exact ⟨eq_of_stepId_eq hsort ha ht, fun heq => by rw [heq]⟩
  -- it is held back exactly if it leads to `t`
  have hdep : depFailed sorted run.statusMap a = true ↔ TransGen (Looks steps) a t := by
    rw [depFailed_iff hsort hsplit haccount]
    constructor
    · rintro ⟨u, hlooks, q, hq, hid, hstatus⟩
      by_cases hu : u = t ∨ TransGen (Looks steps) u t
      · rcases hu with rfl | hu
        · exact .single hlooks
        · exact .head hlooks hu
      · rw [(h u hlooks.mem q hq hid).2 hu] at hstatus
        simp at hstatus
    · intro hpath
      obtain ⟨u, hlooks, hrest⟩ := TransGen.head'_iff.1 hpath
      have hmem := mem_done_of_before hsort hsplit (by simp) (hlooks.before hsort)
      rw [← haccount.ids, List.mem_map] at hmem
      obtain ⟨q, hq, hid⟩ := hmem
      have hu : u = t ∨ TransGen (Looks steps) u t := by
        rcases reflTransGen_iff_eq_or_transGen.1 hrest with heq | hrest
        · exact .inl heq.symm
        · exact .inr hrest
      exact ⟨u, hlooks, q, hq, hid, .inr ((h u hlooks.mem q hq hid).1 hu)⟩
  have hrecord : ((a = t ∨ TransGen (Looks steps) a t) → r.status = .cancelled) ∧
      (¬(a = t ∨ TransGen (Looks steps) a t) → r.status = .completed) := by
    have hlast := hadds.records
    cases heffect with
    | cancelled hcancelled =>
      obtain rfl := List.singleton_inj.1 (List.append_cancel_left hlast)
      exact ⟨fun _ => rfl, fun hnot => absurd (.inl (hcancel.1 hcancelled)) hnot⟩
    | blocked _ hfailed =>
      obtain rfl := List.singleton_inj.1 (List.append_cancel_left hlast)
      exact ⟨fun _ => rfl, fun hnot => absurd (.inr (hdep.1 hfailed)) hnot⟩
    | skipped _ hconditions =>
      rw [conditionsMet_permissive ha] at hconditions
      cases hconditions
    | executed hreaches hexecuted _ =>
      obtain rfl := List.singleton_inj.1 (List.append_cancel_left hlast)
      have hnot : ¬(a = t ∨ TransGen (Looks steps) a t) := by
        rintro (heq | hpath)
        · have hgoes := hreaches.1.1
          rw [hcancel.2 heq] at hgoes
          cases hgoes
        · have hgoes := hreaches.1.2
          rw [hdep.2 hpath] at hgoes
          cases hgoes
      refine ⟨fun h => absurd h hnot, fun _ => ?_⟩
      cases hexecuted with
      | unregistered hmissing =>
        rw [registry_permissive, hasTool_registryOf ha] at hmissing
        cases hmissing
      | completed k result => rfl
      | exhausted k _ _ hfailed => cases hfailed 0 (Nat.zero_le k)
  intro s hs q hq hid
  rw [hadds.records, List.mem_append, List.mem_singleton] at hq
  rcases hq with hq | rfl
  · exact h s hs q hq hid
  · obtain rfl := eq_of_stepId_eq hsort hs ha (hid.symm.trans hadds.recordOf.stepId_eq.1)
    exact hrecord

theorem exists_cancelsBehind {plan : ExecutionPlan}
    (hsort : topologicalSort plan.steps state = .ok sorted) (ht : t ∈ plan.steps) :
    ∃ fuel run result, executePlan (permissive plan.steps) (cancelsStep sorted t) fuel state plan =
        (run, .ok result) ∧
      Accounted (permissive plan.steps) (cancelsStep sorted t) state sorted run ∧
      CancelsBehind plan.steps t run := by
  have hthroughout : ∀ (l : List ExecutionStep) (run : Run), (∀ v ∈ l, v ∈ plan.steps) →
      Loop.Throughout (Effect (permissive plan.steps) (cancelsStep sorted t) sorted)
        (StepOk (permissive plan.steps) (cancelsStep sorted t) sorted) run l := by
    intro l
    induction l with
    | nil => exact fun _ _ => trivial
    | cons v rest ih =>
      exact fun run hl => ⟨stepOk_cancelsOnly (hl v (by simp)) _ _ _,
        fun run' _ => ih run' fun w hw => hl w (by simp [hw])⟩
  obtain ⟨fuel, result, hresult⟩ := (executePlan_returns_iff hsort).2
    (hthroughout sorted _ fun v hv => (mem_sorted_iff hsort).1 hv)
  have hok : ∀ done a rest run run' b, sorted = done ++ a :: rest →
      Accounted (permissive plan.steps) (cancelsStep sorted t) state done run ∧
        CancelsBehind plan.steps t run →
      stepBody (permissive plan.steps) (cancelsStep sorted t) sorted fuel run a = (run', .ok b) →
      Accounted (permissive plan.steps) (cancelsStep sorted t) state (done ++ [a]) run' ∧
        CancelsBehind plan.steps t run' := by
    intro done a rest run run' b hsplit hrun hbody
    have heffect := gets_iff_effect.1 ⟨fuel, b, hbody⟩
    obtain ⟨r, hadds⟩ := adds_of_effect heffect
    exact ⟨hrun.1.snoc (stepId_notMem_of_split (nodup_sorted hsort) hsplit) hadds,
      cancelsBehind_step hsort ht hsplit hrun.1 hrun.2 heffect hadds⟩
  obtain ⟨hend, -⟩ := Loop.forEach_inv_prefix (J := fun _ => True) (I := fun done run =>
    Accounted (permissive plan.steps) (cancelsStep sorted t) state done run ∧
      CancelsBehind plan.steps t run) hok (fun _ _ _ _ _ _ _ _ _ => trivial)
    ⟨accounted_start state, fun v _ r hr => by cases hr⟩
  refine ⟨fuel, _, result, Prod.ext rfl hresult, ?_⟩
  simp only [executePlan, hsort] at hresult ⊢
  obtain ⟨bs, hbs⟩ := exists_map_eq_ok_iff.1 ⟨result, hresult⟩
  exact hend bs hbs

/-- **A run in which something runs on top of a cancelled dependency**, if that is not looked
at. -/
theorem exists_run_on_cancelled {plan : ExecutionPlan}
    (hsort : topologicalSort plan.steps state = .ok sorted) (hs : s ∈ plan.steps) {dep : String}
    (hdep : dep ∈ s.dependencies) (ht : RefersTo plan.steps dep t)
    (hpath : ¬TransGen (Looks plan.steps) s t) :
    ∃ fuel, ¬NothingOnFailed plan
      (executePlan (permissive plan.steps) (cancelsStep sorted t) fuel state plan).1 := by
  obtain ⟨fuel, run, result, hexec, haccount, hcancels⟩ := exists_cancelsBehind hsort ht.1
  refine ⟨fuel, fun hnothing => ?_⟩
  rw [hexec] at hnothing
  have hrecorded : ∀ v ∈ plan.steps, ∃ r ∈ run.records, r.stepId = v.stepId := by
    intro v hv
    have hmem : v.stepId ∈ sorted.map (·.stepId) :=
      List.mem_map_of_mem ((mem_sorted_iff hsort).2 hv)
    rwa [← haccount.ids, List.mem_map] at hmem
  obtain ⟨r, hr, hid⟩ := hrecorded s hs
  obtain ⟨q, hq, hqid⟩ := hrecorded t ht.1
  -- `s` completed, so its tool was called, and `t` was cancelled
  have hne : ¬(s = t ∨ TransGen (Looks plan.steps) s t) := by
    rintro (rfl | h)
    · exact not_before_self (before_of_refersTo hsort hs hdep ht)
    · exact hpath h
  have hcompleted := (hcancels s hs r hr hid).2 hne
  have htool : r.toolName = s.tool :=
    (haccount.recordOf (nodup_sorted hsort) ((mem_sorted_iff hsort).2 hs) hr hid).stepId_eq.2
  refine hnothing s hs ?_ dep hdep t ht ⟨q, hq, hqid, .inr ((hcancels t ht.1 q hq hqid).1 (.inl rfl))⟩
  rw [haccount.calls, List.mem_flatMap]
  refine ⟨r, hr, List.mem_replicate.2 ⟨?_, hid.symm⟩⟩
  simp [callsOf, hcompleted, htool, registry_permissive, hasTool_registryOf hs]

/-- **When nothing runs on top of a failed dependency**, in no run of a plan that can be sorted:
exactly if the plan is guarded. -/
theorem nothing_on_failed_iff (plan : ExecutionPlan)
    (hsort : ∀ state, ∃ sorted, topologicalSort plan.steps state = .ok sorted) :
    (∀ orch env fuel state, NothingOnFailed plan (executePlan orch env fuel state plan).1) ↔
      Guarded plan.steps := by
  constructor
  · intro h s hs dep hdep t ht
    by_contra hpath
    obtain ⟨sorted, hsorted⟩ := hsort (.create none "state")
    obtain ⟨fuel, hnot⟩ := exists_run_on_cancelled hsorted hs hdep ht hpath
    exact hnot (h _ _ _ _)
  · intro hguarded orch env fuel state s hs hcalled dep hdep t ht hbad
    obtain ⟨sorted, hsorted⟩ := hsort state
    exact ((kept_executePlan orch env fuel hsorted).not_called (hguarded s hs dep hdep t ht) hbad).1
      hcalled

/-- Two steps of one tool, and a step that depends on the tool. -/
def twoParsers : ExecutionPlan :=
  ⟨"Analyse the email.", .full,
    [{ plainStep "parser_tool" 1 [] fits_parserTool one_le_first with stepId := "first" },
      { plainStep "parser_tool" 2 [] fits_parserTool one_le_second with stepId := "second" },
      plainStep "url_tool" 3 ["parser_tool"] fits_urlTool one_le_third], 1, fits_goal, mem_certain⟩

theorem sort_twoParsers (state : AgentState) :
    ∃ sorted, topologicalSort twoParsers.steps state = .ok sorted := ⟨twoParsers.steps, rfl⟩

theorem nothing_on_failed_twoParsers :
    (∀ state, ∃ sorted, topologicalSort twoParsers.steps state = .ok sorted) ∧
      ((∀ orch env fuel state, NothingOnFailed twoParsers
          (executePlan orch env fuel state twoParsers).1) ↔ Guarded twoParsers.steps) :=
  ⟨sort_twoParsers, nothing_on_failed_iff twoParsers sort_twoParsers⟩

/-- The caller cancels the second step, and the URL tool is called all the same. -/
theorem url_runs_on_cancelled :
    ¬NothingOnFailed twoParsers (executePlan (.create id sampleRegistry) (cancelsOnly 1) 1
      (.create none "state") twoParsers).1 := by
  intro h
  have hcalls : (executePlan (.create id sampleRegistry) (cancelsOnly 1) 1
      (.create none "state") twoParsers).1.calls = ["first", "url_tool"] := by decide +kernel
  have hrecords : (executePlan (.create id sampleRegistry) (cancelsOnly 1) 1
      (.create none "state") twoParsers).1.records.map (fun r => (r.stepId, r.status)) =
      [("first", .completed), ("second", .cancelled), ("url_tool", .completed)] := by decide +kernel
  refine h (plainStep "url_tool" 3 ["parser_tool"] fits_urlTool one_le_third) (by simp [twoParsers])
    (by rw [hcalls]; decide) "parser_tool" (by simp [plainStep])
    { plainStep "parser_tool" 2 [] fits_parserTool one_le_second with stepId := "second" } ?_ ?_
  · refine ⟨by simp [twoParsers], .inr ⟨rfl, ?_⟩⟩
    decide
  · have hmem : ("second", StepExecutionStatus.cancelled) ∈ (executePlan (.create id sampleRegistry)
        (cancelsOnly 1) 1 (.create none "state") twoParsers).1.records.map
          (fun r => (r.stepId, r.status)) := by
      rw [hrecords]
      decide
    obtain ⟨r, hr, heq⟩ := List.mem_map.1 hmem
    obtain ⟨hid, hstatus⟩ := Prod.mk.inj heq
    exact ⟨r, hr, hid, .inr hstatus⟩

end ScamOn.Planner
