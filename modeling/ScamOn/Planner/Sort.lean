import ScamOn.Lib.TopologicalSort
import ScamOn.Planner.Policies

/-!
# The order of execution

`PlannerOrchestrator._topological_sort` puts the steps of a plan in the order in which
they run: a step after all that its dependencies name, and otherwise by priority.

* `topologicalSort` is the sort.  It raises exactly if identifiers repeat or the graph has
  a cycle: `topologicalSort_eq_error_iff`.
* `sort_agrees_with_validator`: the graph of the validator has a cycle exactly if the sort
  raises, and exactly if the search of the validator finds one.
* `RunsBefore` says which of two steps comes first, from dependencies, priorities and
  positions; `before_iff_runsBefore` says that the sort obeys it.
* `preconditions_first_iff`: when an accepted plan runs its preconditions first.
-/

namespace ScamOn.Planner

open TopologicalSort

/-- `step_map`: the steps by identifier, the last one of an identifier if it repeats. -/
def stepMap (steps : List ExecutionStep) : Dict String ExecutionStep :=
  steps.foldl (fun m s => m.set s.stepId s) ∅

/-- The edges that a dependency of a step adds: from the step of that identifier, or else
from all steps of that tool.  One that is neither adds none, whether or not the history has
a completed record of such a tool. -/
def edgesOf (steps : List ExecutionStep) (s : ExecutionStep) (dep : String) : List (String × String) :=
  if (stepMap steps).contains dep then [(dep, s.stepId)]
  else (steps.filter (·.tool = dep)).map fun t => (t.stepId, s.stepId)

/-- All edges, in the order in which the loop over the steps adds them. -/
def stepEdges (steps : List ExecutionStep) : List (String × String) :=
  steps.flatMap fun s => s.dependencies.flatMap (edgesOf steps s)

/-- `step_map[sid].priority`. -/
def priorityOf (steps : List ExecutionStep) (sid : String) : ℤ :=
  match (stepMap steps).get? sid with
  | some s => s.priority
  | none => 0

/-- The exception of a sort that could not place all steps. -/
def circular : PyException := ⟨"ValueError", "Plan contains circular dependency."⟩

/-- `_topological_sort`.  The state decides nothing: a dependency that only the history can
resolve adds no edge. -/
def topologicalSort (steps : List ExecutionStep) (_state : AgentState) :
    Except PyException (List ExecutionStep) :=
  match sortNodes (stepMap steps).keys (stepEdges steps) (priorityOf steps) with
  -- there are no more turns than nodes, so the loop has always ended
  | none => .error circular
  | some order =>
    let result := order.filterMap (stepMap steps).get?
    if result.length < steps.length then .error circular else .ok result

variable {steps : List ExecutionStep} {state : AgentState}

/-! ## The table of steps -/

theorem keys_foldl_set (m : Dict String ExecutionStep) (sid : String) :
    sid ∈ (steps.foldl (fun m s => m.set s.stepId s) m).keys ↔
      sid ∈ m.keys ∨ ∃ s ∈ steps, s.stepId = sid := by
  induction steps generalizing m with
  | nil => simp
  | cons s rest ih =>
    rw [List.foldl_cons, ih, Dict.mem_keys_iff, Dict.mem_keys_iff, Dict.get?_set]
    by_cases h : sid = s.stepId
    · simp [h]
    · simp [h, Ne.symm h]

theorem mem_keys_stepMap {sid : String} :
    sid ∈ (stepMap steps).keys ↔ sid ∈ steps.map (·.stepId) := by
  rw [stepMap, keys_foldl_set]
  simp

theorem contains_stepMap (dep : String) :
    (stepMap steps).contains dep = steps.any (·.stepId = dep) := by
  rw [Bool.eq_iff_iff, Dict.contains, ← Dict.mem_keys_iff, mem_keys_stepMap]
  simp

/-- A step of the table is one of the plan, under its own identifier. -/
theorem mem_of_get?_stepMap {sid : String} {s : ExecutionStep} (h : (stepMap steps).get? sid = some s) :
    s ∈ steps ∧ s.stepId = sid := by
  have hfold : ∀ (l : List ExecutionStep) (m : Dict String ExecutionStep),
      (l.foldl (fun m s => m.set s.stepId s) m).get? sid = some s →
        m.get? sid = some s ∨ s ∈ l ∧ s.stepId = sid := by
    intro l
    induction l with
    | nil => exact fun m h => .inl h
    | cons t rest ih =>
      intro m h
      rcases ih _ h with hget | ⟨hs, hid⟩
      · rw [Dict.get?_set] at hget
        split_ifs at hget with heq
        · cases hget
          exact .inr ⟨by simp, heq.symm⟩
        · exact .inl hget
      · exact .inr ⟨by simp [hs], hid⟩
  rcases hfold steps ∅ h with hempty | hmem
  · simp at hempty
  · exact hmem

/-- If identifiers are distinct, the table has every step under its identifier. -/
theorem get?_stepMap (hnodup : (steps.map (·.stepId)).Nodup) {s : ExecutionStep} (hs : s ∈ steps) :
    (stepMap steps).get? s.stepId = some s := by
  have hkey : s.stepId ∈ (stepMap steps).keys := mem_keys_stepMap.2 (List.mem_map_of_mem hs)
  obtain ⟨t, ht⟩ := Option.isSome_iff_exists.1 (Dict.mem_keys_iff.1 hkey)
  obtain ⟨hmem, hid⟩ := mem_of_get?_stepMap ht
  rw [ht, List.inj_on_of_nodup_map hnodup hmem hs hid]

/-- If identifiers are distinct, they are listed in the order of the steps. -/
theorem keys_stepMap (hnodup : (steps.map (·.stepId)).Nodup) :
    (stepMap steps).keys = steps.map (·.stepId) := by
  have hfold : ∀ (l : List ExecutionStep) (m : Dict String ExecutionStep),
      (m.keys ++ l.map (·.stepId)).Nodup →
        (l.foldl (fun m s => m.set s.stepId s) m).keys = m.keys ++ l.map (·.stepId) := by
    intro l
    induction l with
    | nil => simp
    | cons s rest ih =>
      intro m hm
      have hnone : m.get? s.stepId = none := by
        rw [← Option.not_isSome_iff_eq_none, ← Dict.mem_keys_iff]
        exact fun hkey => List.disjoint_of_nodup_append hm hkey (by simp)
      have hkeys := Dict.keys_set_of_get?_eq_none hnone s
      rw [List.foldl_cons, ih, hkeys]
      · simp
      · rw [hkeys]
        simpa using hm
  rw [stepMap, hfold steps ∅ (by simpa using hnodup), Dict.keys_empty, List.nil_append]

/-- With a repeated identifier the table is shorter than the plan. -/
theorem length_keys_lt (hdup : ¬(steps.map (·.stepId)).Nodup) :
    (stepMap steps).keys.length < steps.length := by
  have hsub : (stepMap steps).keys ⊆ steps.map (·.stepId) := fun sid h => mem_keys_stepMap.1 h
  have hsubperm := List.subperm_of_subset (stepMap steps).nodup_keys hsub
  have hle := hsubperm.length_le
  rw [List.length_map] at hle
  refine lt_of_le_of_ne hle fun heq => hdup ?_
  exact (hsubperm.perm_of_length_le (by simpa using heq.ge)).nodup_iff.1 (stepMap steps).nodup_keys

/-- Looking identifiers up in the table gives their steps. -/
theorem map_stepId_filterMap {order : List String} (h : ∀ sid ∈ order, sid ∈ (stepMap steps).keys) :
    (order.filterMap (stepMap steps).get?).map (·.stepId) = order := by
  induction order with
  | nil => rfl
  | cons sid rest ih =>
    obtain ⟨s, hs⟩ := Option.isSome_iff_exists.1 (Dict.mem_keys_iff.1 (h sid (by simp)))
    rw [List.filterMap_cons_some hs, List.map_cons, (mem_of_get?_stepMap hs).2,
      ih fun t ht => h t (by simp [ht])]

theorem filterMap_get?_ids (hnodup : (steps.map (·.stepId)).Nodup) :
    (steps.map (·.stepId)).filterMap (stepMap steps).get? = steps := by
  have hsub : ∀ l : List ExecutionStep, l ⊆ steps →
      (l.map (·.stepId)).filterMap (stepMap steps).get? = l := by
    intro l
    induction l with
    | nil => simp
    | cons s rest ih =>
      intro h
      rw [List.map_cons, List.filterMap_cons_some (get?_stepMap hnodup (h (by simp))),
        ih fun t ht => h (by simp [ht])]
  exact hsub steps fun s hs => hs

/-! ## The two graphs -/

theorem edgesOf_eq (s : ExecutionStep) (dep : String) :
    edgesOf steps s dep = (dependencySteps steps dep).map fun t => (t, s.stepId) := by
  rw [edgesOf, contains_stepMap, dependencySteps]
  split <;> simp

/-- The edges of the sort are those of the validator, the other way round. -/
theorem edge_stepEdges {a b : String} : Edge (stepEdges steps) a b ↔ DependsOn steps b a := by
  have hmem : Edge (stepEdges steps) a b ↔
      ∃ s ∈ steps, s.stepId = b ∧ ∃ dep ∈ s.dependencies, a ∈ dependencySteps steps dep := by
    simp only [Edge, stepEdges, List.mem_flatMap, edgesOf_eq, List.mem_map, Prod.mk.injEq]
    constructor
    · rintro ⟨s, hs, dep, hdep, t, ht, rfl, rfl⟩
      exact ⟨s, hs, rfl, dep, hdep, ht⟩
    · rintro ⟨s, hs, rfl, dep, hdep, ht⟩
      exact ⟨s, hs, dep, hdep, a, ht, rfl, rfl⟩
  simp only [hmem, mem_dependencySteps, DependsOn]

theorem hasCycle_iff : HasCycle (stepEdges steps) ↔ DepthFirst.HasCycle (stepGraph steps) := by
  have hswap : Edge (stepEdges steps) = Function.swap (DepthFirst.Edge (stepGraph steps)) := by
    funext a b
    show Edge (stepEdges steps) a b = DepthFirst.Edge (stepGraph steps) b a
    rw [edge_stepEdges, edge_stepGraph]
  simp only [HasCycle, DepthFirst.HasCycle, hswap, Relation.transGen_swap]

theorem mem_ids_of_edge (a b : String) (h : Edge (stepEdges steps) a b) :
    a ∈ steps.map (·.stepId) ∧ b ∈ steps.map (·.stepId) := (edge_stepEdges.1 h).mem.symm

theorem mem_keys_of_edge (a b : String) (h : Edge (stepEdges steps) a b) :
    a ∈ (stepMap steps).keys ∧ b ∈ (stepMap steps).keys :=
  ⟨mem_keys_stepMap.2 (mem_ids_of_edge a b h).1, mem_keys_stepMap.2 (mem_ids_of_edge a b h).2⟩

/-! ## The sort -/

/-- **What a sort that returns says**: identifiers are distinct, there is no cycle, and the
order is that of the sorted identifiers. -/
theorem topologicalSort_eq_ok {sorted : List ExecutionStep}
    (h : topologicalSort steps state = .ok sorted) :
    (steps.map (·.stepId)).Nodup ∧ ¬DepthFirst.HasCycle (stepGraph steps) ∧ sorted.Perm steps ∧
      sortNodes (steps.map (·.stepId)) (stepEdges steps) (priorityOf steps) =
        some (sorted.map (·.stepId)) := by
  obtain ⟨order, horder, hnodup, hsub, -, hlength⟩ := sortNodes_spec (stepMap steps).nodup_keys
    mem_keys_of_edge (priorityOf steps)
  simp only [topologicalSort, horder] at h
  split at h
  · cases h
  · rename_i hall
    cases h
    have hmap := map_stepId_filterMap hsub
    have hle : steps.length ≤ order.length := by
      rw [← hmap, List.length_map]
      omega
    have hids : (steps.map (·.stepId)).Nodup := by
      by_contra hdup
      have hshort := length_keys_lt hdup
      have hsubperm := (List.subperm_of_subset hnodup hsub).length_le
      omega
    rw [keys_stepMap hids] at horder hsub hlength
    have hacyclic : ¬HasCycle (stepEdges steps) := by
      rw [← hlength, List.length_map]
      omega
    have hperm : order.Perm (steps.map (·.stepId)) :=
      (List.subperm_of_subset hnodup hsub).perm_of_length_le (by simpa using hle)
    refine ⟨hids, fun hcycle => hacyclic (hasCycle_iff.2 hcycle), ?_, ?_⟩
    · have hresult := hperm.filterMap (stepMap steps).get?
      rwa [filterMap_get?_ids hids] at hresult
    · rw [horder, hmap]

theorem topologicalSort_eq_error {e : PyException} (h : topologicalSort steps state = .error e) :
    e = circular := by
  unfold topologicalSort at h
  split at h
  · cases h
    rfl
  · dsimp only at h
    split at h
    · cases h
      rfl
    · cases h

/-- **The sort returns** if identifiers are distinct and there is no cycle. -/
theorem exists_topologicalSort_eq_ok (hnodup : (steps.map (·.stepId)).Nodup)
    (hacyclic : ¬DepthFirst.HasCycle (stepGraph steps)) (state : AgentState) :
    ∃ sorted, topologicalSort steps state = .ok sorted := by
  obtain ⟨order, horder, -, hsub, -, hlength⟩ := sortNodes_spec (stepMap steps).nodup_keys
    mem_keys_of_edge (priorityOf steps)
  have hmap := map_stepId_filterMap hsub
  rw [keys_stepMap hnodup, hasCycle_iff, List.length_map] at hlength
  have hlong : ¬(order.filterMap (stepMap steps).get?).length < steps.length := by
    rw [← List.length_map (f := (·.stepId)), hmap, hlength]
    exact hacyclic
  refine ⟨order.filterMap (stepMap steps).get?, ?_⟩
  simp only [topologicalSort, horder, if_neg hlong]

/-- **The sort raises** exactly if an identifier repeats or there is a cycle. -/
theorem topologicalSort_eq_error_iff :
    topologicalSort steps state = .error circular ↔
      ¬(steps.map (·.stepId)).Nodup ∨ DepthFirst.HasCycle (stepGraph steps) := by
  constructor
  · intro h
    by_contra hnot
    push Not at hnot
    obtain ⟨sorted, hok⟩ := exists_topologicalSort_eq_ok hnot.1 hnot.2 state
    rw [hok] at h
    cases h
  · intro h
    cases hsort : topologicalSort steps state with
    | error e => rw [topologicalSort_eq_error hsort]
    | ok sorted =>
      obtain ⟨hnodup, hacyclic, -⟩ := topologicalSort_eq_ok hsort
      exact absurd h (by simp [hnodup, hacyclic])

theorem before_of_refersTo {sorted : List ExecutionStep} (h : topologicalSort steps state = .ok sorted)
    {s t : ExecutionStep} (hs : s ∈ steps) {dep : String} (hdep : dep ∈ s.dependencies)
    (ht : RefersTo steps dep t) : Before (sorted.map (·.stepId)) t.stepId s.stepId := by
  obtain ⟨hnodup, hacyclic, -, hsort⟩ := topologicalSort_eq_ok h
  refine before_of_edge hnodup mem_ids_of_edge hsort (fun hcycle => hacyclic (hasCycle_iff.1 hcycle)) ?_
  exact edge_stepEdges.2 ⟨s, hs, rfl, dep, hdep, t, ht, rfl⟩

theorem fits_parserTool : Fits 1 128 "parser_tool" := by decide

theorem fits_urlTool : Fits 1 128 "url_tool" := by decide

theorem fits_description : Fits 1 1024 "A tool." := by decide

theorem fits_goal : Fits 1 512 "Analyse the email." := by decide

theorem mem_certain : (0 : ℚ) ≤ 1 ∧ (1 : ℚ) ≤ 1 := by decide

theorem one_le_first : (1 : ℤ) ≤ 1 := by decide

theorem one_le_second : (1 : ℤ) ≤ 2 := by decide

theorem one_le_third : (1 : ℤ) ≤ 3 := by decide

/-- A step with nothing but a tool, a priority, an identifier and dependencies. -/
def plainStep (tool : String) (priority : ℤ) (dependencies : List String)
    (htool : Fits 1 128 tool) (hpriority : 1 ≤ priority) : ExecutionStep :=
  ⟨tool, priority, "Investigate.", tool, dependencies, [], ∅, .finite 0, .finite 0, htool, hpriority,
    by decide⟩

/-- The parser has the lowest priority number, and waits for a tool of the highest. -/
def lateParser : ExecutionPlan :=
  ⟨"Analyse the email.", .full,
    [plainStep "parser_tool" 2 ["slow_tool"] fits_parserTool one_le_second,
      plainStep "url_tool" 3 [] fits_urlTool one_le_third,
      plainStep "slow_tool" 9 [] (by decide) (by decide)], 1, fits_goal, mem_certain⟩

/-- **The validator and the sort agree.**  The sort raises exactly if the graph of the
validator has a cycle, which is exactly if its search finds one; otherwise it returns all
steps, each after those that its dependencies refer to. -/
theorem sort_agrees_with_validator (plan : ExecutionPlan) (state : AgentState)
    (hnodup : (plan.steps.map (·.stepId)).Nodup) :
    (topologicalSort plan.steps state = .error circular ↔
        DepthFirst.HasCycle (stepGraph plan.steps)) ∧
      (DepthFirst.HasCycle (stepGraph plan.steps) ↔ ∃ sid, findCycle plan.steps = some sid) ∧
      ∀ sorted, topologicalSort plan.steps state = .ok sorted → sorted.Perm plan.steps ∧
        ∀ s ∈ plan.steps, ∀ dep ∈ s.dependencies, ∀ t, RefersTo plan.steps dep t →
          Before (sorted.map (·.stepId)) t.stepId s.stepId := by
  refine ⟨?_, ?_, fun sorted h => ⟨?_, fun s hs dep hdep t ht => ?_⟩⟩
  · rw [topologicalSort_eq_error_iff]
    simp [hnodup]
  · rw [← findCycle_isSome_iff, Option.isSome_iff_exists]
  · obtain ⟨-, -, hperm, -⟩ := topologicalSort_eq_ok h
    exact hperm
  · exact before_of_refersTo h hs hdep ht

theorem sort_agrees_lateParser :
    (lateParser.steps.map (·.stepId)).Nodup ∧
      (topologicalSort lateParser.steps (.create none "state") = .error circular ↔
        DepthFirst.HasCycle (stepGraph lateParser.steps)) :=
  have hnodup : (lateParser.steps.map (·.stepId)).Nodup := by decide
  ⟨hnodup, (sort_agrees_with_validator lateParser (.create none "state") hnodup).1⟩

/-! ## Which step runs first -/

/-- The edges are listed in the order of the steps they lead to. -/
theorem pairwise_stepEdges (hnodup : (steps.map (·.stepId)).Nodup) :
    (stepEdges steps).Pairwise fun e e' =>
      (steps.map (·.stepId)).idxOf e.2 ≤ (steps.map (·.stepId)).idxOf e'.2 := by
  have hto : ∀ s : ExecutionStep, ∀ e ∈ s.dependencies.flatMap (edgesOf steps s), e.2 = s.stepId := by
    intro s e he
    simp only [List.mem_flatMap, edgesOf_eq, List.mem_map] at he
    obtain ⟨dep, -, t, -, rfl⟩ := he
    rfl
  refine List.pairwise_flatMap.2 ⟨fun s _ => ?_, ?_⟩
  · refine List.pairwise_of_forall_mem_list fun e he e' he' => ?_
    rw [hto s e he, hto s e' he']
  · refine (List.pairwise_map.1 (pairwise_idxOf hnodup)).imp fun {s s'} hlt e he e' he' => ?_
    rw [hto s e he, hto s' e' he']
    exact hlt.le

/-- One step is derived to run before another: from the dependencies of the plan, the
priorities and the positions of its steps. -/
def RunsBefore (steps : List ExecutionStep) (t s : ExecutionStep) : Prop :=
  Precedes (steps.map (·.stepId)) (stepEdges steps) (priorityOf steps) t.stepId s.stepId

/-- **The order of execution is the one that is derived.** -/
theorem before_iff_runsBefore {sorted : List ExecutionStep}
    (h : topologicalSort steps state = .ok sorted) (t s : ExecutionStep) :
    Before (sorted.map (·.stepId)) t.stepId s.stepId ↔ RunsBefore steps t s := by
  obtain ⟨hnodup, hacyclic, -, hsort⟩ := topologicalSort_eq_ok h
  exact before_iff_precedes hnodup mem_ids_of_edge hsort (fun hcycle => hacyclic (hasCycle_iff.1 hcycle))
    (pairwise_stepEdges hnodup)

/-- In an order of execution every step comes after the tools that a policy wants before it
and that the history has no completed record of. -/
def PreconditionsFirst (config : PlanningPolicyConfig) (state : AgentState)
    (sorted : List ExecutionStep) : Prop :=
  ∀ s ∈ sorted, ∀ req ∈ (config.preconditions.get? s.tool).getD [], ¬state.Completed req →
    ∃ t ∈ sorted, t.tool = req ∧ Before (sorted.map (·.stepId)) t.stepId s.stepId

/-- **When an accepted plan runs its preconditions first.**  The policy only looks for a
step of a lower priority number; what is needed is one that is derived to run before. -/
theorem preconditions_first_iff (add : PyNumber → PyNumber → PyNumber)
    (config : PlanningPolicyConfig) (report : ValidationReport) (registry : ToolRegistry)
    (plan : ExecutionPlan) (state : AgentState)
    (haccept : AcceptsIn add config report registry plan state) :
    (∃ sorted, topologicalSort plan.steps state = .ok sorted ∧
        PreconditionsFirst config state sorted) ↔
      ∀ s ∈ plan.steps, ∀ req ∈ (config.preconditions.get? s.tool).getD [], ¬state.Completed req →
        ∃ t ∈ plan.steps, t.tool = req ∧ RunsBefore plan.steps t s := by
  obtain ⟨context, -, haccept⟩ := haccept
  have haccepted := accepted_of_validatePlan haccept
  obtain ⟨sorted, hsorted⟩ :=
    exists_topologicalSort_eq_ok haccepted.nodup haccepted.acyclic state
  obtain ⟨-, -, hperm, -⟩ := topologicalSort_eq_ok hsorted
  have hfirst : PreconditionsFirst config state sorted ↔
      ∀ s ∈ plan.steps, ∀ req ∈ (config.preconditions.get? s.tool).getD [], ¬state.Completed req →
        ∃ t ∈ plan.steps, t.tool = req ∧ RunsBefore plan.steps t s := by
    simp only [PreconditionsFirst, hperm.mem_iff, before_iff_runsBefore hsorted]
  rw [← hfirst]
  constructor
  · rintro ⟨sorted', hsorted', h⟩
    obtain rfl : sorted' = sorted := Except.ok.inj (hsorted'.symm.trans hsorted)
    exact h
  · exact fun h => ⟨sorted, hsorted, h⟩

/-- A policy that wants the parser before the URL tool. -/
def parserFirst : PlanningPolicyConfig where
  confidenceThreshold := 1 / 2
  maxSteps := 10
  costLimit := .finite 5
  allowDuplicates := false
  eligibleTools := none
  requiredDependencies := ∅
  toolPriorityRanges := ∅
  preconditions := Dict.set ∅ "url_tool" ["parser_tool"]
  confidenceThreshold_mem := by norm_num
  maxSteps_pos := by decide

def sampleTool (name : String) (h : Fits 1 128 name) : ToolMetadata :=
  ⟨name, "A tool.", [], h, fits_description⟩

def sampleRegistry : ToolRegistry where
  tools := ((Dict.set ∅ "parser_tool" (sampleTool "parser_tool" fits_parserTool)).set "url_tool"
    (sampleTool "url_tool" fits_urlTool)).set "slow_tool" (sampleTool "slow_tool" (by decide))
  keyed := by
    intro name metadata h
    simp only [Dict.get?_set, Dict.get?_empty] at h
    split_ifs at h <;> cases h <;> simp_all [sampleTool]

theorem acceptsIn_lateParser :
    AcceptsIn (fun x _ => x) parserFirst (fun _ _ _ => "") sampleRegistry lateParser
      (.create none "state") :=
  ⟨_, rfl, by decide +kernel⟩

theorem preconditions_first_lateParser :
    AcceptsIn (fun x _ => x) parserFirst (fun _ _ _ => "") sampleRegistry lateParser
        (.create none "state") ∧
      ((∃ sorted, topologicalSort lateParser.steps (.create none "state") = .ok sorted ∧
          PreconditionsFirst parserFirst (.create none "state") sorted) ↔
        ∀ s ∈ lateParser.steps, ∀ req ∈ (parserFirst.preconditions.get? s.tool).getD [],
          ¬(AgentState.create none "state").Completed req →
            ∃ t ∈ lateParser.steps, t.tool = req ∧ RunsBefore lateParser.steps t s) :=
  ⟨acceptsIn_lateParser, preconditions_first_iff _ _ _ _ _ _ acceptsIn_lateParser⟩

/-- The URL tool runs first: the parser waits for the slow tool, and that one waits for its
turn. -/
theorem parser_runs_late :
    AcceptsIn (fun x _ => x) parserFirst (fun _ _ _ => "") sampleRegistry lateParser
        (.create none "state") ∧
      ¬∃ sorted, topologicalSort lateParser.steps (.create none "state") = .ok sorted ∧
        PreconditionsFirst parserFirst (.create none "state") sorted := by
  refine ⟨acceptsIn_lateParser, ?_⟩
  rintro ⟨sorted, hsorted, hfirst⟩
  obtain ⟨-, -, hperm, -⟩ := topologicalSort_eq_ok hsorted
  have horder : sorted.map (·.stepId) = ["url_tool", "slow_tool", "parser_tool"] := by
    have hids : (topologicalSort lateParser.steps (.create none "state")).map
        (List.map (·.stepId)) = .ok ["url_tool", "slow_tool", "parser_tool"] := by decide
    rw [hsorted] at hids
    exact Except.ok.inj hids
  obtain ⟨t, ht, htool, hbefore⟩ := hfirst (plainStep "url_tool" 3 [] fits_urlTool one_le_third)
    (hperm.mem_iff.2 (by simp [lateParser])) "parser_tool" (by decide)
    (by simp [AgentState.Completed, AgentState.create])
  have hid : t.stepId = t.tool := by
    have hall : ∀ u ∈ lateParser.steps, u.stepId = u.tool := by simp [lateParser, plainStep]
    exact hall t (hperm.mem_iff.1 ht)
  rw [horder, hid, htool] at hbefore
  exact absurd hbefore.2 (by decide)

end ScamOn.Planner
