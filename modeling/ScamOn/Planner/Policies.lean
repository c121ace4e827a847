import ScamOn.Lib.DepthFirst
import ScamOn.Planner.Models

/-!
# Planning policies

`ConfigurablePlanningPolicy.validate_plan` checks a plan against limits, the registered
tools, the history and the dependencies among its steps.  The first check that fails
raises; a plan that none of them refuses is accepted.

* `buildContext` is what the planner tells the policy about the agent state.
* `validatePlan` is the whole check, `PlanRejection` what it may say.
* `stepGraph` is the graph of its last part and `findCycle` the search for a cycle in it;
  `findCycle_isSome_iff` says that the search finds one exactly if there is one.
* `Accepted` collects what acceptance means for the order of execution.
-/

namespace ScamOn.Planner

/-! ## The context -/

/-- `ToolSelection`. -/
structure ToolSelection where
  name : String
  description : String
  capabilities : List String
  deriving DecidableEq

/-- An entry of the history, as the context has it. -/
structure HistoryEntry where
  stepNumber : ℕ
  toolName : String
  status : String
  details : List (String × PyValue)
  deriving DecidableEq

/-- `PlannerContext`. -/
structure PlannerContext where
  emailId : Option String
  emailSubject : Option String
  emailSender : Option String
  emailBodySummary : Option String
  availableTools : List ToolSelection
  executionHistory : List HistoryEntry
  accumulatedEvidence : List Evidence

/-- The text fields of a context that have limits, with those limits. -/
def contextLimits (email : EmailInput) : List (String × ℕ × String) :=
  [("email_id", 128, email.header.messageId), ("email_subject", 512, email.header.subject),
    ("email_sender", 256, email.header.sender),
    ("email_body_summary", 4096, String.ofList (email.bodyText.toList.take 2000))]

/-- `DefaultPlannerContextBuilder.build_context`.  An email may have a longer header than
the context takes; then the context is refused. -/
def buildContext (report : ValidationReport) (registry : ToolRegistry) (state : AgentState) :
    Except PyException PlannerContext :=
  let availableTools := registry.listMetadata.map fun m => ⟨m.name, m.description, m.capabilities⟩
  let history := state.executionHistory.map fun h => ⟨h.stepNumber, h.toolName, h.status.value, h.details⟩
  match state.parsedEmail with
  | none => .ok ⟨none, none, none, none, availableTools, history, state.evidence⟩
  | some email =>
    match (contextLimits email).find? fun field => field.2.1 < field.2.2.length with
    | some (field, _, value) => .error ⟨"ValidationError", report "PlannerContext" field value⟩
    | none =>
      .ok ⟨some email.header.messageId, some email.header.subject, some email.header.sender,
        some (String.ofList (email.bodyText.toList.take 2000)), availableTools, history,
        state.evidence⟩

/-! ## The checks -/

/-- `PlanningPolicyConfig`. -/
structure PlanningPolicyConfig where
  confidenceThreshold : ℚ
  maxSteps : ℕ
  costLimit : PyNumber
  allowDuplicates : Bool
  eligibleTools : Option (List String)
  requiredDependencies : Dict String (List String)
  toolPriorityRanges : Dict String (ℤ × ℤ)
  preconditions : Dict String (List String)
  confidenceThreshold_mem : 0 ≤ confidenceThreshold ∧ confidenceThreshold ≤ 1
  maxSteps_pos : 1 ≤ maxSteps

/-- The reasons of `validate_plan` to raise `JSONValidationError`, with what the message
names. -/
inductive PlanRejection
  | lowConfidence (confidence threshold : ℚ)
  | tooManySteps (count limit : ℕ)
  | unregisteredTool (tool : String) (registered : List String)
  | ineligibleTool (tool : String)
  | duplicateTool (tool : String)
  | priorityOutOfRange (priority : ℤ) (tool : String) (low high : ℤ)
  | duplicateStepId (stepId : String)
  | overCostLimit (total limit : PyNumber)
  | preconditionFailed (req tool : String)
  | requiredDependencyFailed (tool dep : String)
  | unresolvedDependency (stepId dep : String)
  | circularDependency (stepId : String)
  deriving DecidableEq

/-- The names of the tools that a context offers. -/
def PlannerContext.registeredTools (context : PlannerContext) : List String :=
  context.availableTools.map (·.name)

/-- The tools that a context reports as completed. -/
def PlannerContext.executedTools (context : PlannerContext) : List String :=
  (context.executionHistory.filter (·.status = "completed")).map (·.toolName)

/-- What the loop over the steps has seen: the tools, the steps by identifier, the cost. -/
structure Seen where
  tools : List String
  stepMap : Dict String ExecutionStep
  totalCost : PyNumber

section Validate

variable (add : PyNumber → PyNumber → PyNumber) (config : PlanningPolicyConfig)

/-- The checks of one step, in the loop that collects the steps.  `add` is the addition of
floating-point numbers. -/
def checkStep (registered : List String) (seen : Seen) (step : ExecutionStep) :
    Except PlanRejection Seen :=
  if !registered.contains step.tool then .error (.unregisteredTool step.tool registered)
  else if config.eligibleTools.any (fun eligible => !eligible.contains step.tool) then
    .error (.ineligibleTool step.tool)
  else if !config.allowDuplicates && seen.tools.contains step.tool then
    .error (.duplicateTool step.tool)
  else
    match (config.toolPriorityRanges.get? step.tool).filter fun range =>
        !(range.1 ≤ step.priority && step.priority ≤ range.2) with
    | some (low, high) => .error (.priorityOutOfRange step.priority step.tool low high)
    | none =>
      if seen.stepMap.contains step.stepId then .error (.duplicateStepId step.stepId)
      else
        .ok ⟨seen.tools ++ [step.tool], seen.stepMap.set step.stepId step,
          add seen.totalCost step.estimatedCost⟩

/-- The loop over the steps. -/
def checkSteps (registered : List String) : Seen → List ExecutionStep → Except PlanRejection Seen
  | seen, [] => .ok seen
  | seen, step :: rest =>
    match checkStep add config registered seen step with
    | .error e => .error e
    | .ok seen' => checkSteps registered seen' rest

/-- Whether a tool that has to run before `step` is taken to do so: it is in the history,
or it has a step of a lower priority number. -/
def preconditionMet (steps : List ExecutionStep) (executed : List String) (step : ExecutionStep)
    (req : String) : Bool :=
  executed.contains req ||
    steps.any fun other => other.tool = req && other.priority < step.priority

/-- Preconditions, required dependencies and dependencies of one step. -/
def checkRequirements (steps : List ExecutionStep) (executed : List String) (seen : Seen)
    (step : ExecutionStep) : Option PlanRejection :=
  (((config.preconditions.get? step.tool).getD []).findSome? fun req =>
      if preconditionMet steps executed step req then none
      else some (.preconditionFailed req step.tool)).or <|
  (((config.requiredDependencies.get? step.tool).getD []).findSome? fun dep =>
      if executed.contains dep || seen.tools.contains dep then none
      else some (.requiredDependencyFailed step.tool dep)).or <|
  step.dependencies.findSome? fun dep =>
    if seen.stepMap.contains dep || seen.tools.contains dep || executed.contains dep then none
    else some (.unresolvedDependency step.stepId dep)

/-- The steps that a dependency names: the one of that identifier, else all of that tool. -/
def dependencySteps (steps : List ExecutionStep) (dep : String) : List String :=
  if steps.any (·.stepId = dep) then [dep]
  else (steps.filter (·.tool = dep)).map (·.stepId)

/-- The graph of the circularity check: from each step to those it depends on. -/
def stepGraph (steps : List ExecutionStep) : String → List String :=
  steps.foldl (fun adj s => Function.update adj s.stepId
    (adj s.stepId ++ s.dependencies.flatMap (dependencySteps steps))) fun _ => []

/-- The depth-first search: a step from which a cycle is found.  No path without a
repetition is longer than the plan, so the search never gets to the depth at which it
would have no result. -/
def findCycle (steps : List ExecutionStep) : Option String :=
  (DepthFirst.search (stepGraph steps) steps.length (fun _ => .unvisited)
    (steps.map (·.stepId))).join

/-- `validate_plan`. -/
def validatePlan (plan : ExecutionPlan) (context : PlannerContext) : Except PlanRejection Unit :=
  let executed := context.executedTools
  if plan.confidence < config.confidenceThreshold then
    .error (.lowConfidence plan.confidence config.confidenceThreshold)
  else if config.maxSteps < plan.steps.length then
    .error (.tooManySteps plan.steps.length config.maxSteps)
  else
    match checkSteps add config context.registeredTools ⟨[], ∅, .finite 0⟩ plan.steps with
    | .error e => .error e
    | .ok seen =>
      if PyNumber.lt config.costLimit seen.totalCost then
        .error (.overCostLimit seen.totalCost config.costLimit)
      else
        match plan.steps.findSome? (checkRequirements config plan.steps executed seen) with
        | some e => .error e
        | none =>
          match findCycle plan.steps with
          | some sid => .error (.circularDependency sid)
          | none => .ok ()

end Validate

/-! ## The graph of a plan -/

variable {steps : List ExecutionStep}

/-- A dependency refers to a step: by its identifier, or, if no step has that identifier,
by its tool. -/
def RefersTo (steps : List ExecutionStep) (dep : String) (t : ExecutionStep) : Prop :=
  t ∈ steps ∧ (t.stepId = dep ∨ t.tool = dep ∧ ∀ u ∈ steps, u.stepId ≠ dep)

/-- One step, by its identifier, depends on another. -/
def DependsOn (steps : List ExecutionStep) (a b : String) : Prop :=
  ∃ s ∈ steps, s.stepId = a ∧ ∃ dep ∈ s.dependencies, ∃ t, RefersTo steps dep t ∧ t.stepId = b

theorem mem_dependencySteps {dep sid : String} :
    sid ∈ dependencySteps steps dep ↔ ∃ t, RefersTo steps dep t ∧ t.stepId = sid := by
  unfold dependencySteps RefersTo
  by_cases hany : ∃ u ∈ steps, u.stepId = dep
  · obtain ⟨u, hu, hid⟩ := hany
    have hany' : steps.any (·.stepId = dep) = true := by simpa using ⟨u, hu, hid⟩
    rw [if_pos hany', List.mem_singleton]
    constructor
    · rintro rfl
      exact ⟨u, ⟨hu, .inl hid⟩, hid⟩
    · rintro ⟨t, ⟨-, hid' | ⟨-, hnone⟩⟩, rfl⟩
      · exact hid'
      · exact absurd hid (hnone u hu)
  · push Not at hany
    have hany' : ¬steps.any (·.stepId = dep) = true := by simpa using hany
    rw [if_neg hany']
    simp only [List.mem_map, List.mem_filter, decide_eq_true_eq]
    constructor
    · rintro ⟨t, ⟨ht, htool⟩, rfl⟩
      exact ⟨t, ⟨ht, .inr ⟨htool, hany⟩⟩, rfl⟩
    · rintro ⟨t, ⟨ht, hid | ⟨htool, -⟩⟩, rfl⟩
      · exact absurd hid (hany t ht)
      · exact ⟨t, ⟨ht, htool⟩, rfl⟩

/-- What the loop that builds the graph has put in so far. -/
theorem mem_foldl_graph (all : List ExecutionStep) (adj : String → List String) (a b : String) :
    b ∈ steps.foldl (fun adj s => Function.update adj s.stepId
        (adj s.stepId ++ s.dependencies.flatMap (dependencySteps all))) adj a ↔
      b ∈ adj a ∨ ∃ s ∈ steps, s.stepId = a ∧ ∃ dep ∈ s.dependencies, b ∈ dependencySteps all dep := by
  induction steps generalizing adj with
  | nil => simp
  | cons s rest ih =>
    rw [List.foldl_cons, ih]
    by_cases h : a = s.stepId
    · subst h
      simp [or_assoc]
    · simp [Function.update_of_ne h, Ne.symm h]

/-- The edges of the graph are the dependencies. -/
theorem edge_stepGraph {a b : String} :
    DepthFirst.Edge (stepGraph steps) a b ↔ DependsOn steps a b := by
  simp only [DepthFirst.Edge, stepGraph, mem_foldl_graph, DependsOn, mem_dependencySteps]
  simp

theorem DependsOn.mem {a b : String} (h : DependsOn steps a b) :
    a ∈ steps.map (·.stepId) ∧ b ∈ steps.map (·.stepId) := by
  obtain ⟨s, hs, rfl, dep, -, t, ⟨ht, -⟩, rfl⟩ := h
  exact ⟨List.mem_map_of_mem hs, List.mem_map_of_mem ht⟩

/-- **The search finds a cycle exactly if there is one.** -/
theorem findCycle_isSome_iff (steps : List ExecutionStep) :
    (findCycle steps).isSome ↔ DepthFirst.HasCycle (stepGraph steps) := by
  have hnodes : ∀ a b, DepthFirst.Edge (stepGraph steps) a b →
      a ∈ steps.map (·.stepId) ∧ b ∈ steps.map (·.stepId) := fun a b h => (edge_stepGraph.1 h).mem
  have hdepth : (steps.map (·.stepId)).length ≤ steps.length := by simp
  obtain ⟨found, hfound, hiff⟩ := DepthFirst.search_eq_none_iff hnodes hdepth
  rw [findCycle, hfound, Option.join_some]
  cases found with
  | none => simpa using hiff
  | some sid => simpa using hiff

/-! ## What acceptance means -/

section Accept

variable {add : PyNumber → PyNumber → PyNumber} {config : PlanningPolicyConfig}

theorem checkStep_eq_ok {registered : List String} {seen seen' : Seen} {step : ExecutionStep}
    (h : checkStep add config registered seen step = .ok seen') :
    step.tool ∈ registered ∧ step.stepId ∉ seen.stepMap.keys ∧
      seen'.stepMap.keys = seen.stepMap.keys ++ [step.stepId] := by
  unfold checkStep at h
  split at h
  · cases h
  · rename_i hregistered
    split at h
    · cases h
    · split at h
      · cases h
      · split at h
        · cases h
        · split at h
          · cases h
          · rename_i hnew
            cases h
            have hnone : seen.stepMap.get? step.stepId = none := by
              simpa [Dict.contains] using hnew
            refine ⟨by simpa using hregistered, ?_, Dict.keys_set_of_get?_eq_none hnone step⟩
            simp [Dict.mem_keys_iff, hnone]

/-- The loop over the steps: identifiers are distinct and tools registered. -/
theorem checkSteps_eq_ok {registered : List String} {seen seen' : Seen}
    (h : checkSteps add config registered seen steps = .ok seen') :
    (∀ s ∈ steps, s.tool ∈ registered) ∧ (steps.map (·.stepId)).Nodup ∧
      ∀ s ∈ steps, s.stepId ∉ seen.stepMap.keys := by
  induction steps generalizing seen with
  | nil => simp
  | cons step rest ih =>
    unfold checkSteps at h
    split at h
    · cases h
    · rename_i seen'' hstep
      obtain ⟨hregistered, hnew, hkeys⟩ := checkStep_eq_ok hstep
      obtain ⟨hall, hnodup, hrest⟩ := ih h
      simp only [hkeys, List.mem_append, List.mem_singleton, not_or] at hrest
      refine ⟨?_, ?_, ?_⟩
      · simpa using ⟨hregistered, hall⟩
      · rw [List.map_cons, List.nodup_cons, List.mem_map]
        refine ⟨?_, hnodup⟩
        rintro ⟨s, hs, hid⟩
        exact (hrest s hs).2 hid
      · simpa using ⟨hnew, fun s hs => (hrest s hs).1⟩

/-- What a plan has that a policy accepts. -/
structure Accepted (config : PlanningPolicyConfig) (plan : ExecutionPlan) (context : PlannerContext) :
    Prop where
  nodup : (plan.steps.map (·.stepId)).Nodup
  registered : ∀ s ∈ plan.steps, s.tool ∈ context.registeredTools
  preconditions : ∀ s ∈ plan.steps, ∀ req ∈ (config.preconditions.get? s.tool).getD [],
    preconditionMet plan.steps context.executedTools s req = true
  acyclic : ¬DepthFirst.HasCycle (stepGraph plan.steps)

theorem preconditionMet_of_checkRequirements {executed : List String} {seen : Seen}
    {step : ExecutionStep} (h : checkRequirements config steps executed seen step = none) {req : String}
    (hreq : req ∈ (config.preconditions.get? step.tool).getD []) :
    preconditionMet steps executed step req = true := by
  unfold checkRequirements at h
  rw [Option.or_eq_none_iff, List.findSome?_eq_none_iff] at h
  have hfirst := h.1 req hreq
  by_contra hnot
  rw [if_neg hnot] at hfirst
  cases hfirst

/-- **An accepted plan** has distinct steps, registered tools, preconditions of a lower
priority number, and no cycle. -/
theorem accepted_of_validatePlan {plan : ExecutionPlan} {context : PlannerContext}
    (h : validatePlan add config plan context = .ok ()) : Accepted config plan context := by
  unfold validatePlan at h
  dsimp only at h
  split at h
  · cases h
  · split at h
    · cases h
    · split at h
      · cases h
      · rename_i seen hseen
        obtain ⟨hregistered, hnodup, -⟩ := checkSteps_eq_ok hseen
        split at h
        · cases h
        · split at h
          · cases h
          · rename_i hnone
            split at h
            · cases h
            · rename_i hcycle
              refine ⟨hnodup, hregistered, fun s hs req hreq => ?_, ?_⟩
              · exact preconditionMet_of_checkRequirements
                  (List.findSome?_eq_none_iff.1 hnone s hs) hreq
              · rw [← findCycle_isSome_iff, hcycle]
                simp

/-- A policy accepts a plan in the context that is built from a state. -/
def AcceptsIn (add : PyNumber → PyNumber → PyNumber) (config : PlanningPolicyConfig)
    (report : ValidationReport) (registry : ToolRegistry) (plan : ExecutionPlan)
    (state : AgentState) : Prop :=
  ∃ context, buildContext report registry state = .ok context ∧
    validatePlan add config plan context = .ok ()

end Accept

end ScamOn.Planner
