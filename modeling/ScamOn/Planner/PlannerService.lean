import ScamOn.Lib.Text
import ScamOn.Planner.Policies

/-!
# The planner service

`PlannerService.plan` asks a language model for a plan.  It builds the context, the prompts,
calls the provider, reads the answer and has the policy check it; whatever raises on the way
is turned into a result, a failure or, for a rate limit, a plan that is made without the
model.

* `RawContext` is a context with its dicts as they are: only the builder that comes with the
  service is sure to put every key in.
* `PlannerService` has the parties as parameters; each of them may raise anything.
* `createFallbackPlan` is the plan of a rate limit, `createFallbackPlan_eq_ok_iff` when there
  is one.
* `Raised` says what the first stage that fails raises and `Proposed` which plan comes
  through all of them; `plan_failsSafe_iff` says when the service keeps its promise.
-/

namespace ScamOn.Planner

/-! ## Results -/

/-- `PlannerUsage`. -/
structure PlannerUsage where
  promptTokens : Option ℕ
  completionTokens : Option ℕ
  totalTokens : Option ℕ
  deriving DecidableEq

/-- `PlannerUsage()`. -/
def PlannerUsage.none : PlannerUsage := ⟨.none, .none, .none⟩

/-- `ProviderResponse`. -/
structure ProviderResponse where
  content : String
  usage : PlannerUsage
  metadata : Dict String PyValue

/-- `PlannerMetadata`, without its times. -/
structure PlannerMetadata where
  provider : String
  model : String
  additionalMetadata : Dict String PyValue
  provider_fits : Fits 1 128 provider
  model_fits : Fits 1 128 model

/-- `PlanningResult`. -/
structure PlanningResult where
  plan : Option ExecutionPlan
  metadata : PlannerMetadata
  usage : PlannerUsage
  success : Bool
  errorMessage : Option String

/-! ## Contexts -/

/-- `PlannerContext`, with the dicts of the history and of the evidence. -/
structure RawContext where
  emailId : Option String
  emailSubject : Option String
  emailSender : Option String
  emailBodySummary : Option String
  availableTools : List ToolSelection
  executionHistory : List (Dict String PyValue)
  accumulatedEvidence : List (Dict String PyValue)

/-- The dict of an entry of the history. -/
def HistoryEntry.dict (h : HistoryEntry) : Dict String PyValue :=
  (((Dict.set ∅ "step_number" (.int h.stepNumber)).set "tool_name" (.str h.toolName)).set
    "status" (.str h.status)).set "details" (.other "dict")

/-- The dict of a piece of evidence. -/
def Evidence.dict (ev : Evidence) : Dict String PyValue :=
  (((((Dict.set ∅ "category" (.str ev.category)).set "title" (.str ev.title)).set "description"
    (.str ev.description)).set "severity" (.str ev.severity.value)).set "source"
    (.str ev.source)).set "confidence"
    (match ev.confidence with
      | some c => .float (.finite c)
      | none => .other "NoneType")

/-- The context that the default builder makes. -/
def PlannerContext.raw (context : PlannerContext) : RawContext where
  emailId := context.emailId
  emailSubject := context.emailSubject
  emailSender := context.emailSender
  emailBodySummary := context.emailBodySummary
  availableTools := context.availableTools
  executionHistory := context.executionHistory.map (·.dict)
  accumulatedEvidence := context.accumulatedEvidence.map (·.dict)

/-- `DefaultPlanningPolicy.validate_plan`.  `names` writes a sorted list of names. -/
def defaultValidatePlan (names : List String → String) (plan : ExecutionPlan)
    (context : RawContext) : Except PyException Unit :=
  let registered := context.availableTools.map (·.name)
  match plan.steps.find? fun step => !registered.contains step.tool with
  | some step => .error ⟨"JSONValidationError", "Execution step references unregistered tool '" ++
      step.tool ++ "'. Registered tools: " ++ names registered⟩
  | none => .ok ()

/-! ## The service -/

/-- `PlannerService`: the tools, and what the parties that it calls answer.  `defaultModel` is
the provider's own model, `format` the text of a value, `lower` is `str.lower`. -/
structure PlannerService where
  registry : ToolRegistry
  buildContext : AgentState → Except PyException RawContext
  getPrompt : String → List (String × String) → Except PyException String
  generate : String → String → Except PyException ProviderResponse
  buildPlan : String → Except PyException ExecutionPlan
  validatePlan : ExecutionPlan → RawContext → Except PyException Unit
  defaultModel : PyValue
  report : ValidationReport
  format : PyValue → String
  lower : String → String

/-- `d[key]`. -/
def getItem (d : Dict String PyValue) (key : String) : Except PyException PyValue :=
  match d.get? key with
  | some v => .ok v
  | none => .error ⟨"KeyError", "'" ++ key ++ "'"⟩

/-- `text or default`. -/
def textOr (default : String) : Option String → String
  | some text => if text = "" then default else text
  | none => default

/-- The lines of a list, or `None`. -/
def linesOrNone (lines : List String) : String :=
  if lines.isEmpty then "None" else String.intercalate "\n" lines

namespace PlannerService

variable (svc : PlannerService)

/-- The list of the tools in the system prompt. -/
def toolsList (context : RawContext) : String :=
  Text.strip (String.join (context.availableTools.map fun tool =>
    "- " ++ tool.name ++ ": " ++ tool.description ++ " (capabilities: [" ++
      String.intercalate ", " tool.capabilities ++ "])\n"))

/-- A line of the history. -/
def historyLine (h : Dict String PyValue) : Except PyException String := do
  let stepNumber ← getItem h "step_number"
  let toolName ← getItem h "tool_name"
  let status ← getItem h "status"
  return "  - Step " ++ svc.format stepNumber ++ ": " ++ svc.format toolName ++ " (" ++
    svc.format status ++ ")"

/-- A line of the evidence. -/
def evidenceLine (ev : Dict String PyValue) : Except PyException String := do
  let severity ← getItem ev "severity"
  let title ← getItem ev "title"
  let source ← getItem ev "source"
  return "  - [" ++ svc.format severity ++ "] " ++ svc.format title ++ " (from " ++
    svc.format source ++ ")"

/-- The prompts of a context and what the provider answers to them. -/
def ask (context : RawContext) : Except PyException ProviderResponse := do
  let systemPrompt ← svc.getPrompt "system_prompt" [("available_tools", toolsList context)]
  let template :=
    if context.executionHistory.isEmpty then "planning_prompt" else "replanning_prompt"
  let history ← context.executionHistory.mapM svc.historyLine
  let evidence ← context.accumulatedEvidence.mapM svc.evidenceLine
  let prompt ← svc.getPrompt template
    [("email_id", textOr "Unknown" context.emailId),
      ("email_subject", textOr "No Subject" context.emailSubject),
      ("email_sender", textOr "Unknown" context.emailSender),
      ("email_body_summary", textOr "No email body present." context.emailBodySummary),
      ("execution_history", linesOrNone history), ("accumulated_evidence", linesOrNone evidence)]
  svc.generate prompt systemPrompt

theorem fits_groq : Fits 1 128 "groq" := by decide

/-- The metadata of an answer.  The model that the provider reports is checked here. -/
def responseMetadata (response : ProviderResponse) : Except PyException PlannerMetadata :=
  let model := (response.metadata.get? "model").getD svc.defaultModel
  let refused := PyException.mk "ValidationError"
    (svc.report "PlannerMetadata" "model" (svc.format model))
  match model with
  | .str name =>
    if h : Fits 1 128 name then .ok ⟨"groq", name, response.metadata, fits_groq, h⟩
    else .error refused
  | _ => .error refused

/-- The stages after the context, up to the result. -/
def attempt (context : RawContext) : Except PyException PlanningResult := do
  let response ← svc.ask context
  let plan ← svc.buildPlan response.content
  svc.validatePlan plan context
  let metadata ← svc.responseMetadata response
  return ⟨some plan, metadata, response.usage, true, none⟩

end PlannerService

/-! ## The plan of a rate limit -/

/-- A tool of the fallback plan, with its reason. -/
structure Candidate where
  tool : String
  reason : String
  tool_fits : Fits 1 128 tool
  reason_fits : Fits 1 1024 reason

/-- `candidate_tools`. -/
def candidateTools : List Candidate :=
  [⟨"parser_tool", "Parse header and email payload structure.", by decide, by decide⟩,
    ⟨"sender_tool", "Verify sender domain authentication SPF/DKIM.", by decide, by decide⟩,
    ⟨"url_tool", "Inspect embedded links for typosquatting.", by decide, by decide⟩,
    ⟨"attachment_tool", "Inspect attachments if present.", by decide, by decide⟩,
    ⟨"ocr_tool", "Extract text from image attachments.", by decide, by decide⟩,
    ⟨"qr_tool", "Scan embedded QR code payloads.", by decide, by decide⟩,
    ⟨"threat_intelligence_tool", "Check threat intelligence databases.", by decide, by decide⟩,
    ⟨"campaign_correlation_tool", "Correlate with campaign memory.", by decide, by decide⟩,
    ⟨"report_tool", "Compile final explainable evidence report.", by decide, by decide⟩]

/-- The step of a candidate, with the number of the steps before it. -/
def Candidate.step (c : Candidate) (before : ℕ) : ExecutionStep where
  tool := c.tool
  priority := before + 1
  reason := c.reason
  stepId := c.tool ++ "_" ++ toString (before + 1)
  dependencies := []
  conditions := []
  retryPolicy := ∅
  estimatedCost := .finite 0
  estimatedValue := .finite 0
  tool_fits := c.tool_fits
  priority_pos := Int.le_add_of_nonneg_left (Int.natCast_nonneg before)
  reason_fits := c.reason_fits

/-- The loop over the candidates.  The lookup of a tool that is not registered raises. -/
def fallbackSteps (registry : ToolRegistry) :
    List ExecutionStep → List Candidate → Except PyException (List ExecutionStep)
  | steps, [] => .ok steps
  | steps, c :: rest =>
    match registry.get c.tool with
    | .error e => .error e
    | .ok _ => fallbackSteps registry (steps ++ [c.step steps.length]) rest

/-- The step that stands in if there is no other. -/
def parserStep : ExecutionStep :=
  (Candidate.mk "parser_tool" "Parse email structure." (by decide) (by decide)).step 0

/-- The plan of a context with a history. -/
def scanCompleted : ExecutionPlan :=
  ⟨"Deterministic investigation scan completed.", .comprehensive, [], 95 / 100, by decide,
    by decide +kernel⟩

/-- The plan of some steps. -/
def comprehensiveScan (steps : List ExecutionStep) : ExecutionPlan :=
  ⟨"Comprehensive security scan via deterministic fallback rules.", .comprehensive, steps, 85 / 100,
    by decide, by decide +kernel⟩

/-- `_create_fallback_plan`. -/
def createFallbackPlan (registry : ToolRegistry) (context : RawContext) :
    Except PyException ExecutionPlan :=
  if !context.executionHistory.isEmpty then .ok scanCompleted
  else
    match fallbackSteps registry [] candidateTools with
    | .error e => .error e
    | .ok steps => .ok (comprehensiveScan (if steps.isEmpty then [parserStep] else steps))

/-- The words of an error text that are taken for a rate limit. -/
def rateLimitWords : List String := ["429", "rate-limiting", "rate limit", "transient"]

/-- Whether an error is taken for a rate limit. -/
def PlannerService.rateLimited (svc : PlannerService) (e : PyException) : Bool :=
  rateLimitWords.any fun word => Text.contains (svc.lower e.text) word

/-- The first characters of a text. -/
def firstChars (n : ℕ) (text : String) : String := String.ofList (text.toList.take n)

/-- What the handler does with an exception; the context is there if it was built. -/
def PlannerService.handle (svc : PlannerService) (context : Option RawContext) (e : PyException) :
    Except PyException PlanningResult :=
  if svc.rateLimited e then
    match context with
    | none => .error ⟨"UnboundLocalError",
        "cannot access local variable 'context' where it is not associated with a value"⟩
    | some context =>
      match createFallbackPlan svc.registry context with
      | .error e' => .error e'
      | .ok plan =>
        .ok ⟨some plan, ⟨"fallback_rule_engine", "deterministic-fallback-v1",
          (Dict.set ∅ "error_type" (.str e.className)).set "error_details"
            (.str (firstChars 512 e.text)), by decide, by decide⟩, .none, true, none⟩
  else
    .ok ⟨none, ⟨"groq", "unknown", Dict.set ∅ "error_type" (.str e.className), fits_groq, by decide⟩,
      .none, false, some (firstChars 1024 e.text)⟩

/-- `plan`. -/
def PlannerService.plan (svc : PlannerService) (state : AgentState) :
    Except PyException PlanningResult :=
  match svc.buildContext state with
  | .error e => svc.handle none e
  | .ok context =>
    match svc.attempt context with
    | .error e => svc.handle (some context) e
    | .ok result => .ok result

/-! ## What the parties make of it -/

variable {svc : PlannerService} {state : AgentState}

/-- The provider's model is a text that a result can carry. -/
def ModelFits (svc : PlannerService) (response : ProviderResponse) : Prop :=
  ∃ name, (response.metadata.get? "model").getD svc.defaultModel = .str name ∧ Fits 1 128 name

/-- What the first stage that fails raises. -/
inductive Raised (svc : PlannerService) (state : AgentState) : PyException → Prop
  | context {e : PyException} (h : svc.buildContext state = .error e) : Raised svc state e
  | prompt {e : PyException} {context : RawContext} (hcontext : svc.buildContext state = .ok context)
      (h : svc.ask context = .error e) : Raised svc state e
  | answer {e : PyException} {context : RawContext} {response : ProviderResponse}
      (hcontext : svc.buildContext state = .ok context) (hask : svc.ask context = .ok response)
      (h : svc.buildPlan response.content = .error e) : Raised svc state e
  | policy {e : PyException} {context : RawContext} {response : ProviderResponse}
      {plan : ExecutionPlan} (hcontext : svc.buildContext state = .ok context)
      (hask : svc.ask context = .ok response) (hplan : svc.buildPlan response.content = .ok plan)
      (h : svc.validatePlan plan context = .error e) : Raised svc state e
  | metadata {e : PyException} {context : RawContext} {response : ProviderResponse}
      {plan : ExecutionPlan} (hcontext : svc.buildContext state = .ok context)
      (hask : svc.ask context = .ok response) (hplan : svc.buildPlan response.content = .ok plan)
      (hpolicy : svc.validatePlan plan context = .ok ())
      (h : svc.responseMetadata response = .error e) : Raised svc state e

/-- No stage fails, and `plan` is the plan that the answer was read as. -/
def Proposed (svc : PlannerService) (state : AgentState) (plan : ExecutionPlan) : Prop :=
  ∃ context response, svc.buildContext state = .ok context ∧ svc.ask context = .ok response ∧
    svc.buildPlan response.content = .ok plan ∧ svc.validatePlan plan context = .ok () ∧
    ModelFits svc response

/-- The fallback plan of a context can be made, and the policy accepts it. -/
def FallbackAccepted (svc : PlannerService) (context : RawContext) : Prop :=
  (context.executionHistory ≠ [] → svc.validatePlan scanCompleted context = .ok ()) ∧
  (context.executionHistory = [] → (∀ c ∈ candidateTools, svc.registry.hasTool c.tool = true) ∧
    svc.validatePlan (comprehensiveScan (candidateTools.mapIdx fun i c => c.step i)) context = .ok ())

/-- Planning fails safe: there is a result, and a plan that it calls a success has only
registered tools and is one that the policy accepts in the context of the call. -/
def FailsSafe (svc : PlannerService) (state : AgentState) : Prop :=
  ∃ result, svc.plan state = .ok result ∧ (result.success = true →
    ∃ plan context, result.plan = some plan ∧ svc.buildContext state = .ok context ∧
      (∀ s ∈ plan.steps, svc.registry.hasTool s.tool = true) ∧ svc.validatePlan plan context = .ok ())

/-! ## The fallback plan -/

theorem get_eq_ok_iff {registry : ToolRegistry} {tool : String} :
    (∃ metadata, registry.get tool = .ok metadata) ↔ registry.hasTool tool = true := by
  unfold ToolRegistry.get ToolRegistry.hasTool Dict.contains
  cases registry.tools.get? tool <;> simp

/-- The loop comes to its end exactly if all tools are registered. -/
theorem fallbackSteps_eq_ok_iff (registry : ToolRegistry) (candidates : List Candidate)
    (steps result : List ExecutionStep) :
    fallbackSteps registry steps candidates = .ok result ↔
      (∀ c ∈ candidates, registry.hasTool c.tool = true) ∧
        result = steps ++ candidates.mapIdx fun i c => c.step (steps.length + i) := by
  induction candidates generalizing steps with
  | nil =>
    rw [fallbackSteps, Except.ok.injEq]
    simpa using eq_comm
  | cons c rest ih =>
    rw [fallbackSteps]
    cases hget : registry.get c.tool with
    | error e =>
      have hnone : ¬registry.hasTool c.tool = true := by
        rw [← get_eq_ok_iff, hget]
        simp
      simp [hnone]
    | ok metadata =>
      have hsome : registry.hasTool c.tool = true := get_eq_ok_iff.1 ⟨metadata, hget⟩
      dsimp only
      rw [ih]
      simp [hsome, List.mapIdx_cons, Nat.add_assoc, Nat.add_comm 1]

theorem createFallbackPlan_eq_ok_iff {registry : ToolRegistry} {context : RawContext}
    {plan : ExecutionPlan} :
    createFallbackPlan registry context = .ok plan ↔
      context.executionHistory ≠ [] ∧ plan = scanCompleted ∨
      context.executionHistory = [] ∧ (∀ c ∈ candidateTools, registry.hasTool c.tool = true) ∧
        plan = comprehensiveScan (candidateTools.mapIdx fun i c => c.step i) := by
  unfold createFallbackPlan
  by_cases hhistory : context.executionHistory = []
  · simp only [hhistory, List.isEmpty_nil, Bool.not_true, Bool.false_eq_true, if_false, ne_eq,
      not_true_eq_false, false_and, false_or, true_and]
    cases hsteps : fallbackSteps registry [] candidateTools with
    | error e =>
      have hmissing : ¬∀ c ∈ candidateTools, registry.hasTool c.tool = true := by
        intro hall
        have hok := (fallbackSteps_eq_ok_iff registry candidateTools [] _).2 ⟨hall, rfl⟩
        rw [hsteps] at hok
        cases hok
      simp [hmissing]
    | ok steps =>
      obtain ⟨hall, rfl⟩ := (fallbackSteps_eq_ok_iff registry candidateTools [] steps).1 hsteps
      simp only [List.length_nil, Nat.zero_add, List.nil_append, Except.ok.injEq]
      have hne : (candidateTools.mapIdx fun i c => c.step i).isEmpty = false := rfl
      rw [hne, if_neg Bool.false_ne_true, and_iff_right hall]
      exact eq_comm
  · have hfull : (!context.executionHistory.isEmpty) = true := by simpa using hhistory
    rw [if_pos hfull]
    simp only [hhistory, ne_eq, not_false_eq_true, true_and, false_and, or_false, Except.ok.injEq]
    exact eq_comm

/-- Every step of the full scan is for one of the candidates. -/
theorem tool_of_mem_fullScan {s : ExecutionStep}
    (hs : s ∈ (comprehensiveScan (candidateTools.mapIdx fun i c => c.step i)).steps) :
    ∃ c ∈ candidateTools, s.tool = c.tool := by
  obtain ⟨i, hi, rfl⟩ := List.mem_mapIdx.1 hs
  exact ⟨_, List.getElem_mem hi, rfl⟩

/-- The fallback plan is safe exactly if the policy accepts it: its tools are registered. -/
theorem fallbackAccepted_iff {context : RawContext} :
    FallbackAccepted svc context ↔
      ∃ plan, createFallbackPlan svc.registry context = .ok plan ∧
        (∀ s ∈ plan.steps, svc.registry.hasTool s.tool = true) ∧
        svc.validatePlan plan context = .ok () := by
  simp only [createFallbackPlan_eq_ok_iff]
  constructor
  · rintro ⟨hwith, hwithout⟩
    by_cases hhistory : context.executionHistory = []
    · obtain ⟨hall, haccept⟩ := hwithout hhistory
      refine ⟨_, .inr ⟨hhistory, hall, rfl⟩, ?_, haccept⟩
      intro s hs
      obtain ⟨c, hc, htool⟩ := tool_of_mem_fullScan hs
      rw [htool]
      exact hall c hc
    · exact ⟨_, .inl ⟨hhistory, rfl⟩, by simp [scanCompleted], hwith hhistory⟩
  · rintro ⟨plan, ⟨hhistory, rfl⟩ | ⟨hhistory, hall, rfl⟩, -, haccept⟩
    · exact ⟨fun _ => haccept, fun h => absurd h hhistory⟩
    · exact ⟨fun h => absurd hhistory h, fun _ => ⟨hall, haccept⟩⟩

/-! ## The stages -/

theorem responseMetadata_eq_ok_iff {response : ProviderResponse} :
    (∃ metadata, svc.responseMetadata response = .ok metadata) ↔ ModelFits svc response := by
  unfold PlannerService.responseMetadata ModelFits
  cases (response.metadata.get? "model").getD svc.defaultModel with
  | str name => by_cases h : Fits 1 128 name <;> simp [h]
  | bool b => simp
  | int n => simp
  | float x => simp
  | other name => simp

/-- Some stage raises, or a plan comes through all of them. -/
theorem raised_or_proposed (svc : PlannerService) (state : AgentState) :
    (∃ e, Raised svc state e) ∨ ∃ plan, Proposed svc state plan := by
  cases hcontext : svc.buildContext state with
  | error e => exact .inl ⟨e, .context hcontext⟩
  | ok context =>
    cases hask : svc.ask context with
    | error e => exact .inl ⟨e, .prompt hcontext hask⟩
    | ok response =>
      cases hplan : svc.buildPlan response.content with
      | error e => exact .inl ⟨e, .answer hcontext hask hplan⟩
      | ok plan =>
        cases hpolicy : svc.validatePlan plan context with
        | error e => exact .inl ⟨e, .policy hcontext hask hplan hpolicy⟩
        | ok u =>
          cases hmetadata : svc.responseMetadata response with
          | error e => exact .inl ⟨e, .metadata hcontext hask hplan hpolicy hmetadata⟩
          | ok metadata =>
            exact .inr ⟨plan, context, response, hcontext, hask, hplan, hpolicy,
              responseMetadata_eq_ok_iff.1 ⟨metadata, hmetadata⟩⟩

/-- An exception goes to the handler, with the context if that is not what raised. -/
theorem plan_of_raised {e : PyException} (h : Raised svc state e) :
    svc.plan state = svc.handle (svc.buildContext state).toOption e := by
  unfold PlannerService.plan PlannerService.attempt
  cases h with
  | context h => simp [h, Except.toOption]
  | prompt hcontext h => simp [hcontext, h, Except.toOption, bind, Except.bind]
  | answer hcontext hask h => simp [hcontext, hask, h, Except.toOption, bind, Except.bind]
  | policy hcontext hask hplan h => simp [hcontext, hask, hplan, h, Except.toOption, bind, Except.bind]
  | metadata hcontext hask hplan hpolicy h =>
    simp [hcontext, hask, hplan, hpolicy, h, Except.toOption, bind, Except.bind]

/-- A plan that comes through all stages is the result. -/
theorem plan_of_proposed {plan : ExecutionPlan} (h : Proposed svc state plan) :
    ∃ metadata usage, svc.plan state = .ok ⟨some plan, metadata, usage, true, none⟩ := by
  obtain ⟨context, response, hcontext, hask, hplan, hpolicy, hmodel⟩ := h
  obtain ⟨metadata, hmetadata⟩ := responseMetadata_eq_ok_iff.2 hmodel
  refine ⟨metadata, response.usage, ?_⟩
  unfold PlannerService.plan PlannerService.attempt
  simp [hcontext, hask, hplan, hpolicy, hmetadata, bind, Except.bind, pure, Except.pure]

/-- The handler has a result of an exception that is no rate limit: a failure. -/
theorem handle_of_not_rateLimited {context : Option RawContext} {e : PyException}
    (h : svc.rateLimited e = false) :
    ∃ result, svc.handle context e = .ok result ∧ result.success = false := by
  unfold PlannerService.handle
  rw [h, if_neg Bool.false_ne_true]
  exact ⟨_, rfl, rfl⟩

/-- Of a rate limit it has the fallback plan, if that can be made. -/
theorem handle_of_rateLimited {context : RawContext} {e : PyException} {plan : ExecutionPlan}
    (h : svc.rateLimited e = true) (hplan : createFallbackPlan svc.registry context = .ok plan) :
    ∃ result, svc.handle (some context) e = .ok result ∧ result.plan = some plan := by
  unfold PlannerService.handle
  rw [if_pos h]
  simp only [hplan]
  exact ⟨_, rfl, rfl⟩

/-- What a result of a rate limit says about the context. -/
theorem fallback_of_handle {context : Option RawContext} {e : PyException} {result : PlanningResult}
    (h : svc.rateLimited e = true) (hresult : svc.handle context e = .ok result) :
    result.success = true ∧ ∃ c plan, context = some c ∧
      createFallbackPlan svc.registry c = .ok plan ∧ result.plan = some plan := by
  unfold PlannerService.handle at hresult
  rw [if_pos h] at hresult
  cases context with
  | none => cases hresult
  | some c =>
    cases hplan : createFallbackPlan svc.registry c with
    | error e' => simp [hplan] at hresult
    | ok plan =>
      simp only [hplan, Except.ok.injEq] at hresult
      subst hresult
      exact ⟨rfl, c, plan, rfl, hplan, rfl⟩

theorem toOption_eq_some_iff {α : Type} {x : Except PyException α} {a : α} :
    x.toOption = some a ↔ x = .ok a := by
  cases x <;> simp [Except.toOption]

/-- If a plan comes through, the policy has accepted it, and its tools are what is left. -/
theorem failsSafe_of_proposed {plan : ExecutionPlan} (h : Proposed svc state plan) :
    FailsSafe svc state ↔ ∀ s ∈ plan.steps, svc.registry.hasTool s.tool = true := by
  obtain ⟨metadata, usage, hplan⟩ := plan_of_proposed h
  obtain ⟨context, response, hcontext, -, -, hpolicy, -⟩ := h
  constructor
  · rintro ⟨result, hresult, hsafe⟩
    rw [hplan, Except.ok.injEq] at hresult
    subst hresult
    obtain ⟨plan', -, hsome, -, htools, -⟩ := hsafe rfl
    cases hsome
    exact htools
  · intro htools
    exact ⟨_, hplan, fun _ => ⟨plan, context, rfl, hcontext, htools, hpolicy⟩⟩

/-- If a stage raises, a failure is safe, and a rate limit is as safe as the fallback. -/
theorem failsSafe_of_raised {e : PyException} (h : Raised svc state e) :
    FailsSafe svc state ↔ (svc.rateLimited e = true →
      ∃ context, svc.buildContext state = .ok context ∧ FallbackAccepted svc context) := by
  unfold FailsSafe
  rw [plan_of_raised h]
  constructor
  · rintro ⟨result, hresult, hsafe⟩ hlimited
    obtain ⟨hsuccess, context, plan, hcontext, hplan, hsome⟩ := fallback_of_handle hlimited hresult
    rw [toOption_eq_some_iff] at hcontext
    obtain ⟨plan', context', hsome', hcontext', htools, haccept⟩ := hsafe hsuccess
    rw [hsome] at hsome'
    rw [hcontext] at hcontext'
    cases hsome'
    cases hcontext'
    exact ⟨context, hcontext, fallbackAccepted_iff.2 ⟨plan, hplan, htools, haccept⟩⟩
  · intro hfallback
    cases hlimited : svc.rateLimited e with
    | false =>
      obtain ⟨result, hresult, hsuccess⟩ := handle_of_not_rateLimited hlimited
      exact ⟨result, hresult, fun h => by simp [hsuccess] at h⟩
    | true =>
      obtain ⟨context, hcontext, haccepted⟩ := hfallback hlimited
      obtain ⟨plan, hplan, htools, haccept⟩ := fallbackAccepted_iff.1 haccepted
      rw [toOption_eq_some_iff.2 hcontext]
      obtain ⟨result, hresult, hsome⟩ := handle_of_rateLimited hlimited hplan
      exact ⟨result, hresult, fun _ => ⟨plan, context, hsome, hcontext, htools, haccept⟩⟩

/-- **Planning fails safe exactly if** a plan that comes through all stages has registered
tools only, and an exception that is taken for a rate limit comes from a later stage than the
context, of which there is a fallback plan that the policy accepts. -/
theorem plan_failsSafe_iff (svc : PlannerService) (state : AgentState) :
    FailsSafe svc state ↔
      (∀ plan, Proposed svc state plan → ∀ s ∈ plan.steps, svc.registry.hasTool s.tool = true) ∧
      ∀ e, Raised svc state e → svc.rateLimited e = true →
        ∃ context, svc.buildContext state = .ok context ∧ FallbackAccepted svc context := by
  constructor
  · intro hsafe
    exact ⟨fun plan hproposed => (failsSafe_of_proposed hproposed).1 hsafe,
      fun e hraised => (failsSafe_of_raised hraised).1 hsafe⟩
  · rintro ⟨hproposals, hfallback⟩
    rcases raised_or_proposed svc state with ⟨e, hraised⟩ | ⟨plan, hproposed⟩
    · exact (failsSafe_of_raised hraised).2 (hfallback e hraised)
    · exact (failsSafe_of_proposed hproposed).2 (hproposals plan hproposed)

/-! ## A rate limit without all tools -/

/-- A registry with a parser and nothing else. -/
def parserRegistry : ToolRegistry where
  tools := Dict.set ∅ "parser_tool" ⟨"parser_tool", "Parses an email.", [], by decide, by decide⟩
  keyed := by
    intro name metadata h
    rw [Dict.get?_set] at h
    split_ifs at h with hname
    · cases h
      exact hname.symm
    · cases h

/-- The service with its default parties, for a provider that is over its limit. -/
def limitedService : PlannerService where
  registry := parserRegistry
  buildContext state :=
    (buildContext (fun _ field value => field ++ ": " ++ value) parserRegistry state).map (·.raw)
  getPrompt template _ := .ok template
  generate _ _ := .error ⟨"ProviderError", "Groq API transient/rate-limiting error (status code 429)."⟩
  buildPlan _ := .ok scanCompleted
  validatePlan := defaultValidatePlan fun names => String.intercalate ", " names
  defaultModel := .str "openai/gpt-oss-20b"
  report _ field value := field ++ ": " ++ value
  format v := v.typeName
  lower := Text.asciiLower

/-- The first plan of an email is not made: the fallback asks for a tool that is not there. -/
theorem limitedService_raises :
    limitedService.plan (.create none "state") =
        .error ⟨"ToolNotFoundError",
          "\"Tool with name 'sender_tool' was not found in registry.\""⟩ ∧
      ¬FailsSafe limitedService (.create none "state") := by
  have hraises : limitedService.plan (.create none "state") = .error ⟨"ToolNotFoundError",
      "\"Tool with name 'sender_tool' was not found in registry.\""⟩ := by rfl
  refine ⟨hraises, ?_⟩
  rintro ⟨result, hresult, -⟩
  rw [hraises] at hresult
  cases hresult

end ScamOn.Planner
