import ScamOn.Lib.Dict
import ScamOn.Lib.PyValue

/-!
# Agent state and execution plans

The data of the planner: what a plan is made of, what a tool answers, and the agent
state that is threaded through a run.  Clock readings are left out.

* `ExecutionStep` and `ExecutionPlan` carry the limits that their validation checks, so
  a plan that the parser refuses cannot be written down.
* `ToolErrorInfo` and `ExecutionRecord` have limits too, and are made where the program
  runs: `create` raises if a text is too short or too long.
* `AgentState.withToolResult`, `withError` and `withPlanningDecision` are the updates of
  the state; each leaves a new state.
-/

namespace ScamOn.Planner

/-! ## Plans -/

/-- The limits of a text field. -/
def Fits (low high : ℕ) (text : String) : Prop := low ≤ text.length ∧ text.length ≤ high

instance (low high : ℕ) (text : String) : Decidable (Fits low high text) :=
  inferInstanceAs (Decidable (_ ∧ _))

/-- `ExecutionStrategy`. -/
inductive ExecutionStrategy
  | targeted | sequential | full | minimal | balanced | comprehensive | adaptive | emergency
  deriving DecidableEq, Repr

/-- `ExecutionStep`: one call of a tool. -/
structure ExecutionStep where
  tool : String
  priority : ℤ
  reason : String
  stepId : String
  dependencies : List String
  conditions : List String
  retryPolicy : Dict String PyValue
  estimatedCost : PyNumber
  estimatedValue : PyNumber
  tool_fits : Fits 1 128 tool
  priority_pos : 1 ≤ priority
  reason_fits : Fits 1 1024 reason

/-- `ExecutionPlan`. -/
structure ExecutionPlan where
  goal : String
  strategy : ExecutionStrategy
  steps : List ExecutionStep
  confidence : ℚ
  goal_fits : Fits 1 512 goal
  confidence_mem : 0 ≤ confidence ∧ confidence ≤ 1

/-! ## What tools see and answer -/

/-- `ToolExecutionStatus`. -/
inductive ToolExecutionStatus
  | pending | running | completed | failed | skipped
  deriving DecidableEq, Repr

/-- The text of a status. -/
def ToolExecutionStatus.value : ToolExecutionStatus → String
  | .pending => "pending"
  | .running => "running"
  | .completed => "completed"
  | .failed => "failed"
  | .skipped => "skipped"

/-- `EvidenceSeverity`. -/
inductive EvidenceSeverity
  | info | low | medium | high | critical
  deriving DecidableEq, Repr

/-- The text of a severity. -/
def EvidenceSeverity.value : EvidenceSeverity → String
  | .info => "info"
  | .low => "low"
  | .medium => "medium"
  | .high => "high"
  | .critical => "critical"

/-- `Evidence`. -/
structure Evidence where
  category : String
  title : String
  description : String
  severity : EvidenceSeverity
  source : String
  confidence : Option ℚ
  deriving DecidableEq

/-- `ToolEvidence`, the older form of evidence. -/
structure ToolEvidence where
  category : String
  detail : String
  deriving DecidableEq

/-- `EmailAttachment`. -/
structure EmailAttachment where
  filename : String
  contentType : String
  filename_fits : Fits 1 255 filename
  contentType_fits : Fits 1 127 contentType
  deriving DecidableEq

/-- `EmailHeader`. -/
structure EmailHeader where
  messageId : String
  sender : String
  subject : String
  messageId_fits : Fits 1 998 messageId
  sender_fits : Fits 3 320 sender
  subject_fits : Fits 1 998 subject
  deriving DecidableEq

/-- `EmailInput`. -/
structure EmailInput where
  header : EmailHeader
  bodyText : String
  attachments : List EmailAttachment
  bodyText_fits : Fits 1 2000000 bodyText
  deriving DecidableEq

/-- The text of pydantic's `ValidationError`, from the model, its field and the value. -/
abbrev ValidationReport : Type := String → String → String → String

/-- `ToolErrorInfo`. -/
structure ToolErrorInfo where
  code : String
  message : String
  metadata : List (String × PyValue)
  code_fits : Fits 1 128 code
  message_fits : Fits 1 1024 message
  deriving DecidableEq

/-- The constructor of `ToolErrorInfo`, for a code that is written in the program. -/
def ToolErrorInfo.create (report : ValidationReport) (code message : String)
    (metadata : List (String × PyValue)) (hcode : Fits 1 128 code) :
    Except PyException ToolErrorInfo :=
  if h : Fits 1 1024 message then .ok ⟨code, message, metadata, hcode, h⟩
  else .error ⟨"ValidationError", report "ToolErrorInfo" "message" message⟩

/-- `ToolResult`.  A tool may return a copy of a result that was never checked, so the name
need not fit its limits. -/
structure ToolResult where
  toolName : String
  status : ToolExecutionStatus
  metadata : Dict String PyValue
  evidence : List ToolEvidence
  evidenceCollection : List Evidence
  parsedEmail : Option EmailInput
  error : Option ToolErrorInfo

/-! ## The agent state -/

/-- `ExecutionRecord`. -/
structure ExecutionRecord where
  stepNumber : ℕ
  toolName : String
  status : ToolExecutionStatus
  details : List (String × PyValue)
  stepNumber_pos : 1 ≤ stepNumber
  toolName_fits : Fits 1 128 toolName
  deriving DecidableEq

/-- The metadata of a planning decision. -/
inductive DecisionMetadata
  | final (iterations : ℕ) (goal : String) (strategy : ExecutionStrategy)
  | iteration (proposedSteps proposedTools : List String) (stepToolMap : Dict String String)
      (newSteps : List String) (goal : String) (strategy : ExecutionStrategy)

/-- `PlanningDecision`, as the investigator records it.  A goal is too short for its
reasoning to pass the limit of that field. -/
structure PlanningDecision where
  reasoning : String
  confidence : ℚ
  isFinal : Bool
  metadata : DecisionMetadata

/-- `AgentState`. -/
structure AgentState where
  stateId : String
  parsedEmail : Option EmailInput
  toolResults : Dict String ToolResult
  accumulatedEvidence : List ToolEvidence
  evidence : List Evidence
  executionHistory : List ExecutionRecord
  errors : List ToolErrorInfo
  planningDecisions : List PlanningDecision

namespace AgentState

/-- `AgentState.create`, for an identifier that the caller chooses. -/
def create (parsedEmail : Option EmailInput) (stateId : String) : AgentState where
  stateId := stateId
  parsedEmail := parsedEmail
  toolResults := ∅
  accumulatedEvidence := []
  evidence := []
  executionHistory := []
  errors := []
  planningDecisions := []

/-- The state after a result whose record is `record`. -/
def recorded (state : AgentState) (result : ToolResult) (record : ExecutionRecord) : AgentState :=
  { state with
    toolResults := state.toolResults.set result.toolName result
    accumulatedEvidence := state.accumulatedEvidence ++ result.evidence
    evidence := state.evidence ++ result.evidenceCollection
    executionHistory := state.executionHistory ++ [record]
    errors := state.errors ++ result.error.toList
    parsedEmail := result.parsedEmail.orElse fun _ => state.parsedEmail }

/-- `with_tool_result`.  The record of the result checks the name of the tool. -/
def withToolResult (report : ValidationReport) (state : AgentState) (result : ToolResult)
    (details : List (String × PyValue)) : Except PyException AgentState :=
  if h : Fits 1 128 result.toolName then
    .ok (state.recorded result
      ⟨state.executionHistory.length + 1, result.toolName, result.status, details, Nat.succ_pos _, h⟩)
  else .error ⟨"ValidationError", report "ExecutionRecord" "tool_name" result.toolName⟩

/-- `with_error`. -/
def withError (state : AgentState) (error : ToolErrorInfo) : AgentState :=
  { state with errors := state.errors ++ [error] }

/-- `with_planning_decision`. -/
def withPlanningDecision (state : AgentState) (decision : PlanningDecision) : AgentState :=
  { state with planningDecisions := state.planningDecisions ++ [decision] }

/-- The tools that the history has a completed record of. -/
def Completed (state : AgentState) (tool : String) : Prop :=
  ∃ h ∈ state.executionHistory, h.status = .completed ∧ h.toolName = tool

end AgentState

/-! ## The tool registry -/

/-- `ToolMetadata`. -/
structure ToolMetadata where
  name : String
  description : String
  capabilities : List String
  name_fits : Fits 1 128 name
  description_fits : Fits 1 1024 description
  deriving DecidableEq

/-- `ToolRegistry`: the tools by name. -/
structure ToolRegistry where
  tools : Dict String ToolMetadata
  keyed : ∀ name metadata, tools.get? name = some metadata → metadata.name = name

namespace ToolRegistry

/-- `get`. -/
def get (registry : ToolRegistry) (toolName : String) : Except PyException ToolMetadata :=
  match registry.tools.get? toolName with
  | some metadata => .ok metadata
  | none => .error ⟨"ToolNotFoundError", "\"Tool with name '" ++ toolName ++
      "' was not found in registry.\""⟩

/-- `has_tool`. -/
def hasTool (registry : ToolRegistry) (toolName : String) : Bool := registry.tools.contains toolName

/-- `list_metadata`. -/
def listMetadata (registry : ToolRegistry) : List ToolMetadata := registry.tools.values

end ToolRegistry

end ScamOn.Planner
