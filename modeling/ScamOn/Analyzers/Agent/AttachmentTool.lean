import Mathlib.Data.List.Flatten
import ScamOn.Analyzers.Agent.Evidence
import ScamOn.Lib.Gather
import ScamOn.Planner.Reasoning

/-!
# The attachment tool

`AttachmentTool.execute` runs every analyzer on every attachment, and asks what the hash of the
attachment is known for.  An analyzer that raises leaves a diagnostic instead of its evidence.
`execute_with_handling` makes a failed result of what `execute` raises.

* `Analyzer` and `AttachmentTool` are the parts that may raise; `Raised` is what they raise.
* `execute`, `buildFailedResult` and `executeWithHandling` are the methods.
* `escapes` is what an attachment makes `execute` raise: a diagnostic or a record that is too long,
  or what the provider of reputations raised.
* `isolates_iff`: the evidence is kept if nothing escapes and all of it can be converted; if
  something escapes, it has to be reportable, and nothing may have been found.
-/

namespace ScamOn.Analyzers
namespace Agent

open Gather
open Planner (Fits ToolExecutionStatus ValidationReport asciiTitleFrom)

/-! ## What the tool is made of -/

/-- `AttachmentPayload`. -/
structure AttachmentPayload where
  filename : String
  contentType : String
  sizeBytes : ℕ
  content : List UInt8
  contentId : Option String
  filename_fits : Fits 0 1024 filename
  contentType_fits : Fits 0 256 contentType
  contentId_fits : ∀ text ∈ contentId, Fits 0 256 text

/-- `EmailAttachment`, of a parsed email. -/
structure EmailAttachment where
  filename : String
  contentType : String
  sizeBytes : ℕ
  filename_fits : Fits 1 255 filename
  contentType_fits : Fits 1 127 contentType

/-- An exception.  `ToolValidationError` and `ToolExecutionError` have a code and details. -/
structure Raised (ω : Type*) where
  className : String
  text : String
  tool : Option (String × Dict String ω)

/-- `IAttachmentAnalyzer`. -/
structure Analyzer (ω : Type*) where
  className : String
  analyze : AttachmentPayload → Except (Raised ω) (List (ToolEvidence ω))

/-- `ReputationStatus`. -/
inductive ReputationStatus
  | unknown | clean | suspicious | malicious
  deriving DecidableEq

/-- The text of a status. -/
def ReputationStatus.value : ReputationStatus → String
  | .unknown => "unknown"
  | .clean => "clean"
  | .suspicious => "suspicious"
  | .malicious => "malicious"

/-- The statuses that become evidence. -/
def ReputationStatus.flagged (status : ReputationStatus) : Bool :=
  ["suspicious", "malicious"].contains status.value

/-- `AttachmentTool`, with `check_hash` of its provider of reputations. -/
structure AttachmentTool (ω : Type*) where
  name : String
  analyzers : List (Analyzer ω)
  checkHash : String → Except (Raised ω) ReputationStatus
  name_fits : Fits 1 128 name

/-- The attachments in an `AgentState`: those that were put into its metadata, and those of the parsed
email. -/
structure Attachments where
  attachmentPayloads : List AttachmentPayload
  emailAttachments : List EmailAttachment

/-- What the tool uses of the language and its libraries.  A title is not shorter than the text, and
not longer than three letters for each of the text's. -/
structure Library (ω : Type*) extends Values ω where
  text : String → ω
  number : ℚ → ω
  truth : Bool → ω
  sha256 : List UInt8 → String
  report : ValidationReport
  unconverted : List (ToolEvidence ω) → PyException
  title_length : ∀ s, s.length ≤ (title s).length ∧ (title s).length ≤ 3 * s.length
  number?_text : ∀ s, number? (text s) = none
  number?_number : ∀ q, number? (number q) = some (.finite q)

/-- `ToolErrorInfo`. -/
structure ToolErrorInfo (ω : Type*) where
  code : String
  message : String
  metadata : Dict String ω
  code_fits : Fits 1 128 code
  message_fits : Fits 1 1024 message

/-- `ToolResult`. -/
structure ToolResult (ω : Type*) where
  toolName : String
  status : ToolExecutionStatus
  metadata : Dict String ω
  evidence : List (ToolEvidence ω)
  evidenceCollection : List (Evidence ω)
  error : Option (ToolErrorInfo ω)
  toolName_fits : Fits 1 128 toolName

/-! ## Constructors -/

section Tool

variable {ω : Type*} (py : Library ω)

/-- pydantic's `ValidationError`. -/
def validationError (model field value : String) : Raised ω :=
  ⟨"ValidationError", py.report model field value, none⟩

/-- The constructor of `ToolEvidence`, for a category that is written in the program. -/
def ToolEvidence.create (category detail : String) (metadata : Dict String ω)
    (hcategory : Fits 1 128 category) : Except (Raised ω) (ToolEvidence ω) :=
  if h : Fits 1 1024 detail then .ok ⟨category, detail, metadata, hcategory, h⟩
  else .error (validationError py "ToolEvidence" "detail" detail)

/-- The constructor of `ToolErrorInfo`. -/
def ToolErrorInfo.create (code message : String) (metadata : Dict String ω) :
    Except (Raised ω) (ToolErrorInfo ω) :=
  if hcode : Fits 1 128 code then
    if hmessage : Fits 1 1024 message then .ok ⟨code, message, metadata, hcode, hmessage⟩
    else .error (validationError py "ToolErrorInfo" "message" message)
  else .error (validationError py "ToolErrorInfo" "code" code)

variable (tool : AttachmentTool ω)

/-- The constructor of `ToolResult`, which converts the evidence. -/
def createResult (stamp : ℕ → Stamp) (status : ToolExecutionStatus) (metadata : Dict String ω)
    (evidence : List (ToolEvidence ω)) (error : Option (ToolErrorInfo ω)) :
    Except (Raised ω) (ToolResult ω) :=
  match flatList py.toValues stamp tool.name 0 (evidence.map .inr) with
  | none => .error ⟨(py.unconverted evidence).className, (py.unconverted evidence).text, none⟩
  | some items => .ok ⟨tool.name, status, metadata, evidence, items, error, tool.name_fits⟩

/-! ## The analysis -/

/-- What the diagnostic says of an analyzer that raised. -/
def diagnosticDetail (analyzer : Analyzer ω) (payload : AttachmentPayload) (error : Raised ω) :
    String :=
  analyzer.className ++ " could not analyze '" ++ payload.filename ++ "': " ++ error.text

/-- One analyzer on one attachment. -/
def analyzeOne (payload : AttachmentPayload) (analyzer : Analyzer ω) :
    Except (Raised ω) (List (ToolEvidence ω)) :=
  match analyzer.analyze payload with
  | .ok evidence => .ok evidence
  | .error error =>
    (ToolEvidence.create py "attachment_analyzer_diagnostic" (diagnosticDetail analyzer payload error)
      (Dict.ofList [("severity", py.text "info"), ("analyzer", py.text analyzer.className),
        ("filename", py.text payload.filename), ("exception_type", py.text error.className)])
      (by decide)).map ([·])

/-- What the record of a bad reputation says. -/
def reputationDetail (payload : AttachmentPayload) (status : ReputationStatus) : String :=
  "Attachment '" ++ payload.filename ++ "' flagged as " ++ status.value ++ " by reputation provider."

/-- The reputation of an attachment that has a content. -/
def reputationEvidence (payload : AttachmentPayload) : Except (Raised ω) (List (ToolEvidence ω)) :=
  if payload.content.isEmpty then .ok []
  else
    match tool.checkHash (py.sha256 payload.content) with
    | .error error => .error error
    | .ok status =>
      if status.flagged then
        (ToolEvidence.create py "attachment_reputation" (reputationDetail payload status)
          (Dict.ofList
            [("severity", py.text (if status.value = "malicious" then "critical" else "high")),
              ("confidence", py.number (95 / 100)), ("sha256", py.text (py.sha256 payload.content)),
              ("status", py.text status.value)])
          (by decide)).map ([·])
      else .ok []

/-- One attachment. -/
def analyzePayload (payload : AttachmentPayload) : Except (Raised ω) (List (ToolEvidence ω)) :=
  match gather (analyzeOne py payload) tool.analyzers with
  | .error error => .error error
  | .ok evidence => (reputationEvidence py tool payload).map (evidence ++ ·)

/-- `_extract_payloads`. -/
def extractPayloads (state : Attachments) : List AttachmentPayload :=
  if state.attachmentPayloads.isEmpty then
    state.emailAttachments.map fun att => {
      filename := att.filename
      contentType := att.contentType
      sizeBytes := att.sizeBytes
      content := []
      contentId := none
      filename_fits := ⟨Nat.zero_le _, att.filename_fits.2.trans (by decide)⟩
      contentType_fits := ⟨Nat.zero_le _, att.contentType_fits.2.trans (by decide)⟩
      contentId_fits := nofun
    }
  else state.attachmentPayloads

/-- `execute`. -/
def execute (stamp : ℕ → Stamp) (state : Attachments) : Except (Raised ω) (ToolResult ω) :=
  let payloads := extractPayloads state
  if payloads.isEmpty then
    createResult py tool stamp .completed
      (Dict.ofList [("attachments_analyzed", py.number 0), ("has_attachments", py.truth false)]) [] none
  else
    match gather (analyzePayload py tool) payloads with
    | .error error => .error error
    | .ok evidence =>
      createResult py tool stamp .completed
        (Dict.ofList [("attachments_analyzed", py.number payloads.length),
          ("has_attachments", py.truth true), ("total_evidence_generated", py.number evidence.length)])
        evidence none

/-! ## The handling of errors -/

/-- The code of an error that the handling reports: its own, or that of an unexpected one. -/
def Raised.code (error : Raised ω) : String :=
  (error.tool.map Prod.fst).getD "tool_unexpected_error"

/-- Its details: its own, or the class of an unexpected one. -/
def Raised.details (error : Raised ω) : Dict String ω :=
  (error.tool.map Prod.snd).getD (Dict.ofList [("exception_type", py.text error.className)])

/-- The metadata of the record of an error; details are written over the code. -/
def errorMetadata (error : Raised ω) : Dict String ω :=
  Dict.ofList (("error_code", py.text error.code) :: (error.details py).entries)

/-- `_build_failed_result`. -/
def buildFailedResult (stamp : ℕ → Stamp) (error : Raised ω) : Except (Raised ω) (ToolResult ω) := do
  let evidence ← ToolEvidence.create py "tool_error" error.text (errorMetadata py error) (by decide)
  let info ← ToolErrorInfo.create py error.code error.text (error.details py)
  createResult py tool stamp .failed (Dict.ofList [("error_code", py.text error.code)]) [evidence]
    (some info)

/-- `execute_with_handling`; a failed result is made at later instants. -/
def executeWithHandling (stamp stamp' : ℕ → Stamp) (state : Attachments) :
    Except (Raised ω) (ToolResult ω) :=
  match execute py tool stamp state with
  | .ok result => .ok result
  | .error error => buildFailedResult py tool stamp' error

/-! ## What is returned, and what escapes -/

/-- Everything that the analyzers return. -/
def returned (payloads : List AttachmentPayload) : List (ToolEvidence ω) :=
  payloads.flatMap fun payload => tool.analyzers.flatMap fun analyzer => found (analyzer.analyze payload)

/-- An analyzer raises a text for which its diagnostic is too long. -/
def diagnosticError (payload : AttachmentPayload) (analyzer : Analyzer ω) : Option (Raised ω) :=
  match analyzer.analyze payload with
  | .ok _ => none
  | .error error =>
    let detail := diagnosticDetail analyzer payload error
    if Fits 1 1024 detail then none else some (validationError py "ToolEvidence" "detail" detail)

/-- The provider of reputations raises, or the filename is too long for the record. -/
def reputationError (payload : AttachmentPayload) : Option (Raised ω) :=
  if payload.content.isEmpty then none
  else
    match tool.checkHash (py.sha256 payload.content) with
    | .error error => some error
    | .ok status =>
      let detail := reputationDetail payload status
      if status.flagged ∧ ¬Fits 1 1024 detail then
        some (validationError py "ToolEvidence" "detail" detail)
      else none

/-- The first exception on an attachment that is not caught. -/
def escapes (payload : AttachmentPayload) : Option (Raised ω) :=
  (tool.analyzers.findSome? (diagnosticError py payload)).or (reputationError py tool payload)

/-- A record can be converted. -/
def Convertible (record : ToolEvidence ω) : Prop :=
  Fits 1 256 (categoryTitle py.toValues record.category) ∧
    ConfidenceFits ((record.metadata.get? "confidence").bind py.number?)

/-- A failed result can be made of an exception. -/
structure Reportable (error : Raised ω) : Prop where
  code_fits : Fits 1 128 error.code
  text_fits : Fits 1 1024 error.text
  confidence_fits : ConfidenceFits (((errorMetadata py error).get? "confidence").bind py.number?)

/-- The record of an exception. -/
def errorEvidence (error : Raised ω) (h : Reportable py error) : ToolEvidence ω :=
  ⟨"tool_error", error.text, errorMetadata py error, by decide, h.text_fits⟩

/-- **Failures are isolated**: there is a result, and what the analyzers returned is in it, in order. -/
def Isolates (stamp stamp' : ℕ → Stamp) (state : Attachments) : Prop :=
  ∃ result, executeWithHandling py tool stamp stamp' state = .ok result ∧
    (returned tool (extractPayloads state)).Sublist result.evidence

variable {py tool}

/-! ## Steps -/

theorem title_fits {category : String} (hpos : 1 ≤ category.length) (hle : category.length ≤ 85) :
    Fits 1 256 (categoryTitle py.toValues category) := by
  have hlength := py.title_length (String.ofList (category.toList.map fun c => if c = '_' then ' ' else c))
  rw [String.length_ofList, List.length_map, String.length_toList] at hlength
  exact ⟨hpos.trans hlength.1, hlength.2.trans (by omega)⟩

theorem failure?_create (category detail : String) (metadata : Dict String ω)
    (hcategory : Fits 1 128 category) :
    failure? ((ToolEvidence.create py category detail metadata hcategory).map ([·])) =
      if Fits 1 1024 detail then none else some (validationError py "ToolEvidence" "detail" detail) := by
  unfold ToolEvidence.create
  split
  · rfl
  · rfl

theorem mem_create {category detail : String} {metadata : Dict String ω}
    {hcategory : Fits 1 128 category} {record : ToolEvidence ω}
    (h : record ∈ found ((ToolEvidence.create py category detail metadata hcategory).map ([·]))) :
    record.category = category ∧ record.metadata = metadata := by
  unfold ToolEvidence.create at h
  split at h
  · obtain rfl := List.mem_singleton.1 h
    exact ⟨rfl, rfl⟩
  · exact absurd h List.not_mem_nil

theorem failure?_analyzeOne (payload : AttachmentPayload) (analyzer : Analyzer ω) :
    failure? (analyzeOne py payload analyzer) = diagnosticError py payload analyzer := by
  unfold analyzeOne diagnosticError
  cases analyzer.analyze payload with
  | ok evidence => rfl
  | error error => exact failure?_create ..

theorem failure?_reputationEvidence (payload : AttachmentPayload) :
    failure? (reputationEvidence py tool payload) = reputationError py tool payload := by
  unfold reputationEvidence reputationError
  split
  · rfl
  · cases tool.checkHash (py.sha256 payload.content) with
    | error error => rfl
    | ok status =>
      dsimp only
      by_cases hflagged : status.flagged
      · rw [if_pos hflagged, failure?_create]
        simp [hflagged, ite_not]
      · rw [if_neg hflagged, if_neg fun h => hflagged h.1]
        rfl

theorem failure?_analyzePayload (payload : AttachmentPayload) :
    failure? (analyzePayload py tool payload) = escapes py tool payload := by
  have hfirst : (tool.analyzers.findSome? (diagnosticError py payload)) =
      failure? (gather (analyzeOne py payload) tool.analyzers) := by
    rw [failure?_gather]
    exact congrArg (tool.analyzers.findSome? ·) (funext fun a => (failure?_analyzeOne payload a).symm)
  rw [escapes, hfirst, ← failure?_reputationEvidence, analyzePayload]
  cases gather (analyzeOne py payload) tool.analyzers with
  | error error => rfl
  | ok evidence =>
    cases reputationEvidence py tool payload with
    | error error => rfl
    | ok evidence' => rfl

/-- A record of the tool's own can be converted, if its confidence can. -/
theorem convertible_create {category detail : String} {metadata : Dict String ω}
    {hcategory : Fits 1 128 category} {record : ToolEvidence ω}
    (h : record ∈ found ((ToolEvidence.create py category detail metadata hcategory).map ([·])))
    (hlength : category.length ≤ 85)
    (hconfidence : ConfidenceFits ((metadata.get? "confidence").bind py.number?)) :
    Convertible py record := by
  obtain ⟨rfl, rfl⟩ := mem_create h
  exact ⟨title_fits hcategory.1 hlength, hconfidence⟩

theorem mem_analyzeOne {payload : AttachmentPayload} {analyzer : Analyzer ω}
    {record : ToolEvidence ω} (h : record ∈ found (analyzeOne py payload analyzer)) :
    record ∈ found (analyzer.analyze payload) ∨ Convertible py record := by
  unfold analyzeOne at h
  cases hanalyze : analyzer.analyze payload with
  | ok evidence =>
    rw [hanalyze] at h
    exact Or.inl h
  | error error =>
    rw [hanalyze] at h
    refine Or.inr (convertible_create h (by decide) ?_)
    simp [Dict.ofList, Dict.get?_set, ConfidenceFits]

theorem convertible_reputationEvidence {payload : AttachmentPayload} {record : ToolEvidence ω}
    (h : record ∈ found (reputationEvidence py tool payload)) : Convertible py record := by
  unfold reputationEvidence at h
  split at h
  · exact absurd h List.not_mem_nil
  · cases hcheck : tool.checkHash (py.sha256 payload.content) with
    | error error =>
      rw [hcheck] at h
      exact absurd h List.not_mem_nil
    | ok status =>
      rw [hcheck] at h
      dsimp only at h
      split at h
      · refine convertible_create h (by decide) ?_
        simp [Dict.ofList, Dict.get?_set, ConfidenceFits, py.number?_number, PyNumber.lt]
        norm_num
      · exact absurd h List.not_mem_nil

/-! ## Attachments -/

theorem found_analyzePayload {payload : AttachmentPayload} (h : escapes py tool payload = none) :
    found (analyzePayload py tool payload) =
      (tool.analyzers.flatMap fun analyzer => found (analyzeOne py payload analyzer)) ++
        found (reputationEvidence py tool payload) := by
  rw [escapes, Option.or_eq_none_iff, List.findSome?_eq_none_iff] at h
  have hgather : gather (analyzeOne py payload) tool.analyzers = _ :=
    gather_eq_ok fun analyzer hmem => (failure?_analyzeOne payload analyzer).trans (h.1 analyzer hmem)
  have hreputation := eq_ok_found ((failure?_reputationEvidence payload).trans h.2)
  rw [analyzePayload, hgather, hreputation]
  rfl

/-- What the analyzers return is a part of what is found on an attachment; the rest is the tool's own. -/
theorem sublist_analyzePayload {payload : AttachmentPayload} (h : escapes py tool payload = none) :
    (tool.analyzers.flatMap fun analyzer => found (analyzer.analyze payload)).Sublist
      (found (analyzePayload py tool payload)) := by
  rw [found_analyzePayload h]
  refine List.Sublist.trans ?_ (List.sublist_append_left _ _)
  refine List.Sublist.flatMap_right _ fun analyzer _ => ?_
  unfold analyzeOne
  cases analyzer.analyze payload with
  | ok evidence => exact List.Sublist.refl _
  | error error => exact List.nil_sublist _

theorem mem_analyzePayload {payload : AttachmentPayload} (h : escapes py tool payload = none)
    {record : ToolEvidence ω} (hmem : record ∈ found (analyzePayload py tool payload)) :
    record ∈ (tool.analyzers.flatMap fun analyzer => found (analyzer.analyze payload)) ∨
      Convertible py record := by
  rw [found_analyzePayload h, List.mem_append, List.mem_flatMap] at hmem
  rcases hmem with ⟨analyzer, hanalyzer, hrecord⟩ | hrecord
  · exact (mem_analyzeOne hrecord).imp_left fun h' => List.mem_flatMap.2 ⟨analyzer, hanalyzer, h'⟩
  · exact Or.inr (convertible_reputationEvidence hrecord)

/-! ## Results -/

variable {stamp stamp' : ℕ → Stamp} {status : ToolExecutionStatus} {metadata : Dict String ω}
  {evidence : List (ToolEvidence ω)} {error? : Option (ToolErrorInfo ω)} {result : ToolResult ω}

/-- **A result is made of evidence that can be converted**, and holds it. -/
theorem createResult_eq_ok :
    createResult py tool stamp status metadata evidence error? = .ok result →
      (∀ record ∈ evidence, Convertible py record) ∧ result.evidence = evidence := by
  unfold createResult
  cases hflat : flatList py.toValues stamp tool.name 0 (evidence.map .inr) with
  | none => exact nofun
  | some items =>
    rintro ⟨⟩
    refine ⟨fun record hmem => ?_, rfl⟩
    by_contra hbad
    have hun : Unconvertible py.toValues tool.name (evidence.map .inr) :=
      ⟨record, List.mem_map_of_mem hmem, fun h => hbad ⟨h.1, h.2.2⟩⟩
    rw [flatList_eq_none_iff.2 hun] at hflat
    exact nomatch hflat

theorem exists_createResult (tool : AttachmentTool ω) (stamp : ℕ → Stamp)
    (status : ToolExecutionStatus) (metadata : Dict String ω) (error? : Option (ToolErrorInfo ω))
    (h : ∀ record ∈ evidence, Convertible py record) :
    ∃ result, createResult py tool stamp status metadata evidence error? = .ok result ∧
      result.evidence = evidence := by
  unfold createResult
  cases hflat : flatList py.toValues stamp tool.name 0 (evidence.map .inr) with
  | none =>
    obtain ⟨record, hmem, hbad⟩ := flatList_eq_none_iff.1 hflat
    obtain ⟨record', hmem', heq⟩ := List.mem_map.1 hmem
    obtain rfl := Sum.inr.inj heq
    have hconvertible := h record' hmem'
    exact absurd ⟨hconvertible.1, fits_mono tool.name_fits (by decide), hconvertible.2⟩ hbad
  | some items => exact ⟨_, rfl, rfl⟩

/-- **A failed result** holds the record of the exception, if the exception is reportable. -/
theorem buildFailedResult_eq_ok {error : Raised ω}
    (h : buildFailedResult py tool stamp error = .ok result) :
    ∃ hreport : Reportable py error, result.evidence = [errorEvidence py error hreport] := by
  unfold buildFailedResult ToolEvidence.create ToolErrorInfo.create at h
  by_cases htext : Fits 1 1024 error.text
  · by_cases hcode : Fits 1 128 error.code
    · rw [dif_pos htext, dif_pos hcode, dif_pos htext] at h
      obtain ⟨hconvertible, hevidence⟩ := createResult_eq_ok h
      exact ⟨⟨hcode, htext, (hconvertible _ List.mem_cons_self).2⟩, hevidence⟩
    · rw [dif_pos htext, dif_neg hcode] at h
      exact nomatch h
  · rw [dif_neg htext] at h
    exact nomatch h

theorem convertible_errorEvidence {error : Raised ω} (h : Reportable py error) :
    Convertible py (errorEvidence py error h) :=
  ⟨title_fits (errorEvidence py error h).category_fits.1 (show "tool_error".length ≤ 85 by decide),
    h.confidence_fits⟩

theorem exists_buildFailedResult (tool : AttachmentTool ω) (stamp : ℕ → Stamp) {error : Raised ω}
    (h : Reportable py error) :
    ∃ result, buildFailedResult py tool stamp error = .ok result ∧
      result.evidence = [errorEvidence py error h] := by
  unfold buildFailedResult ToolEvidence.create ToolErrorInfo.create
  rw [dif_pos h.text_fits, dif_pos h.code_fits, dif_pos h.text_fits]
  refine exists_createResult _ _ _ _ _ fun record hmem => ?_
  obtain rfl := List.mem_singleton.1 hmem
  exact convertible_errorEvidence h

/-! ## Runs -/

variable {state : Attachments}

/-- If nothing escapes, what is converted is what the analyzers returned, and records of the tool's own. -/
theorem execute_of_quiet (stamp : ℕ → Stamp)
    (hquiet : ∀ payload ∈ extractPayloads state, escapes py tool payload = none) :
    ∃ metadata evidence, execute py tool stamp state =
        createResult py tool stamp .completed metadata evidence none ∧
      (returned tool (extractPayloads state)).Sublist evidence ∧
      ∀ record ∈ evidence, record ∈ returned tool (extractPayloads state) ∨ Convertible py record := by
  have hgather : gather (analyzePayload py tool) (extractPayloads state) = _ :=
    gather_eq_ok fun payload hmem => (failure?_analyzePayload payload).trans (hquiet payload hmem)
  unfold execute
  dsimp only
  by_cases hempty : (extractPayloads state).isEmpty = true
  · rw [if_pos hempty, List.isEmpty_iff.1 hempty]
    exact ⟨_, [], rfl, List.Sublist.refl _, nofun⟩
  · rw [if_neg hempty, hgather]
    refine ⟨_, _, rfl, ?_, fun record hmem => ?_⟩
    · exact List.Sublist.flatMap_right _ fun payload hmem => sublist_analyzePayload (hquiet payload hmem)
    · obtain ⟨payload, hpayload, hrecord⟩ := List.mem_flatMap.1 hmem
      refine (mem_analyzePayload (hquiet payload hpayload) hrecord).imp_left fun h => ?_
      exact List.mem_flatMap.2 ⟨payload, hpayload, h⟩

theorem execute_of_escapes {error : Raised ω}
    (h : (extractPayloads state).findSome? (escapes py tool) = some error) :
    execute py tool stamp state = .error error := by
  have hgather : gather (analyzePayload py tool) (extractPayloads state) = .error error := by
    refine gather_eq_error ?_
    simpa only [failure?_analyzePayload] using h
  unfold execute
  dsimp only
  split
  · rename_i hempty
    rw [List.isEmpty_iff.1 hempty] at h
    exact nomatch h
  · rw [hgather]

/-- **Isolation**: nothing escapes, and everything that was returned can be converted; or the first
exception that escapes is reportable, and nothing was returned but what is its record. -/
theorem isolates_iff (py : Library ω) (tool : AttachmentTool ω) (stamp stamp' : ℕ → Stamp)
    (state : Attachments) :
    Isolates py tool stamp stamp' state ↔
      ((∀ payload ∈ extractPayloads state, escapes py tool payload = none) ∧
        ∀ record ∈ returned tool (extractPayloads state), Convertible py record) ∨
      ∃ error, ∃ h : Reportable py error,
        (extractPayloads state).findSome? (escapes py tool) = some error ∧
        (returned tool (extractPayloads state)).Sublist [errorEvidence py error h] := by
  unfold Isolates executeWithHandling
  cases hescapes : (extractPayloads state).findSome? (escapes py tool) with
  | none =>
    have hquiet := List.findSome?_eq_none_iff.1 hescapes
    obtain ⟨metadata, evidence, hexecute, hsublist, hown⟩ := execute_of_quiet stamp hquiet
    rw [hexecute]
    constructor
    · rintro ⟨result, hresult, hkept⟩
      refine Or.inl ⟨hquiet, fun record hmem => ?_⟩
      cases hcreate : createResult py tool stamp .completed metadata evidence none with
      | ok result' =>
        exact (createResult_eq_ok hcreate).1 record (hsublist.subset hmem)
      | error error =>
        rw [hcreate] at hresult
        obtain ⟨hreport, hevidence⟩ := buildFailedResult_eq_ok hresult
        rw [hevidence] at hkept
        rw [List.mem_singleton.1 (hkept.subset hmem)]
        exact convertible_errorEvidence hreport
    · rintro (⟨-, hconvertible⟩ | ⟨error, h, hsome, -⟩)
      · obtain ⟨result, hresult, hevidence⟩ := exists_createResult tool stamp .completed metadata
          none fun record hmem => (hown record hmem).elim (hconvertible record) id
        rw [hresult]
        exact ⟨result, rfl, hevidence ▸ hsublist⟩
      · exact nomatch hsome
  | some error =>
    rw [execute_of_escapes hescapes]
    constructor
    · rintro ⟨result, hresult, hkept⟩
      obtain ⟨hreport, hevidence⟩ := buildFailedResult_eq_ok hresult
      exact Or.inr ⟨error, hreport, rfl, hevidence ▸ hkept⟩
    · rintro (⟨hquiet, -⟩ | ⟨error', hreport, hsome, hkept⟩)
      · rw [List.findSome?_eq_none_iff.2 hquiet] at hescapes
        exact nomatch hescapes
      · obtain rfl := Option.some.inj hsome
        obtain ⟨result, hresult, hevidence⟩ := exists_buildFailedResult tool stamp' hreport
        exact ⟨result, hresult, hevidence ▸ hkept⟩

end Tool

/-! ## What an exception takes with it -/

theorem length_asciiTitleFrom (afterLetter : Bool) (cs : List Char) :
    (asciiTitleFrom afterLetter cs).length = cs.length := by
  induction cs generalizing afterLetter with
  | nil => rfl
  | cons c cs ih => rw [asciiTitleFrom, List.length_cons, List.length_cons, ih]

/-- ASCII texts, and metadata of numbers and texts. -/
def sampleLibrary : Library (String ⊕ ℚ) where
  lower s := String.ofList (s.toList.map Char.toLower)
  title s := String.ofList (asciiTitleFrom false s.toList)
  str := Sum.elim id fun _ => "0"
  number? := Sum.elim (fun _ => none) fun q => some (.finite q)
  text := .inl
  number := .inr
  truth b := .inr (if b then 1 else 0)
  sha256 _ := "ba7816bf8f01cfea414140de5dae2223b00361a396177a9cb410ff61f20015ad"
  report model field _ := "1 validation error for " ++ model ++ "\n" ++ field
  unconverted _ := ⟨"ValidationError", "1 validation error for Evidence"⟩
  title_length s := by
    rw [String.length_ofList, length_asciiTitleFrom, String.length_toList]
    omega
  number?_text _ := rfl
  number?_number _ := rfl

/-- An attachment, and what an analyzer finds on it. -/
def letter : AttachmentPayload :=
  ⟨"a.txt", "text/plain", 3, [97, 98, 99], none, by decide, by decide, nofun⟩

def finding : ToolEvidence (String ⊕ ℚ) :=
  ⟨"attachment_anomaly", "Filename has an unusual extension", ∅, by decide, by decide⟩

def anomalyAnalyzer : Analyzer (String ⊕ ℚ) := ⟨"AttachmentAnomalyAnalyzer", fun _ => .ok [finding]⟩

/-- An exception with a text of some length, and an analyzer that raises it. -/
def verboseError (length : ℕ) : Raised (String ⊕ ℚ) :=
  ⟨"ValueError", String.ofList (List.replicate length 'x'), none⟩

def verboseAnalyzer (length : ℕ) : Analyzer (String ⊕ ℚ) :=
  ⟨"PdfFormatAnalyzer", fun _ => .error (verboseError length)⟩

theorem fits_attachmentTool : Fits 1 128 "attachment_tool" := by decide

def verboseTool (length : ℕ) : AttachmentTool (String ⊕ ℚ) :=
  ⟨"attachment_tool", [anomalyAnalyzer, verboseAnalyzer length], fun _ => .ok .unknown,
    fits_attachmentTool⟩

/-- A provider of reputations that raises without a text. -/
def silentTool : AttachmentTool (String ⊕ ℚ) :=
  ⟨"attachment_tool", [anomalyAnalyzer], fun _ => .error ⟨"TimeoutError", "", none⟩,
    fits_attachmentTool⟩

theorem escapes_verboseTool {length : ℕ} (h : 1024 ≤ length) :
    escapes sampleLibrary (verboseTool length) letter =
      some (validationError sampleLibrary "ToolEvidence" "detail"
        (diagnosticDetail (verboseAnalyzer length) letter (verboseError length))) := by
  have hlong : ¬Fits 1 1024 (diagnosticDetail (verboseAnalyzer length) letter (verboseError length)) := by
    intro hfits
    have hle := hfits.2
    have htext : (verboseError length).text.length = length := by
      rw [verboseError, String.length_ofList, List.length_replicate]
    have hquote : 0 < "': ".length := by decide
    rw [diagnosticDetail, String.length_append, htext, String.length_append] at hle
    omega
  have hquiet : diagnosticError sampleLibrary letter anomalyAnalyzer = none := rfl
  have hraised : diagnosticError sampleLibrary letter (verboseAnalyzer length) = _ := if_neg hlong
  rw [escapes, verboseTool, List.findSome?_cons, hquiet, List.findSome?_cons, hraised]
  rfl

/-- The message of one analyzer takes the finding of another with it; and an exception without a
message is not handled. -/
theorem findings_lost :
    (finding ∈ returned (verboseTool 1024) [letter] ∧
      ¬Isolates sampleLibrary (verboseTool 1024) (fun _ => sampleStamp) (fun _ => sampleStamp)
        ⟨[letter], []⟩) ∧
      ∃ error, executeWithHandling sampleLibrary silentTool (fun _ => sampleStamp)
        (fun _ => sampleStamp) ⟨[letter], []⟩ = .error error := by
  constructor
  · have hescapes : (extractPayloads ⟨[letter], []⟩).findSome?
        (escapes sampleLibrary (verboseTool 1024)) =
          some (validationError sampleLibrary "ToolEvidence" "detail"
            (diagnosticDetail (verboseAnalyzer 1024) letter (verboseError 1024))) := by
      rw [extractPayloads, if_neg nofun, List.findSome?_cons, escapes_verboseTool (le_refl _)]
    have hfinding : finding ∈ returned (verboseTool 1024) [letter] := List.mem_cons_self
    refine ⟨hfinding, ?_⟩
    rintro ⟨result, hresult, hkept⟩
    rw [executeWithHandling, execute_of_escapes hescapes] at hresult
    obtain ⟨hreport, hevidence⟩ := buildFailedResult_eq_ok hresult
    have hmem : finding ∈ result.evidence := hkept.subset hfinding
    rw [hevidence] at hmem
    have hcategory : finding.category = "tool_error" :=
      congrArg ToolEvidence.category (List.mem_singleton.1 hmem)
    exact absurd hcategory (by decide)
  · have hescapes : (extractPayloads ⟨[letter], []⟩).findSome? (escapes sampleLibrary silentTool) =
        some ⟨"TimeoutError", "", none⟩ := rfl
    rw [executeWithHandling, execute_of_escapes hescapes]
    exact ⟨_, rfl⟩

end Agent
end ScamOn.Analyzers
