import Mathlib.Data.List.TakeWhile
import ScamOn.Memory.Retrieval
import ScamOn.Memory.Snapshot
import ScamOn.Planner.Explainability

/-!
# Learning from investigations

`LearningPipeline.ingest_investigation` writes what an investigation has found into the memory: the
investigation, its evidence and threats, the sender, the links, the attachments and the patterns,
one record after the other.  A record that does not validate ends the ingestion where it is.

* `Draft` is a record before it is validated; `drafts` are those of an investigation, in order.
* `saveAll` is the loop over them, and `ingestInvestigation` the function.
* `kept` are the records that are written, and `failure?` is what ends the ingestion.
* `ingest_exact`: the memory gets the records of the drafts up to the first that fails, nothing else
  is touched, and an ingestion is complete exactly if the texts of the investigation are `Storable`.
-/

namespace ScamOn.Memory

open Planner (EmailInput EvidenceRecord EvidenceSeverity FinalReport ReasoningOutput RiskLevel)

/-! ## What is learned from -/

/-- What the pipeline reads of an `AgentState`; `urls` is what the result of the URL tool has under
this name in its metadata. -/
structure Investigation where
  parsedEmail : Option EmailInput
  executedTools : List String
  urls : Option (JsonValue ℚ)
  evidence : List EvidenceRecord

/-- `LearningPipeline`, with its embedder, and what it uses of the language: `lower`, the text of a
dictionary, and the texts of pydantic's `ValidationError`, for a record and for a link that is no
text. -/
structure LearningPipeline where
  embedder : Embedder ℚ
  lower : String → String
  strDict : Dict String (JsonValue ℚ) → String
  report : RecordData ℚ (JsonValue ℚ) → String
  reportUrl : JsonValue ℚ → String

/-- What an ingestion draws: the time, and the identifiers of its records, in order. -/
structure Draws where
  now : String
  memoryId : ℕ → String
  now_le : now.length ≤ 64
  memoryId_fits : ∀ n, 1 ≤ (memoryId n).length ∧ (memoryId n).length ≤ 128

/-- A record before it is validated, and the text that it is embedded by. -/
structure Draft where
  confidence : ℚ
  details : Details ℚ (JsonValue ℚ)
  text : String

/-! ## Drafts -/

section Drafts

variable (pipe : LearningPipeline) (inv : Investigation) (reasoning : ReasoningOutput)
  (report : Option FinalReport)

/-- `reasoning.risk_level in ("high", "critical")`. -/
def isMalicious (riskLevel : RiskLevel) : Bool := .high ≤ riskLevel

/-- `confidence or reasoning.confidence`. -/
def confidenceOr (confidence : Option ℚ) (default : ℚ) : ℚ :=
  match confidence with
  | some c => if c = 0 then default else c
  | none => default

/-- The record of the investigation. -/
def investigationDraft : Draft :=
  let emailId := (inv.parsedEmail.map (·.header.messageId)).getD "unknown_email"
  let subject := (inv.parsedEmail.map (·.header.subject)).getD "No Subject"
  let sender := (inv.parsedEmail.map (·.header.sender)).getD "unknown@domain.com"
  let classification := (report.map (·.classification)).getD reasoning.riskLevel.value
  let summary := (report.map (·.summary)).getD reasoning.summary
  {
    confidence := reasoning.confidence
    details := .investigation emailId subject sender classification reasoning.riskLevel.value
      inv.executedTools summary
    text := subject ++ " " ++ sender ++ " " ++ summary ++ " " ++ classification
  }

/-- The record of an item of evidence, and one of the threat if it is severe. -/
def evidenceDrafts (ev : EvidenceRecord) : List Draft :=
  {
    confidence := confidenceOr ev.confidence reasoning.confidence
    details := .evidence ev.evidenceId ev.category ev.title ev.description ev.severity.value ev.source
    text := ev.category ++ " " ++ ev.title ++ " " ++ ev.description
  } ::
    if ev.severity.severe then
      [{
        confidence := confidenceOr ev.confidence reasoning.confidence
        details := .threat ev.category ev.title ev.description (some ("campaign_" ++ ev.category))
        text := ev.category ++ " " ++ ev.title ++ " " ++ ev.description
      }]
    else []

/-- The domain of a sender. -/
def senderDomain (sender : String) : String :=
  match Chars.rpartition '@' sender.toList with
  | (some _, domain) => String.ofList domain
  | (none, _) => "unknown"

/-- The record of the sender. -/
def senderDraft (email : EmailInput) : List Draft :=
  if email.header.sender = "" then []
  else
    let malicious := isMalicious reasoning.riskLevel
    [{
      confidence := reasoning.confidence
      details := .sender email.header.sender (senderDomain email.header.sender)
        (if malicious then 1 / 10 else 9 / 10) (if malicious then 1 else 0) malicious
      text := email.header.sender ++ " " ++ senderDomain email.header.sender
    }]

/-- `url.split("//")[-1]`, if there is a `//`. -/
def afterSlashes : Str → Option Str
  | '/' :: '/' :: s => some ((afterSlashes s).getD s)
  | _ :: s => afterSlashes s
  | [] => none

/-- The domain of a link. -/
def urlDomain (url : String) : String :=
  match afterSlashes url.toList with
  | some rest => String.ofList (Chars.partition '/' rest).1
  | none => "unknown"

/-- The record of a link that is a text. -/
def urlDraft (url : String) : Draft :=
  let domain := urlDomain url
  let threatCategory := if isMalicious reasoning.riskLevel then some "phishing" else none
  {
    confidence := reasoning.confidence
    details := .url url domain (Text.contains domain "bit.ly" || Text.contains domain "tinyurl")
      (isMalicious reasoning.riskLevel) threatCategory
    text := url ++ " " ++ domain ++ " " ++ threatCategory.getD ""
  }

/-- `type(value).__name__`. -/
def typeName : JsonValue ℚ → String
  | .null => "NoneType"
  | .bool _ => "bool"
  | .int _ => "int"
  | .float _ => "float"
  | .str _ => "str"
  | .arr _ => "list"
  | .obj _ => "dict"

/-- What becomes of a link that is no text, and not empty. -/
def urlError (value : JsonValue ℚ) : PyException :=
  let noSplit : PyException := ⟨"AttributeError", "'" ++ typeName value ++ "' object has no attribute 'split'"⟩
  match value with
  | .arr items =>
    if items.any fun item => item.eq (.str "//") then noSplit
    else ⟨"ValidationError", pipe.reportUrl value⟩
  | .obj fields =>
    if fields.any fun field => field.1 = "//" then noSplit
    else ⟨"ValidationError", pipe.reportUrl value⟩
  | _ => ⟨"TypeError", "argument of type '" ++ typeName value ++ "' is not iterable"⟩

/-- The values that `extracted` has one after the other. -/
def iterate : JsonValue ℚ → Except PyException (List (JsonValue ℚ))
  | .arr items => .ok items
  | .str s => .ok (s.toList.map fun c => .str (String.singleton c))
  | .obj fields => .ok (fields.map fun field => .str field.1)
  | value => .error ⟨"TypeError", "'" ++ typeName value ++ "' object is not iterable"⟩

/-- The link in an item. -/
def urlOf : JsonValue ℚ → Except PyException (JsonValue ℚ)
  | .str s => .ok (.str s)
  | .obj fields => .ok ((fields.lookup "url").getD (.str ""))
  | value => .error ⟨"AttributeError", "'" ++ typeName value ++ "' object has no attribute 'get'"⟩

/-- The record of an item; an empty link has none. -/
def urlItemDraft (item : JsonValue ℚ) : List (Except PyException Draft) :=
  match urlOf item with
  | .error e => [.error e]
  | .ok (.str url) => if url = "" then [] else [.ok (urlDraft reasoning url)]
  | .ok value => if value.truthy then [.error (urlError pipe value)] else []

/-- The records of the links. -/
def urlDrafts : List (Except PyException Draft) :=
  match iterate (inv.urls.getD (.arr [])) with
  | .error e => [.error e]
  | .ok items => items.flatMap (urlItemDraft pipe reasoning)

/-- The extension of a file. -/
def extensionOf (filename : String) : String :=
  match Chars.rpartition '.' filename.toList with
  | (some _, ext) => String.ofList ext
  | (none, _) => ""

/-- The record of an attachment. -/
def attachmentDraft (filename : String) : Draft :=
  let ext := extensionOf filename
  let dangerous := ["exe", "zip", "scr", "vbs"].contains (pipe.lower ext)
  {
    confidence := reasoning.confidence
    details := .attachment filename ext none (isMalicious reasoning.riskLevel && dangerous)
      (some ("sig_" ++ ext))
    text := filename ++ " " ++ ext ++ "  " ++ "sig_" ++ ext
  }

/-- The record of a pattern. -/
def patternDraft (corr : Planner.Correlation) : Draft :=
  let rules : Dict String (JsonValue ℚ) :=
    .ofList [("severity", .str reasoning.riskLevel.value), ("detail", .str corr.detail)]
  {
    confidence := reasoning.confidence
    details := .pattern corr.indicator rules (if reasoning.riskLevel = .critical then 3 / 2 else 1) 1
    text := corr.indicator ++ " " ++ pipe.strDict rules
  }

/-- The records after that of the investigation, or what is raised where one should be. -/
def laterDrafts : List (Except PyException Draft) :=
  (inv.evidence.flatMap (evidenceDrafts reasoning)).map .ok ++
    (inv.parsedEmail.toList.flatMap (senderDraft reasoning)).map .ok ++
    urlDrafts pipe inv reasoning ++
    (inv.parsedEmail.toList.flatMap fun email =>
      email.attachments.map fun att => .ok (attachmentDraft pipe reasoning att.filename)) ++
    reasoning.evidenceCorrelation.map fun corr => .ok (patternDraft pipe reasoning corr)

/-- The records of an investigation. -/
def drafts : List (Except PyException Draft) :=
  .ok (investigationDraft inv reasoning report) :: laterDrafts pipe inv reasoning

end Drafts

/-! ## Saving -/

section Saving

variable (pipe : LearningPipeline) (draws : Draws)

/-- The fields of a record. -/
def Draft.data (draft : Draft) (n : ℕ) : RecordData ℚ (JsonValue ℚ) where
  memoryId := draws.memoryId n
  memoryType := draft.details.recordClass.defaultType
  createdAt := draws.now
  updatedAt := draws.now
  ttlSeconds := none
  confidenceScore := draft.confidence
  metadata := ∅
  vector := []
  details := draft.details

/-- A draft passes the checks of its record. -/
def Draft.Passes (draft : Draft) : Prop :=
  0 ≤ draft.confidence ∧ draft.confidence ≤ 1 ∧ draft.details.Valid

instance (draft : Draft) : Decidable draft.Passes := inferInstanceAs (Decidable (_ ∧ _ ∧ _))

theorem Draft.valid_data_iff (draft : Draft) (n : ℕ) : (draft.data draws n).Valid ↔ draft.Passes := by
  constructor
  · intro h
    exact ⟨h.confidenceScore_nonneg, h.confidenceScore_le, h.details_valid⟩
  · rintro ⟨hnonneg, hle, hdetails⟩
    have httl : ∀ k, (draft.data draws n).ttlSeconds = some k → 1 ≤ k :=
      fun k hk => absurd hk (by simp [Draft.data])
    exact ⟨(draws.memoryId_fits n).1, (draws.memoryId_fits n).2, draws.now_le, draws.now_le, httl,
      hnonneg, hle, hdetails⟩

/-- `record.model_copy(update={"vector": vec})`. -/
def MemoryRecord.withVector (r : MemoryRecord ℚ (JsonValue ℚ)) (vector : List ℚ) :
    MemoryRecord ℚ (JsonValue ℚ) where
  toRecordData := { r.toRecordData with vector := vector }
  valid := {
    memoryId_pos := r.valid.memoryId_pos
    memoryId_le := r.valid.memoryId_le
    createdAt_le := r.valid.createdAt_le
    updatedAt_le := r.valid.updatedAt_le
    ttlSeconds_pos := r.valid.ttlSeconds_pos
    confidenceScore_nonneg := r.valid.confidenceScore_nonneg
    confidenceScore_le := r.valid.confidenceScore_le
    details_valid := r.valid.details_valid
  }

/-- The record that `BaseMemoryRepository.save` inserts. -/
def embedded (text : String) (r : MemoryRecord ℚ (JsonValue ℚ)) : MemoryRecord ℚ (JsonValue ℚ) :=
  r.withVector
    (if text ≠ "" ∧ r.vector = [] then pipe.embedder.embedText text else r.vector)

/-- The record of a draft, the `n`-th of the ingestion. -/
def recordOf (n : ℕ) (draft : Draft) (h : draft.Passes) : MemoryRecord ℚ (JsonValue ℚ) :=
  embedded pipe draft.text ⟨draft.data draws n, (draft.valid_data_iff draws n).2 h⟩

/-- The exception of a draft that fails. -/
def validationError (n : ℕ) (draft : Draft) : PyException :=
  ⟨"ValidationError", pipe.report (draft.data draws n)⟩

/-- The loop over the drafts. -/
def saveAll : ℕ → InMemoryVectorStore ℚ (JsonValue ℚ) → List (Except PyException Draft) →
    InMemoryVectorStore ℚ (JsonValue ℚ) × Except PyException Unit
  | _, s, [] => (s, .ok ())
  | _, s, .error e :: _ => (s, .error e)
  | n, s, .ok draft :: rest =>
    if h : draft.Passes then saveAll (n + 1) (s.insert (recordOf pipe draws n draft h)) rest
    else (s, .error (validationError pipe draws n draft))

/-- `ingest_investigation`. -/
def ingestInvestigation (s : InMemoryVectorStore ℚ (JsonValue ℚ)) (inv : Investigation)
    (reasoning : ReasoningOutput) (report : Option FinalReport) :
    InMemoryVectorStore ℚ (JsonValue ℚ) × Except PyException (MemoryRecord ℚ (JsonValue ℚ)) :=
  let draft := investigationDraft inv reasoning report
  if h : draft.Passes then
    let savedInv := recordOf pipe draws 0 draft h
    let saved := saveAll pipe draws 1 (s.insert savedInv) (laterDrafts pipe inv reasoning)
    (saved.1, saved.2.map fun _ => savedInv)
  else (s, .error (validationError pipe draws 0 draft))

end Saving

/-! ## What is written -/

section Written

/-- The drafts up to the first that fails. -/
def passing : List (Except PyException Draft) → List Draft
  | .ok draft :: rest => if draft.Passes then draft :: passing rest else []
  | _ => []

/-- No draft fails. -/
def AllPass (ds : List (Except PyException Draft)) : Prop :=
  ∀ d ∈ ds, ∃ draft, d = .ok draft ∧ draft.Passes

/-- The identifiers of so many records are different. -/
def DistinctIds (draws : Draws) (n : ℕ) : Prop :=
  ∀ i < n, ∀ j < n, draws.memoryId i = draws.memoryId j → i = j

variable {pipe : LearningPipeline} {draws : Draws} {s : InMemoryVectorStore ℚ (JsonValue ℚ)}
  {ds : List (Except PyException Draft)}

@[simp] theorem recordOf_memoryId (pipe : LearningPipeline) (n : ℕ) (draft : Draft)
    (h : draft.Passes) : (recordOf pipe draws n draft h).memoryId = draws.memoryId n := rfl

@[simp] theorem recordOf_details (pipe : LearningPipeline) (n : ℕ) (draft : Draft)
    (h : draft.Passes) : (recordOf pipe draws n draft h).details = draft.details := rfl

@[simp] theorem recordOf_confidenceScore (pipe : LearningPipeline) (n : ℕ) (draft : Draft)
    (h : draft.Passes) : (recordOf pipe draws n draft h).confidenceScore = draft.confidence := rfl

@[simp] theorem allPass_append {ds' : List (Except PyException Draft)} :
    AllPass (ds ++ ds') ↔ AllPass ds ∧ AllPass ds' := by
  simp only [AllPass, List.mem_append, or_imp, forall_and]

@[simp] theorem allPass_cons {d : Except PyException Draft} :
    AllPass (d :: ds) ↔ (∃ draft, d = .ok draft ∧ draft.Passes) ∧ AllPass ds := by
  simp only [AllPass, List.mem_cons, forall_eq_or_imp]

@[simp] theorem allPass_map_ok {l : List Draft} :
    AllPass (l.map .ok) ↔ ∀ draft ∈ l, draft.Passes := by
  simp [AllPass]

theorem length_passing_le (ds : List (Except PyException Draft)) : (passing ds).length ≤ ds.length := by
  induction ds with
  | nil => simp [passing]
  | cons d rest ih =>
    cases d with
    | error e => simp [passing]
    | ok draft =>
      rw [passing]
      split_ifs
      · simpa using ih
      · simp

/-- **The loop is complete** exactly if no draft fails. -/
theorem saveAll_eq_ok_iff (pipe : LearningPipeline) (draws : Draws) (n : ℕ)
    (s : InMemoryVectorStore ℚ (JsonValue ℚ)) :
    (saveAll pipe draws n s ds).2 = .ok () ↔ AllPass ds := by
  induction ds generalizing n s with
  | nil => simp [saveAll, AllPass]
  | cons d rest ih =>
    cases d with
    | error e => simp [saveAll]
    | ok draft =>
      rw [saveAll, allPass_cons]
      split_ifs with h
      · simp [ih, h]
      · simp [h]

/-- **What the loop does not touch.** -/
theorem get?_saveAll_of_ne {n : ℕ} {id : String}
    (h : ∀ i < (passing ds).length, draws.memoryId (n + i) ≠ id) :
    (saveAll pipe draws n s ds).1.records.get? id = s.records.get? id := by
  induction ds generalizing n s with
  | nil => rfl
  | cons d rest ih =>
    cases d with
    | error e => rfl
    | ok draft =>
      rw [passing] at h
      rw [saveAll]
      split_ifs at h ⊢ with hpass
      · rw [ih fun i hi => ?_]
        · have hfirst : draws.memoryId n ≠ id := h 0 (by simp)
          exact Dict.get?_set_of_ne _ _ hfirst.symm
        · rw [Nat.add_assoc, Nat.add_comm 1 i]
          exact h (i + 1) (by simpa using hi)
      · rfl

/-- **What the loop writes**: the record of each draft up to the first that fails. -/
theorem get?_saveAll (pipe : LearningPipeline) (s : InMemoryVectorStore ℚ (JsonValue ℚ)) (n : ℕ)
    (hdistinct : DistinctIds draws (n + ds.length)) {i : ℕ} {draft : Draft}
    (hdraft : (passing ds)[i]? = some draft) :
    ∃ h, (saveAll pipe draws n s ds).1.records.get? (draws.memoryId (n + i)) =
      some (recordOf pipe draws (n + i) draft h) := by
  induction ds generalizing n s i with
  | nil => simp [passing] at hdraft
  | cons d rest ih =>
    cases d with
    | error e => simp [passing] at hdraft
    | ok first =>
      rw [passing] at hdraft
      rw [saveAll]
      split_ifs at hdraft ⊢ with hpass
      · rw [List.length_cons] at hdistinct
        cases i with
        | zero =>
          obtain rfl := Option.some.inj hdraft
          refine ⟨hpass, ?_⟩
          -- The rest of the loop writes under other identifiers.
          rw [get?_saveAll_of_ne fun j hj hsame => ?_]
          · exact (Dict.get?_set _ _ _ _).trans (if_pos rfl)
          · have hlt := hj.trans_le (length_passing_le rest)
            have heq := hdistinct (n + 1 + j) (by omega) (n + 0) (by omega) hsame
            omega
        | succ i =>
          have hshift : n + (i + 1) = n + 1 + i := by omega
          rw [List.getElem?_cons_succ] at hdraft
          rw [hshift]
          refine ih _ _ ?_ hdraft
          intro a ha b hb
          exact hdistinct a (by omega) b (by omega)
      · simp at hdraft

/-- The whole ingestion is the loop over all drafts. -/
theorem ingestInvestigation_eq (pipe : LearningPipeline) (draws : Draws)
    (s : InMemoryVectorStore ℚ (JsonValue ℚ)) (inv : Investigation) (reasoning : ReasoningOutput)
    (report : Option FinalReport) :
    (ingestInvestigation pipe draws s inv reasoning report).1 =
        (saveAll pipe draws 0 s (drafts pipe inv reasoning report)).1 ∧
      ((∃ saved, (ingestInvestigation pipe draws s inv reasoning report).2 = .ok saved) ↔
        AllPass (drafts pipe inv reasoning report)) := by
  rw [← saveAll_eq_ok_iff pipe draws 0 s, drafts, saveAll, ingestInvestigation]
  dsimp only
  split_ifs with h
  · refine ⟨rfl, ?_⟩
    cases (saveAll pipe draws 1 _ (laterDrafts pipe inv reasoning)).2 with
    | ok u => simp [Except.map]
    | error e => simp [Except.map]
  · simp

end Written

/-! ## What can be stored -/

section Storable

/-- An item of evidence fits its record, and the record of its threat. -/
structure EvidenceStorable (ev : EvidenceRecord) : Prop where
  evidenceId : ev.evidenceId.length ≤ 128
  category : ev.category.length ≤ 128
  title : ev.title.length ≤ 256
  description : ev.description.length ≤ if ev.severity.severe then 2048 else 4096
  source : ev.source.length ≤ 128
  confidence : ∀ c ∈ ev.confidence, 0 ≤ c ∧ c ≤ 1

/-- A link fits its record; one that is no text has to be empty. -/
def LinkStorable : JsonValue ℚ → Prop
  | .str url => url.length ≤ 2048 ∧ (urlDomain url).length ≤ 256
  | value => value.truthy = false

/-- The links are a list of texts, or of objects with texts, that fit their records. -/
def LinksStorable (inv : Investigation) : Prop :=
  ∃ items, iterate (inv.urls.getD (.arr [])) = .ok items ∧
    ∀ item ∈ items, ∃ value, urlOf item = .ok value ∧ LinkStorable value

/-- **The texts of an investigation fit the records.** -/
structure Storable (inv : Investigation) (reasoning : ReasoningOutput) : Prop where
  messageId : ∀ email ∈ inv.parsedEmail, email.header.messageId.length ≤ 256
  evidence : ∀ ev ∈ inv.evidence, EvidenceStorable ev
  domain : ∀ email ∈ inv.parsedEmail, (senderDomain email.header.sender).length ≤ 256
  links : LinksStorable inv
  extensions : ∀ email ∈ inv.parsedEmail, ∀ att ∈ email.attachments,
    (extensionOf att.filename).length ≤ 64
  indicators : ∀ corr ∈ reasoning.evidenceCorrelation, corr.indicator.length ≤ 128

variable {pipe : LearningPipeline} {inv : Investigation} {reasoning : ReasoningOutput}
  {report : Option FinalReport}

theorem length_value_le (severity : EvidenceSeverity) : severity.value.length ≤ 64 := by
  cases severity with
  | _ => decide

theorem confidenceOr_mem {default : ℚ} (hdefault : 0 ≤ default ∧ default ≤ 1) (c : Option ℚ) :
    (0 ≤ confidenceOr c default ∧ confidenceOr c default ≤ 1) ↔ ∀ x ∈ c, 0 ≤ x ∧ x ≤ 1 := by
  cases c with
  | none => simpa [confidenceOr] using hdefault
  | some x =>
    rw [confidenceOr]
    split_ifs with hx
    · simpa [hx] using hdefault
    · simp

theorem evidenceDrafts_pass_iff (hconfidence : 0 ≤ reasoning.confidence ∧ reasoning.confidence ≤ 1)
    (ev : EvidenceRecord) :
    (∀ draft ∈ evidenceDrafts reasoning ev, draft.Passes) ↔ EvidenceStorable ev := by
  have hmem := confidenceOr_mem hconfidence ev.confidence
  have hvalue := length_value_le ev.severity
  have hcampaign : ("campaign_" ++ ev.category).length = 9 + ev.category.length := by
    rw [String.length_append]
    rfl
  unfold evidenceDrafts
  by_cases hsevere : ev.severity.severe = true
  · rw [if_pos hsevere]
    simp only [List.mem_cons, List.not_mem_nil, or_false, forall_eq_or_imp, forall_eq, Draft.Passes,
      Details.Valid, ShortText]
    constructor
    · rintro ⟨⟨h0, h1, hid, hcategory, htitle, hdescription, -, hsource⟩, -, -, -, -, hthreat, -⟩
      exact ⟨hid, hcategory, htitle, by rwa [if_pos hsevere], hsource, hmem.1 ⟨h0, h1⟩⟩
    · rintro ⟨hid, hcategory, htitle, hdescription, hsource, hrange⟩
      rw [if_pos hsevere] at hdescription
      obtain ⟨h0, h1⟩ := hmem.2 hrange
      refine ⟨⟨h0, h1, hid, hcategory, htitle, by omega, hvalue, hsource⟩, h0, h1, hcategory, ?_, ?_, ?_⟩
      · omega
      · exact hdescription
      · omega
  · rw [if_neg hsevere]
    simp only [List.mem_singleton, forall_eq, Draft.Passes, Details.Valid]
    constructor
    · rintro ⟨h0, h1, hid, hcategory, htitle, hdescription, -, hsource⟩
      exact ⟨hid, hcategory, htitle, by rwa [if_neg hsevere], hsource, hmem.1 ⟨h0, h1⟩⟩
    · rintro ⟨hid, hcategory, htitle, hdescription, hsource, hrange⟩
      rw [if_neg hsevere] at hdescription
      obtain ⟨h0, h1⟩ := hmem.2 hrange
      exact ⟨h0, h1, hid, hcategory, htitle, hdescription, hvalue, hsource⟩

theorem senderDraft_pass_iff (hconfidence : 0 ≤ reasoning.confidence ∧ reasoning.confidence ≤ 1)
    (email : EmailInput) :
    (∀ draft ∈ senderDraft reasoning email, draft.Passes) ↔
      (senderDomain email.header.sender).length ≤ 256 := by
  have hsender : email.header.sender ≠ "" := by
    intro hempty
    have hfits := email.header.sender_fits.1
    rw [hempty] at hfits
    exact absurd hfits (by decide)
  have hscore : ∀ malicious : Bool, (0 : ℚ) ≤ (if malicious then 1 / 10 else 9 / 10) ∧
      (if malicious then 1 / 10 else 9 / 10 : ℚ) ≤ 1 := by
    intro malicious
    cases malicious with
    | _ => norm_num
  have hcount : ∀ malicious : Bool, (0 : ℤ) ≤ if malicious then 1 else 0 := by
    intro malicious
    cases malicious with
    | _ => decide
  unfold senderDraft
  rw [if_neg hsender]
  simp only [List.mem_singleton, forall_eq, Draft.Passes, Details.Valid]
  constructor
  · rintro ⟨-, -, -, hdomain, -⟩
    exact hdomain
  · intro hdomain
    exact ⟨hconfidence.1, hconfidence.2, email.header.sender_fits.2, hdomain, (hscore _).1,
      (hscore _).2, hcount _⟩

theorem urlDraft_passes_iff (hconfidence : 0 ≤ reasoning.confidence ∧ reasoning.confidence ≤ 1)
    (url : String) :
    (urlDraft reasoning url).Passes ↔ url.length ≤ 2048 ∧ (urlDomain url).length ≤ 256 := by
  have hcategory : ShortText 128 (if isMalicious reasoning.riskLevel = true then some "phishing"
      else none) := by
    cases isMalicious reasoning.riskLevel with
    | _ => decide
  simp only [urlDraft, Draft.Passes, Details.Valid, hconfidence.1, hconfidence.2, hcategory,
    true_and, and_true]

theorem urlItemDraft_pass_iff (hconfidence : 0 ≤ reasoning.confidence ∧ reasoning.confidence ≤ 1)
    (item : JsonValue ℚ) :
    AllPass (urlItemDraft pipe reasoning item) ↔
      ∃ value, urlOf item = .ok value ∧ LinkStorable value := by
  have hempty : ("" : String).length ≤ 2048 ∧ (urlDomain "").length ≤ 256 := by decide
  unfold urlItemDraft
  cases hurl : urlOf item with
  | error e => simp [AllPass]
  | ok value =>
    have hvalue : (∃ v, (Except.ok value : Except PyException (JsonValue ℚ)) = .ok v ∧ LinkStorable v) ↔
        LinkStorable value := by simp
    rw [hvalue]
    cases value with
    | str url =>
      dsimp only [LinkStorable]
      split_ifs with hnone
      · rw [hnone]
        exact iff_of_true (fun _ h => absurd h List.not_mem_nil) hempty
      · simp [AllPass, urlDraft_passes_iff hconfidence]
    | _ =>
      dsimp only [LinkStorable]
      split_ifs with htruthy
      · simp [AllPass, htruthy]
      · simp [AllPass, htruthy]

theorem urlDrafts_pass_iff (hconfidence : 0 ≤ reasoning.confidence ∧ reasoning.confidence ≤ 1) :
    AllPass (urlDrafts pipe inv reasoning) ↔ LinksStorable inv := by
  unfold urlDrafts LinksStorable
  cases iterate (inv.urls.getD (.arr [])) with
  | error e => simp [AllPass]
  | ok items =>
    have hitems : AllPass (items.flatMap (urlItemDraft pipe reasoning)) ↔
        ∀ item ∈ items, AllPass (urlItemDraft pipe reasoning item) := by
      simp only [AllPass, List.mem_flatMap, forall_exists_index, and_imp]
      exact ⟨fun h item hitem d hd => h d item hitem hd, fun h d item hitem hd => h item hitem d hd⟩
    simp only [hitems, urlItemDraft_pass_iff hconfidence]
    simp

theorem attachmentDraft_passes_iff
    (hconfidence : 0 ≤ reasoning.confidence ∧ reasoning.confidence ≤ 1) {filename : String}
    (hfilename : filename.length ≤ 255) :
    (attachmentDraft pipe reasoning filename).Passes ↔ (extensionOf filename).length ≤ 64 := by
  have hsignature : ("sig_" ++ extensionOf filename).length = 4 + (extensionOf filename).length := by
    rw [String.length_append]
    rfl
  simp only [attachmentDraft, Draft.Passes, Details.Valid, ShortText]
  constructor
  · rintro ⟨-, -, -, hext, -⟩
    exact hext
  · intro hext
    exact ⟨hconfidence.1, hconfidence.2, hfilename, hext, trivial, by omega⟩

theorem patternDraft_passes_iff (hconfidence : 0 ≤ reasoning.confidence ∧ reasoning.confidence ≤ 1)
    (corr : Planner.Correlation) :
    (patternDraft pipe reasoning corr).Passes ↔ corr.indicator.length ≤ 128 := by
  have hweight : (0 : ℚ) ≤ if reasoning.riskLevel = .critical then 3 / 2 else 1 := by
    split_ifs <;> norm_num
  simp only [patternDraft, Draft.Passes, Details.Valid, hconfidence.1, hconfidence.2, hweight,
    true_and, le_refl, and_true]

theorem investigationDraft_passes_iff (inv : Investigation)
    (hconfidence : 0 ≤ reasoning.confidence ∧ reasoning.confidence ≤ 1)
    (hsummary : ((report.map (·.summary)).getD reasoning.summary).length ≤ 4096)
    (hclass : ((report.map (·.classification)).getD reasoning.riskLevel.value).length ≤ 128) :
    (investigationDraft inv reasoning report).Passes ↔
      ∀ email ∈ inv.parsedEmail, email.header.messageId.length ≤ 256 := by
  have hlevel : reasoning.riskLevel.value.length ≤ 64 := by
    cases reasoning.riskLevel with
    | _ => decide
  simp only [investigationDraft, Draft.Passes, Details.Valid, hconfidence.1, hconfidence.2, hsummary,
    hclass, hlevel, true_and, and_true]
  cases inv.parsedEmail with
  | none => exact iff_of_true (by decide) (fun _ h => absurd h (by simp))
  | some email =>
    simp only [Option.map_some, Option.getD_some, Option.mem_some_iff, forall_eq']
    exact ⟨fun h => h.1, fun h => ⟨h, email.header.subject_fits.2, email.header.sender_fits.2⟩⟩

/-- **No draft fails** exactly if the investigation can be stored. -/
theorem allPass_drafts_iff (hconfidence : 0 ≤ reasoning.confidence ∧ reasoning.confidence ≤ 1)
    (hsummary : ((report.map (·.summary)).getD reasoning.summary).length ≤ 4096)
    (hclass : ((report.map (·.classification)).getD reasoning.riskLevel.value).length ≤ 128) :
    AllPass (drafts pipe inv reasoning report) ↔ Storable inv reasoning := by
  have hinvestigation := investigationDraft_passes_iff inv hconfidence hsummary hclass
  have hevidence : (∀ draft ∈ inv.evidence.flatMap (evidenceDrafts reasoning), draft.Passes) ↔
      ∀ ev ∈ inv.evidence, EvidenceStorable ev := by
    simp only [← evidenceDrafts_pass_iff hconfidence, List.mem_flatMap, forall_exists_index, and_imp]
    exact ⟨fun h ev hev d hd => h d ev hev hd, fun h d ev hev hd => h ev hev d hd⟩
  have hsender : (∀ draft ∈ inv.parsedEmail.toList.flatMap (senderDraft reasoning), draft.Passes) ↔
      ∀ email ∈ inv.parsedEmail, (senderDomain email.header.sender).length ≤ 256 := by
    simp only [← senderDraft_pass_iff hconfidence, List.mem_flatMap, Option.mem_toList,
      forall_exists_index, and_imp]
    exact ⟨fun h e he d hd => h d e he hd, fun h d e he hd => h e he d hd⟩
  have hattachments : AllPass (inv.parsedEmail.toList.flatMap fun email =>
      email.attachments.map fun att => .ok (attachmentDraft pipe reasoning att.filename)) ↔
        ∀ email ∈ inv.parsedEmail, ∀ att ∈ email.attachments,
          (extensionOf att.filename).length ≤ 64 := by
    simp only [AllPass, List.mem_flatMap, Option.mem_toList, List.mem_map]
    constructor
    · intro h email hemail att hatt
      obtain ⟨draft, hdraft, hpasses⟩ := h _ ⟨email, hemail, att, hatt, rfl⟩
      obtain rfl := Except.ok.inj hdraft
      exact (attachmentDraft_passes_iff hconfidence att.filename_fits.2).1 hpasses
    · rintro h d ⟨email, hemail, att, hatt, rfl⟩
      exact ⟨_, rfl, (attachmentDraft_passes_iff hconfidence att.filename_fits.2).2
        (h email hemail att hatt)⟩
  have hpatterns : AllPass (reasoning.evidenceCorrelation.map fun corr =>
      .ok (patternDraft pipe reasoning corr)) ↔
        ∀ corr ∈ reasoning.evidenceCorrelation, corr.indicator.length ≤ 128 := by
    simp [AllPass, patternDraft_passes_iff hconfidence]
  rw [drafts, laterDrafts, allPass_cons, allPass_append, allPass_append, allPass_append,
    allPass_append, allPass_map_ok, allPass_map_ok, hevidence, hsender, hattachments, hpatterns,
    urlDrafts_pass_iff hconfidence]
  simp only [Except.ok.injEq, exists_eq_left', hinvestigation]
  constructor
  · rintro ⟨hid, ⟨⟨⟨hev, hdomain⟩, hlinks⟩, hext⟩, hind⟩
    exact ⟨hid, hev, hdomain, hlinks, hext, hind⟩
  · rintro ⟨hid, hev, hdomain, hlinks, hext, hind⟩
    exact ⟨hid, ⟨⟨⟨hev, hdomain⟩, hlinks⟩, hext⟩, hind⟩

end Storable

/-! ## Learning from a verdict -/

section Verdict

open Planner (AgentState ReasoningEnv Retriever reason generateReport)

theorem length_summary_reason (env : ReasoningEnv) (parsedEmail : Option EmailInput)
    (evidences : List EvidenceRecord) (retriever : Option Retriever) :
    (reason env parsedEmail evidences retriever).summary.length ≤ 4096 := by
  have hassess : ∀ s hasAttachments, (Planner.assess s hasAttachments).summary.length ≤ 4096 := by
    intro s hasAttachments
    unfold Planner.assess
    split_ifs <;> decide +kernel
  have hcurrent : (Planner.currentAssessment env parsedEmail evidences).summary.length ≤ 4096 := by
    unfold Planner.currentAssessment Planner.Assessment.adjustDensity
    split_ifs
    · exact hassess _ _
    · exact hassess _ _
  have hraised : ∀ ctx, ((Planner.currentAssessment env parsedEmail evidences).raiseForCampaign
      ctx).summary.length ≤ 4096 := by
    intro ctx
    unfold Planner.Assessment.raiseForCampaign
    split_ifs
    · decide +kernel
    · exact hcurrent
  show ((Planner.currentAssessment env parsedEmail evidences).adjustHistory _).summary.length ≤ 4096
  unfold Planner.Assessment.adjustHistory Planner.Assessment.addReview
    Planner.Assessment.addAdjustment
  split_ifs
  · exact hraised _
  · exact hraised _
  · exact hraised _
  · exact hraised _

theorem confidence_reason_mem (env : ReasoningEnv) (parsedEmail : Option EmailInput)
    (evidences : List EvidenceRecord) (retriever : Option Retriever) :
    0 ≤ (reason env parsedEmail evidences retriever).confidence ∧
      (reason env parsedEmail evidences retriever).confidence ≤ 1 := by
  have hcurrent := @Planner.confidence_currentAssessment env parsedEmail evidences
  have hctx : 0 ≤ (Planner.historicalContext env parsedEmail retriever).confidenceAdjustment ∧ _ :=
    Planner.historicalContext_mem parsedEmail retriever
  have hraised := Planner.confidence_raiseForCampaign hcurrent
    (Planner.historicalContext env parsedEmail retriever)
  have hmem := Planner.capped_mem hctx.1 hraised.1
  rw [Planner.confidence_reason, Planner.confidence_adjustHistory hcurrent]
  exact ⟨by linarith [hmem.1], by linarith [hmem.2]⟩

/-- What an ingestion does to the memory: the records of the drafts up to the first that fails. -/
structure Learned (pipe : LearningPipeline) (draws : Draws)
    (s s' : InMemoryVectorStore ℚ (JsonValue ℚ)) (ds : List (Except PyException Draft)) : Prop where
  written : ∀ (i : ℕ) (draft : Draft), (passing ds)[i]? = some draft →
    ∃ h, s'.records.get? (draws.memoryId i) = some (recordOf pipe draws i draft h)
  untouched : ∀ id, (∀ i < (passing ds).length, draws.memoryId i ≠ id) →
    s'.records.get? id = s.records.get? id

/-- **Ingestion.**  The memory gets the records of the drafts up to the first that fails, in their
order and under the identifiers that are drawn, and no other record changes; and the ingestion
returns exactly if the texts of the investigation fit the records. -/
theorem ingest_exact (env : ReasoningEnv) (retriever : Option Retriever) (pipe : LearningPipeline)
    (draws : Draws) (s : InMemoryVectorStore ℚ (JsonValue ℚ)) (inv : Investigation)
    (state : Option AgentState)
    (hdistinct : DistinctIds draws (drafts pipe inv (reason env inv.parsedEmail inv.evidence retriever)
      (state.map (generateReport · (reason env inv.parsedEmail inv.evidence retriever)))).length) :
    let reasoning := reason env inv.parsedEmail inv.evidence retriever
    let report := state.map (generateReport · reasoning)
    let result := ingestInvestigation pipe draws s inv reasoning report
    Learned pipe draws s result.1 (drafts pipe inv reasoning report) ∧
      ((∃ saved, result.2 = .ok saved) ↔ Storable inv reasoning) := by
  intro reasoning report result
  have hsummary : ((report.map (·.summary)).getD reasoning.summary).length ≤ 4096 := by
    have hlength := length_summary_reason env inv.parsedEmail inv.evidence retriever
    cases state with
    | none => exact hlength
    | some st => exact hlength
  have hclass : ((report.map (·.classification)).getD reasoning.riskLevel.value).length ≤ 128 := by
    cases state with
    | none =>
      show reasoning.riskLevel.value.length ≤ 128
      cases reasoning.riskLevel with
      | _ => decide
    | some st =>
      show (Planner.classificationOf reasoning.riskLevel).length ≤ 128
      cases reasoning.riskLevel with
      | _ => decide
  obtain ⟨hstore, hcomplete⟩ := ingestInvestigation_eq pipe draws s inv reasoning report
  refine ⟨⟨fun i draft hdraft => ?_, fun id hid => ?_⟩, ?_⟩
  · have hsaved := get?_saveAll pipe s 0 (by rw [Nat.zero_add]; exact hdistinct) hdraft
    rw [Nat.zero_add] at hsaved
    show ∃ h, (ingestInvestigation pipe draws s inv reasoning report).1.records.get? _ = _
    rw [hstore]
    exact hsaved
  · show (ingestInvestigation pipe draws s inv reasoning report).1.records.get? id = _
    rw [hstore]
    exact get?_saveAll_of_ne fun i hi => by rw [Nat.zero_add]; exact hid i hi
  · exact hcomplete.trans (allPass_drafts_iff
      (confidence_reason_mem env inv.parsedEmail inv.evidence retriever) hsummary hclass)

theorem lettered_now : "2026-01-01T00:00:00+00:00".length ≤ 64 := by decide

theorem lettered_memoryId (n : ℕ) : 1 ≤ (String.singleton (Char.ofNat (97 + n % 26))).length ∧
    (String.singleton (Char.ofNat (97 + n % 26))).length ≤ 128 := by
  simp

/-- An identifier for each record, of one letter. -/
def lettered : Draws where
  now := "2026-01-01T00:00:00+00:00"
  memoryId n := String.singleton (Char.ofNat (97 + n % 26))
  now_le := lettered_now
  memoryId_fits := lettered_memoryId

/-- A pipeline that embeds every text alike. -/
def plainPipeline : LearningPipeline where
  embedder := ⟨fun _ => [1], 1⟩
  lower := Text.asciiLower
  strDict _ := "\x7b\x7d"
  report _ := "1 validation error"
  reportUrl _ := "1 validation error for URLMemory"

/-- An investigation without an e-mail that has found a bad link. -/
def badLink : Investigation := ⟨none, ["url_tool"], none, [Planner.bareItem "url" .critical]⟩

theorem badLink_drafts : (drafts plainPipeline badLink
    (reason Planner.asciiEnv none [Planner.bareItem "url" .critical] none) none).length = 4 := by
  decide +kernel

theorem lettered_distinct : DistinctIds lettered 4 := by
  unfold DistinctIds
  decide +kernel

/-- The bad link is learned as four records. -/
theorem ingest_exact_badLink :
    Learned plainPipeline lettered .empty
        (ingestInvestigation plainPipeline lettered .empty badLink
          (reason Planner.asciiEnv none [Planner.bareItem "url" .critical] none) none).1
        (drafts plainPipeline badLink
          (reason Planner.asciiEnv none [Planner.bareItem "url" .critical] none) none) ∧
      ((∃ saved, (ingestInvestigation plainPipeline lettered .empty badLink
          (reason Planner.asciiEnv none [Planner.bareItem "url" .critical] none) none).2 =
            .ok saved) ↔
        Storable badLink (reason Planner.asciiEnv none [Planner.bareItem "url" .critical] none)) := by
  refine ingest_exact Planner.asciiEnv none plainPipeline lettered .empty badLink none ?_
  exact badLink_drafts ▸ lettered_distinct

end Verdict

end ScamOn.Memory
