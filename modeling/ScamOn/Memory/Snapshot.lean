import Mathlib.Data.List.TakeWhile
import ScamOn.Lib.Machine
import ScamOn.Memory.VectorStore

/-!
# Snapshots of the memory store

An `InMemoryVectorStore` with a persistence file writes all its records to the file after each
change, as one JSON document, and a new store reads them back: the tag of an entry chooses the
class that validates it.  The first entry that does not validate ends the loop.

* `modelDump` and `modelValidate` are the encoding and the decoding of one record.
* `load` is the loop of `restore`, `PersistentStore` the store with its file.
* `validateItem_modelDump`: a record of the class of its tag comes back as it was.
* `validateItem_modelDump_of_ne`: any other record does not validate.
* `reopen_eq_iff` and `restore_bad_iff` say when a restart keeps the records, and when a bad entry
  costs no other one.
-/

namespace ScamOn.Memory

variable {K : Type}

/-! ## Encoding -/

def optionalStr : Option String → JsonValue K
  | none => .null
  | some s => .str s

def optionalInt : Option ℤ → JsonValue K
  | none => .null
  | some n => .int n

/-- The fields of `BaseMemoryRecord`, in the order of the class. -/
def baseFields (r : RecordData K (JsonValue K)) : List (String × JsonValue K) :=
  [("memory_id", .str r.memoryId),
    ("memory_type", .str r.memoryType.value),
    ("created_at", .str r.createdAt),
    ("updated_at", .str r.updatedAt),
    ("ttl_seconds", optionalInt r.ttlSeconds),
    ("confidence_score", .float r.confidenceScore),
    ("metadata", .obj r.metadata.entries),
    ("vector", .arr (r.vector.map .float))]

/-- The fields that a class adds. -/
def detailFields : Details K (JsonValue K) → List (String × JsonValue K)
  | .base => []
  | .investigation emailId subject from_ classification riskLevel executedTools summary =>
    [("email_id", .str emailId), ("subject", .str subject), ("sender", .str from_),
      ("classification", .str classification), ("risk_level", .str riskLevel),
      ("executed_tools", .arr (executedTools.map .str)), ("summary", .str summary)]
  | .evidence evidenceId category title description severity sourceTool =>
    [("evidence_id", .str evidenceId), ("category", .str category), ("title", .str title),
      ("description", .str description), ("severity", .str severity), ("source_tool", .str sourceTool)]
  | .threat threatType indicator description associatedCampaign =>
    [("threat_type", .str threatType), ("indicator", .str indicator),
      ("description", .str description), ("associated_campaign", optionalStr associatedCampaign)]
  | .sender senderEmail domain reputationScore incidentCount isKnownSpoof =>
    [("sender_email", .str senderEmail), ("domain", .str domain),
      ("reputation_score", .float reputationScore), ("incident_count", .int incidentCount),
      ("is_known_spoof", .bool isKnownSpoof)]
  | .url address domain isShortened isMalicious threatCategory =>
    [("url", .str address), ("domain", .str domain), ("is_shortened", .bool isShortened),
      ("is_malicious", .bool isMalicious), ("threat_category", optionalStr threatCategory)]
  | .attachment filename extension fileHash isMalicious signature =>
    [("filename", .str filename), ("extension", .str extension), ("file_hash", optionalStr fileHash),
      ("is_malicious", .bool isMalicious), ("signature", optionalStr signature)]
  | .pattern patternName patternRules weight occurrenceCount =>
    [("pattern_name", .str patternName), ("pattern_rules", .obj patternRules.entries),
      ("weight", .float weight), ("occurrence_count", .int occurrenceCount)]
  | .case caseId title investigationIds verdict =>
    [("case_id", .str caseId), ("title", .str title),
      ("investigation_ids", .arr (investigationIds.map .str)), ("verdict", .str verdict)]

/-- `model_dump(mode="json")`. -/
def modelDump (r : RecordData K (JsonValue K)) : JsonValue K :=
  .obj (baseFields r ++ detailFields r.details)

/-! ## Decoding -/

/-- The names of the fields of `BaseMemoryRecord`. -/
def baseNames : List String :=
  ["memory_id", "memory_type", "created_at", "updated_at", "ttl_seconds", "confidence_score",
    "metadata", "vector"]

/-- The names of the fields that a class adds. -/
def RecordClass.ownNames : RecordClass → List String
  | .BaseMemoryRecord => []
  | .InvestigationMemory =>
    ["email_id", "subject", "sender", "classification", "risk_level", "executed_tools", "summary"]
  | .EvidenceMemory =>
    ["evidence_id", "category", "title", "description", "severity", "source_tool"]
  | .ThreatMemory => ["threat_type", "indicator", "description", "associated_campaign"]
  | .SenderMemory =>
    ["sender_email", "domain", "reputation_score", "incident_count", "is_known_spoof"]
  | .URLMemory => ["url", "domain", "is_shortened", "is_malicious", "threat_category"]
  | .AttachmentMemory => ["filename", "extension", "file_hash", "is_malicious", "signature"]
  | .PatternMemory => ["pattern_name", "pattern_rules", "weight", "occurrence_count"]
  | .CaseMemory => ["case_id", "title", "investigation_ids", "verdict"]

/-- The tag of a record of the class that is given none. -/
def RecordClass.defaultType : RecordClass → MemoryType
  | .BaseMemoryRecord => .investigation
  | .InvestigationMemory => .investigation
  | .EvidenceMemory => .evidence
  | .ThreatMemory => .threat
  | .SenderMemory => .sender
  | .URLMemory => .url
  | .AttachmentMemory => .attachment
  | .PatternMemory => .pattern
  | .CaseMemory => .case

/-- `type_map`, which has no entry for `REPUTATION`. -/
def typeMap : MemoryType → RecordClass
  | .investigation => .InvestigationMemory
  | .evidence => .EvidenceMemory
  | .threat => .ThreatMemory
  | .reputation => .BaseMemoryRecord
  | .sender => .SenderMemory
  | .url => .URLMemory
  | .attachment => .AttachmentMemory
  | .pattern => .PatternMemory
  | .case => .CaseMemory

/-- A field that is read from its value, or has its default when it is missing. -/
def field {α : Type} (fields : List (String × JsonValue K)) (name : String) (default : Option α)
    (read : JsonValue K → Option α) : Option α :=
  match fields.lookup name with
  | none => default
  | some value => read value

namespace JsonReader

def str : JsonValue K → Option String
  | .str s => some s
  | _ => none

def optionalStr : JsonValue K → Option (Option String)
  | .null => some none
  | .str s => some (some s)
  | _ => none

def int : JsonValue K → Option ℤ
  | .int n => some n
  | _ => none

def optionalInt : JsonValue K → Option (Option ℤ)
  | .null => some none
  | .int n => some (some n)
  | _ => none

def bool : JsonValue K → Option Bool
  | .bool b => some b
  | _ => none

/-- An integer passes for a float. -/
def float [IntCast K] : JsonValue K → Option K
  | .float x => some x
  | .int n => some (n : K)
  | _ => none

/-- A list is made a tuple before it is validated. -/
def items {α : Type} (read : JsonValue K → Option α) : JsonValue K → Option (List α)
  | .arr values => values.mapM read
  | _ => none

def object : JsonValue K → Option (Dict String (JsonValue K))
  | .obj fields => some (.ofList fields)
  | _ => none

/-- A text is made a `MemoryType` before it is validated. -/
def memoryType : JsonValue K → Option MemoryType
  | .str s => MemoryType.ofValue? s
  | _ => none

end JsonReader

/-- The values that are drawn for the fields of a record that are not given. -/
structure Generated where
  memoryId : String
  now : String

section Validate

variable [Field K]

/-- The fields of a class, read from an entry. -/
def readDetails (fields : List (String × JsonValue K)) :
    RecordClass → Option (Details K (JsonValue K))
  | .BaseMemoryRecord => some .base
  | .InvestigationMemory => do
    let emailId ← field fields "email_id" none JsonReader.str
    let subject ← field fields "subject" none JsonReader.str
    let from_ ← field fields "sender" none JsonReader.str
    let classification ← field fields "classification" none JsonReader.str
    let riskLevel ← field fields "risk_level" none JsonReader.str
    let executedTools ← field fields "executed_tools" (some []) (JsonReader.items JsonReader.str)
    let summary ← field fields "summary" none JsonReader.str
    return .investigation emailId subject from_ classification riskLevel executedTools summary
  | .EvidenceMemory => do
    let evidenceId ← field fields "evidence_id" none JsonReader.str
    let category ← field fields "category" none JsonReader.str
    let title ← field fields "title" none JsonReader.str
    let description ← field fields "description" none JsonReader.str
    let severity ← field fields "severity" none JsonReader.str
    let sourceTool ← field fields "source_tool" none JsonReader.str
    return .evidence evidenceId category title description severity sourceTool
  | .ThreatMemory => do
    let threatType ← field fields "threat_type" none JsonReader.str
    let indicator ← field fields "indicator" none JsonReader.str
    let description ← field fields "description" none JsonReader.str
    let associatedCampaign ←
      field fields "associated_campaign" (some none) JsonReader.optionalStr
    return .threat threatType indicator description associatedCampaign
  | .SenderMemory => do
    let senderEmail ← field fields "sender_email" none JsonReader.str
    let domain ← field fields "domain" none JsonReader.str
    let reputationScore ←
      field fields "reputation_score" (some ((1 / 2 : ℚ) : K)) JsonReader.float
    let incidentCount ← field fields "incident_count" (some 0) JsonReader.int
    let isKnownSpoof ← field fields "is_known_spoof" (some false) JsonReader.bool
    return .sender senderEmail domain reputationScore incidentCount isKnownSpoof
  | .URLMemory => do
    let address ← field fields "url" none JsonReader.str
    let domain ← field fields "domain" none JsonReader.str
    let isShortened ← field fields "is_shortened" (some false) JsonReader.bool
    let isMalicious ← field fields "is_malicious" (some false) JsonReader.bool
    let threatCategory ← field fields "threat_category" (some none) JsonReader.optionalStr
    return .url address domain isShortened isMalicious threatCategory
  | .AttachmentMemory => do
    let filename ← field fields "filename" none JsonReader.str
    let extension ← field fields "extension" none JsonReader.str
    let fileHash ← field fields "file_hash" (some none) JsonReader.optionalStr
    let isMalicious ← field fields "is_malicious" (some false) JsonReader.bool
    let signature ← field fields "signature" (some none) JsonReader.optionalStr
    return .attachment filename extension fileHash isMalicious signature
  | .PatternMemory => do
    let patternName ← field fields "pattern_name" none JsonReader.str
    let patternRules ← field fields "pattern_rules" (some ∅) JsonReader.object
    let weight ← field fields "weight" (some 1) JsonReader.float
    let occurrenceCount ← field fields "occurrence_count" (some 1) JsonReader.int
    return .pattern patternName patternRules weight occurrenceCount
  | .CaseMemory => do
    let caseId ← field fields "case_id" none JsonReader.str
    let title ← field fields "title" none JsonReader.str
    let investigationIds ← field fields "investigation_ids" (some []) (JsonReader.items JsonReader.str)
    let verdict ← field fields "verdict" none JsonReader.str
    return .case caseId title investigationIds verdict

variable [LinearOrder K]

/-- The fields of an entry, read as those of a class; a field that the class has not is an error. -/
def readRecord (drawn : Generated) (cls : RecordClass) (fields : List (String × JsonValue K)) :
    Option (RecordData K (JsonValue K)) := do
  guard (fields.all fun f => f.1 ∈ baseNames ++ cls.ownNames)
  let memoryId ← field fields "memory_id" (some drawn.memoryId) JsonReader.str
  let memoryType ← field fields "memory_type" (some cls.defaultType) JsonReader.memoryType
  let createdAt ← field fields "created_at" (some drawn.now) JsonReader.str
  let updatedAt ← field fields "updated_at" (some drawn.now) JsonReader.str
  let ttlSeconds ← field fields "ttl_seconds" (some none) JsonReader.optionalInt
  let confidenceScore ← field fields "confidence_score" (some 1) JsonReader.float
  let metadata ← field fields "metadata" (some ∅) JsonReader.object
  let vector ← field fields "vector" (some []) (JsonReader.items JsonReader.float)
  let details ← readDetails fields cls
  return ⟨memoryId, memoryType, createdAt, updatedAt, ttlSeconds, confidenceScore, metadata, vector,
    details⟩

/-- `target_cls.model_validate(item)`. -/
def modelValidate (drawn : Generated) (cls : RecordClass) (fields : List (String × JsonValue K)) :
    Option (MemoryRecord K (JsonValue K)) :=
  match readRecord drawn cls fields with
  | none => none
  | some r => if h : r.Valid then some ⟨r, h⟩ else none

/-- The class that the tag of an entry stands for. -/
def targetClass (fields : List (String × JsonValue K)) : RecordClass :=
  match (fields.lookup "memory_type").bind JsonReader.memoryType with
  | some t => typeMap t
  | none => .BaseMemoryRecord

/-- An entry of the document; one that is no object has no `get`. -/
def validateItem (drawn : Generated) : JsonValue K → Option (MemoryRecord K (JsonValue K))
  | .obj fields => modelValidate drawn (targetClass fields) fields
  | _ => none

end Validate

/-! ## Round trips of the fields -/

section RoundTrip

variable {α : Type} (fields more : List (String × JsonValue K)) (name : String) (default : Option α)
  (read : JsonValue K → Option α)

theorem field_nil : field [] name default read = default := rfl

theorem field_cons (key : String) (value : JsonValue K) :
    field ((key, value) :: fields) name default read =
      if name = key then read value else field fields name default read := by
  unfold field
  rw [Dict.lookup_cons_ite]
  split_ifs with h
  · rfl
  · rfl

theorem field_append_of_notMem (h : name ∉ fields.map Prod.fst) :
    field (fields ++ more) name default read = field more name default read := by
  induction fields with
  | nil => rfl
  | cons f fields ih =>
    rw [List.map_cons, List.mem_cons, not_or] at h
    obtain ⟨key, value⟩ := f
    rw [List.cons_append, field_cons, if_neg h.1, ih h.2]

theorem items_map {read : JsonValue K → Option α} {write : α → JsonValue K}
    (h : ∀ a, read (write a) = some a) (l : List α) :
    JsonReader.items read (.arr (l.map write)) = some l := by
  show (l.map write).mapM read = some l
  induction l with
  | nil => rfl
  | cons a l ih => simp [h, ih]

theorem items_map_str (l : List String) :
    JsonReader.items JsonReader.str (.arr (l.map .str) : JsonValue K) = some l :=
  @items_map K String JsonReader.str .str (fun _ => rfl) l

theorem items_map_float [IntCast K] (l : List K) :
    JsonReader.items JsonReader.float (.arr (l.map .float)) = some l :=
  @items_map K K JsonReader.float .float (fun _ => rfl) l

theorem optionalStr_optionalStr (s : Option String) :
    JsonReader.optionalStr (optionalStr s : JsonValue K) = some s := by
  cases s with
  | none => rfl
  | some s => rfl

theorem optionalInt_optionalInt (n : Option ℤ) :
    JsonReader.optionalInt (optionalInt n : JsonValue K) = some n := by
  cases n with
  | none => rfl
  | some n => rfl

end RoundTrip

theorem baseFields_names (r : RecordData K (JsonValue K)) : (baseFields r).map Prod.fst = baseNames := rfl

theorem detailFields_names (d : Details K (JsonValue K)) :
    (detailFields d).map Prod.fst = d.recordClass.ownNames := by
  cases d with
  | _ => rfl

/-- A dump has the fields of its class and no other. -/
theorem names_modelDump (r : RecordData K (JsonValue K)) :
    (baseFields r ++ detailFields r.details).map Prod.fst =
      baseNames ++ r.details.recordClass.ownNames := by
  rw [List.map_append, baseFields_names, detailFields_names]

theorem lookup_memory_type (r : RecordData K (JsonValue K)) :
    (baseFields r ++ detailFields r.details).lookup "memory_type" = some (.str r.memoryType.value) := by
  simp [baseFields, Dict.lookup_cons_ite]

theorem field_baseFields {α : Type} (r : RecordData K (JsonValue K))
    (fields : List (String × JsonValue K)) (default : Option α) (read : JsonValue K → Option α)
    {name : String} (h : name ∉ baseNames) :
    field (baseFields r ++ fields) name default read = field fields name default read :=
  field_append_of_notMem _ fields name default read h

theorem targetClass_modelDump (r : RecordData K (JsonValue K)) :
    targetClass (baseFields r ++ detailFields r.details) = typeMap r.memoryType := by
  simp [targetClass, lookup_memory_type, JsonReader.memoryType, MemoryType.ofValue?_value]

section RoundTrips

variable [Field K]

attribute [local simp] field_cons field_nil items_map_str items_map_float optionalStr_optionalStr
  optionalInt_optionalInt JsonReader.str
  JsonReader.int JsonReader.bool JsonReader.float JsonReader.object JsonReader.memoryType
  Dict.ofList_entries MemoryType.ofValue?_value

/-- No class reads the fields of `BaseMemoryRecord` for its own. -/
theorem readDetails_baseFields (r : RecordData K (JsonValue K)) (fields : List (String × JsonValue K))
    (cls : RecordClass) : readDetails (baseFields r ++ fields) cls = readDetails fields cls := by
  cases cls with
  | _ => simp [readDetails, field_baseFields, baseNames]

/-- The fields of a class come back. -/
theorem readDetails_detailFields (d : Details K (JsonValue K)) :
    readDetails (detailFields d) d.recordClass = some d := by
  cases d with
  | _ => simp [readDetails, Details.recordClass, detailFields]

/-- Every subclass has a field without a default. -/
theorem readDetails_nil {cls : RecordClass} (h : cls ≠ .BaseMemoryRecord) :
    readDetails ([] : List (String × JsonValue K)) cls = none := by
  cases cls with
  | BaseMemoryRecord => exact absurd rfl h
  | _ => rfl

theorem readRecord_modelDump (drawn : Generated) (r : RecordData K (JsonValue K)) :
    readRecord drawn r.details.recordClass (baseFields r ++ detailFields r.details) = some r := by
  have hnames : (baseFields r ++ detailFields r.details).all
      (fun f => f.1 ∈ baseNames ++ r.details.recordClass.ownNames) = true := by
    rw [List.all_eq_true]
    intro f hf
    rw [← names_modelDump]
    simpa using List.mem_map_of_mem (f := Prod.fst) hf
  have hdetails : readDetails (baseFields r ++ detailFields r.details) r.details.recordClass =
      some r.details := by
    rw [readDetails_baseFields, readDetails_detailFields]
  unfold readRecord
  rw [hnames, hdetails]
  simp [baseFields]

variable [LinearOrder K]

/-- **A record of the class of its tag comes back as it was.** -/
theorem validateItem_modelDump (drawn : Generated) (r : MemoryRecord K (JsonValue K))
    (h : r.details.recordClass = typeMap r.memoryType) :
    validateItem drawn (modelDump r.toRecordData) = some r := by
  show modelValidate drawn (targetClass _) _ = some r
  unfold modelValidate
  rw [targetClass_modelDump, ← h, readRecord_modelDump]
  exact dif_pos r.valid

/-- Every subclass has a field of its own. -/
theorem exists_name {cls other : RecordClass} (h : cls ≠ .BaseMemoryRecord) (hne : cls ≠ other) :
    ∃ name ∈ cls.ownNames, name ∉ baseNames ++ other.ownNames := by
  have hall : ∀ cls ∈ RecordClass.all, ∀ other ∈ RecordClass.all, cls ≠ .BaseMemoryRecord →
      cls ≠ other → ∃ name ∈ cls.ownNames, name ∉ baseNames ++ other.ownNames := by
    decide +kernel
  exact hall cls cls.mem_all other other.mem_all h hne

/-- **Any other record does not validate**: it has a field that the class of its tag has not, or
lacks one that this class needs. -/
theorem validateItem_modelDump_of_ne (drawn : Generated) (r : MemoryRecord K (JsonValue K))
    (h : r.details.recordClass ≠ typeMap r.memoryType) :
    validateItem drawn (modelDump r.toRecordData) = none := by
  show modelValidate drawn (targetClass _) _ = none
  have hread : readRecord drawn (typeMap r.memoryType)
      (baseFields r.toRecordData ++ detailFields r.details) = none := by
    by_cases hbase : r.details.recordClass = .BaseMemoryRecord
    · have hnil : detailFields r.details = [] := by
        cases hdetails : r.details with
        | base => rfl
        | _ =>
          rw [hdetails] at hbase
          cases hbase
      have hdetails : readDetails (baseFields r.toRecordData ++ detailFields r.details)
          (typeMap r.memoryType) = none := by
        rw [readDetails_baseFields, hnil]
        exact readDetails_nil fun hcls => h (hbase.trans hcls.symm)
      unfold readRecord
      rw [hdetails]
      simp
    · obtain ⟨name, hown, hforeign⟩ := exists_name hbase h
      have hnames : (baseFields r.toRecordData ++ detailFields r.details).all
          (fun f => f.1 ∈ baseNames ++ (typeMap r.memoryType).ownNames) = false := by
        rw [List.all_eq_false]
        have hmem : name ∈ (baseFields r.toRecordData ++ detailFields r.details).map Prod.fst := by
          rw [names_modelDump]
          exact List.mem_append_right _ hown
        obtain ⟨f, hf, rfl⟩ := List.mem_map.1 hmem
        exact ⟨f, hf, by simpa using hforeign⟩
      unfold readRecord
      rw [hnames]
      rfl
  unfold modelValidate
  rw [targetClass_modelDump, hread]

end RoundTrips

/-! ## The store with its file -/

/-- The persistence file: absent, not readable as JSON, or a document. -/
inductive SnapshotFile (K : Type)
  | absent
  | corrupt
  | document (value : JsonValue K)

/-- An `InMemoryVectorStore` with its file. -/
structure PersistentStore (K : Type) [Zero K] [One K] [LE K] where
  store : InMemoryVectorStore K (JsonValue K)
  file : SnapshotFile K

section Files

variable [Field K] [LinearOrder K]

/-- `snapshot`. -/
def snapshot (s : InMemoryVectorStore K (JsonValue K)) : SnapshotFile K :=
  .document (.arr (s.records.values.map fun r => modelDump r.toRecordData))

/-- The loop of `restore` over the entries, validated or not: an exception ends it. -/
def load (s : InMemoryVectorStore K (JsonValue K)) :
    List (Option (MemoryRecord K (JsonValue K))) → InMemoryVectorStore K (JsonValue K)
  | [] => s
  | none :: _ => s
  | some r :: rest => load (s.insert r) rest

/-- The entries of a document, validated; what is drawn for an entry goes by its position. -/
def validated (drawn : ℕ → Generated) (items : List (JsonValue K)) :
    List (Option (MemoryRecord K (JsonValue K))) :=
  items.mapIdx fun i item => validateItem (drawn i) item

/-- `restore`.  A document that is no list, or an empty one, leaves the store empty. -/
def restore (drawn : ℕ → Generated) (s : InMemoryVectorStore K (JsonValue K)) :
    SnapshotFile K → InMemoryVectorStore K (JsonValue K)
  | .absent => s
  | .corrupt => s
  | .document (.arr items) => load .empty (validated drawn items)
  | .document _ => .empty

/-- A new store on a file. -/
def openStore (drawn : ℕ → Generated) (file : SnapshotFile K) : PersistentStore K :=
  ⟨restore drawn .empty file, file⟩

inductive StoreCall (K : Type) [Zero K] [One K] [LE K]
  | insert (r : MemoryRecord K (JsonValue K))
  | update (r : MemoryRecord K (JsonValue K))
  | delete (memoryId : String)
  | clear
  /-- The program starts again. -/
  | restart (drawn : ℕ → Generated)

/-- A call, which writes the file when it changed the store; `clear` writes no new file. -/
def persistentStep (p : PersistentStore K) : StoreCall K → PersistentStore K × Unit
  | .insert r => (⟨p.store.insert r, snapshot (p.store.insert r)⟩, ())
  | .update r =>
    match p.store.update r with
    | some s => (⟨s, snapshot s⟩, ())
    | none => (p, ())
  | .delete memoryId =>
    let deleted := p.store.delete memoryId
    (if deleted.2 then ⟨deleted.1, snapshot deleted.1⟩ else p, ())
  | .clear =>
    match p.file with
    | .absent => (⟨.empty, .absent⟩, ())
    | _ => (⟨.empty, snapshot .empty⟩, ())
  | .restart drawn => (openStore drawn p.file, ())

/-- No file yet. -/
def PersistentStore.init : PersistentStore K := ⟨.empty, .absent⟩

/-! ## What a file gives back -/

/-- The store after some insertions. -/
def insertAll (s : InMemoryVectorStore K (JsonValue K)) (rs : List (MemoryRecord K (JsonValue K))) :
    InMemoryVectorStore K (JsonValue K) := rs.foldl InMemoryVectorStore.insert s

/-- The record is of the class that its tag stands for. -/
def conforms (r : MemoryRecord K (JsonValue K)) : Bool :=
  r.details.recordClass = typeMap r.memoryType

theorem validated_cons (drawn : ℕ → Generated) (item : JsonValue K) (items : List (JsonValue K)) :
    validated drawn (item :: items) =
      validateItem (drawn 0) item :: validated (fun i => drawn (i + 1)) items := List.mapIdx_cons

/-- A snapshot gives back its records up to the first that is not of the class of its tag. -/
theorem load_modelDump (drawn : ℕ → Generated) (s : InMemoryVectorStore K (JsonValue K))
    (rs : List (MemoryRecord K (JsonValue K))) :
    load s (validated drawn (rs.map fun r => modelDump r.toRecordData)) =
      insertAll s (rs.takeWhile conforms) := by
  induction rs generalizing drawn s with
  | nil => rfl
  | cons r rs ih =>
    rw [List.map_cons, validated_cons]
    by_cases hclass : r.details.recordClass = typeMap r.memoryType
    · have hconforms : conforms r = true := by simpa [conforms] using hclass
      rw [validateItem_modelDump _ r hclass, load, ih, List.takeWhile_cons_of_pos hconforms]
      rfl
    · have hnot : ¬conforms r = true := by simpa [conforms] using hclass
      rw [validateItem_modelDump_of_ne _ r hclass, load, List.takeWhile_cons_of_neg hnot]
      rfl

/-- A bad entry ends the loop. -/
theorem load_bad (s : InMemoryVectorStore K (JsonValue K))
    (before : List (MemoryRecord K (JsonValue K)))
    (rest : List (Option (MemoryRecord K (JsonValue K)))) :
    load s (before.map some ++ none :: rest) = insertAll s before := by
  induction before generalizing s with
  | nil => rfl
  | cons r before ih =>
    rw [List.map_cons, List.cons_append, load, ih]
    rfl

theorem records_insertAll (s : InMemoryVectorStore K (JsonValue K))
    (rs : List (MemoryRecord K (JsonValue K))) : (insertAll s rs).records =
      (rs.map fun r => (r.memoryId, r)).foldl (fun d p => d.set p.1 p.2) s.records := by
  induction rs generalizing s with
  | nil => rfl
  | cons r rs ih => exact ih (s.insert r)

/-- The records of a store, inserted again in their order, give the store. -/
theorem insertAll_values (s : InMemoryVectorStore K (JsonValue K)) :
    insertAll .empty s.records.values = s := by
  have hentries : (s.records.values.map fun r => (r.memoryId, r)) = s.records.entries := by
    rw [Dict.values, List.map_map]
    refine (List.map_congr_left fun p hp => ?_).trans (List.map_id _)
    have hid : p.2.memoryId = p.1 := s.keyed p.1 p.2 (Dict.mem_entries_iff.1 hp)
    show (p.2.memoryId, p.2) = p
    rw [hid]
  apply InMemoryVectorStore.ext
  rw [records_insertAll, hentries]
  exact Dict.ofList_entries s.records

theorem length_insertAll_le (s : InMemoryVectorStore K (JsonValue K))
    (rs : List (MemoryRecord K (JsonValue K))) :
    (insertAll s rs).records.entries.length ≤ s.records.entries.length + rs.length := by
  induction rs generalizing s with
  | nil => exact Nat.le_refl _
  | cons r rs ih =>
    have hrest := ih (s.insert r)
    have hset : (s.insert r).records.entries.length ≤ s.records.entries.length + 1 :=
      Dict.length_set_le s.records r.memoryId r
    rw [List.length_cons]
    exact hrest.trans (by omega)

theorem mem_values_insertAll {s : InMemoryVectorStore K (JsonValue K)}
    {rs : List (MemoryRecord K (JsonValue K))} {id : String} {r : MemoryRecord K (JsonValue K)}
    (h : (insertAll s rs).records.get? id = some r) : r ∈ rs ∨ s.records.get? id = some r := by
  induction rs generalizing s with
  | nil => exact .inr h
  | cons r' rs ih =>
    rcases ih h with hmem | hget
    · exact .inl (List.mem_cons_of_mem r' hmem)
    · have hset : (s.records.set r'.memoryId r').get? id = some r := hget
      rw [Dict.get?_set] at hset
      split_ifs at hset with hid
      · exact .inl (Option.some.inj hset ▸ List.mem_cons_self ..)
      · exact .inr hset

/-! ## A restart -/

/-- Every record of the store is of the class of its tag. -/
def Conforming (s : InMemoryVectorStore K (JsonValue K)) : Prop :=
  ∀ id r, s.records.get? id = some r → r.details.recordClass = typeMap r.memoryType

theorem conforming_iff_values (s : InMemoryVectorStore K (JsonValue K)) :
    Conforming s ↔ ∀ r ∈ s.records.values, conforms r = true := by
  constructor
  · intro h r hr
    obtain ⟨⟨id, r⟩, hmem, rfl⟩ := List.mem_map.1 hr
    simpa [conforms] using h id r (Dict.mem_entries_iff.1 hmem)
  · intro h id r hget
    have hmem : r ∈ s.records.values :=
      List.mem_map.2 ⟨(id, r), Dict.mem_entries_iff.2 hget, rfl⟩
    simpa [conforms] using h r hmem

/-- A snapshot gives back the records up to the first that is not of the class of its tag. -/
theorem restore_snapshot (drawn : ℕ → Generated) (s : InMemoryVectorStore K (JsonValue K)) :
    restore drawn .empty (snapshot s) = insertAll .empty (s.records.values.takeWhile conforms) :=
  load_modelDump drawn .empty _

/-- What a snapshot gives back is conforming. -/
theorem conforming_insertAll_takeWhile (rs : List (MemoryRecord K (JsonValue K))) :
    Conforming (insertAll .empty (rs.takeWhile conforms)) := by
  intro id r hget
  rcases mem_values_insertAll hget with hmem | hempty
  · simpa [conforms] using List.mem_takeWhile_imp hmem
  · cases hempty

/-- **A snapshot gives the store back** exactly when every record is of the class of its tag. -/
theorem restore_snapshot_iff (drawn : ℕ → Generated) (s : InMemoryVectorStore K (JsonValue K)) :
    restore drawn .empty (snapshot s) = s ↔ Conforming s := by
  rw [restore_snapshot, conforming_iff_values]
  constructor
  · intro hsame
    -- If the loop ended early, there are fewer records than before.
    have hlength := length_insertAll_le (K := K) .empty (s.records.values.takeWhile conforms)
    rw [hsame] at hlength
    have hvalues : s.records.values.length = s.records.entries.length := List.length_map ..
    have hall : s.records.values.takeWhile conforms = s.records.values := by
      refine (List.takeWhile_sublist conforms).eq_of_length_le ?_
      rw [hvalues]
      exact hlength.trans (Nat.le_of_eq (Nat.zero_add _))
    exact List.takeWhile_eq_self_iff.1 hall
  · intro hall
    rw [List.takeWhile_eq_self_iff.2 hall]
    exact insertAll_values s

/-- What holds of the store and its file in every run from no file: there is none yet, or it has the
records of the store, or the store was read from it. -/
def InStep (p : PersistentStore K) : Prop :=
  p = .init ∨ p.file = snapshot p.store ∨
    (∀ drawn, restore drawn .empty p.file = p.store) ∧ Conforming p.store

theorem InStep.step {p : PersistentStore K} (h : InStep p) (c : StoreCall K) :
    InStep (persistentStep p c).1 := by
  cases c with
  | insert r => exact .inr (.inl rfl)
  | update r =>
    simp only [persistentStep]
    cases p.store.update r with
    | none => exact h
    | some s => exact .inr (.inl rfl)
  | delete memoryId =>
    simp only [persistentStep]
    split_ifs
    · exact .inr (.inl rfl)
    · exact h
  | clear =>
    simp only [persistentStep]
    cases p.file with
    | absent => exact .inl rfl
    | corrupt => exact .inr (.inl rfl)
    | document value => exact .inr (.inl rfl)
  | restart drawn =>
    rcases h with rfl | hfile | ⟨hread, hconforming⟩
    · exact .inl rfl
    · have hrestore : ∀ drawn, restore drawn .empty p.file =
          insertAll .empty (p.store.records.values.takeWhile conforms) := by
        intro drawn
        rw [hfile]
        exact restore_snapshot drawn p.store
      refine .inr (.inr ⟨fun drawn' => (hrestore drawn').trans (hrestore drawn).symm, ?_⟩)
      show Conforming (restore drawn .empty p.file)
      rw [hrestore drawn]
      exact conforming_insertAll_takeWhile _
    · refine .inr (.inr ⟨fun drawn' => (hread drawn').trans (hread drawn).symm, ?_⟩)
      show Conforming (restore drawn .empty p.file)
      rw [hread drawn]
      exact hconforming

theorem inStep_run (as : List (StoreCall K)) : InStep (Machine.run persistentStep .init as) :=
  Machine.inv_run (I := InStep) (C := fun _ _ => True) (fun _ c h _ => h.step c) (.inl rfl)
    (Machine.always_of_forall (fun _ _ => trivial) _ _)

/-- **After any run**, a new store on the file holds the same records exactly when each of them is
of the class of its tag. -/
theorem reopen_eq_iff (as : List (StoreCall K)) (drawn : ℕ → Generated) :
    let p := Machine.run persistentStep .init as
    (openStore drawn p.file).store = p.store ↔ Conforming p.store := by
  intro p
  have hstep : InStep p := inStep_run as
  show restore drawn .empty p.file = p.store ↔ _
  rcases hstep with hinit | hfile | ⟨hread, hconforming⟩
  · rw [hinit]
    refine ⟨fun _ id r hget => ?_, fun _ => rfl⟩
    cases hget
  · rw [hfile]
    exact restore_snapshot_iff drawn p.store
  · exact ⟨fun _ => hconforming, fun _ => hread drawn⟩

/-! ## A bad entry -/

theorem records_insertAll_concat (s : InMemoryVectorStore K (JsonValue K))
    (rs : List (MemoryRecord K (JsonValue K))) (r : MemoryRecord K (JsonValue K)) :
    (insertAll s (rs ++ [r])).records = (insertAll s rs).records.set r.memoryId r := by
  unfold insertAll
  rw [List.foldl_append]
  rfl

theorem get?_insertAll (s : InMemoryVectorStore K (JsonValue K))
    (rs : List (MemoryRecord K (JsonValue K))) (id : String) :
    (insertAll s rs).records.get? id =
      ((insertAll .empty rs).records.get? id).or (s.records.get? id) := by
  induction rs using List.reverseRecOn with
  | nil => rfl
  | append_singleton rs r ih =>
    rw [records_insertAll_concat, records_insertAll_concat, Dict.get?_set, Dict.get?_set, ih]
    split_ifs
    · rfl
    · rfl

theorem contains_insertAll (s : InMemoryVectorStore K (JsonValue K))
    {rs : List (MemoryRecord K (JsonValue K))} {r : MemoryRecord K (JsonValue K)} (hr : r ∈ rs) :
    ((insertAll s rs).records.get? r.memoryId).isSome = true := by
  induction rs using List.reverseRecOn with
  | nil => cases hr
  | append_singleton rs r' ih =>
    rw [records_insertAll_concat, Dict.get?_set]
    split_ifs with hid
    · rfl
    · rcases List.mem_append.1 hr with hr | hr
      · exact ih hr
      · exact absurd (congrArg (·.memoryId) (List.mem_singleton.1 hr)) hid

/-- Writing records whose ids are there leaves the order as it is. -/
theorem keys_insertAll {s : InMemoryVectorStore K (JsonValue K)}
    {rs : List (MemoryRecord K (JsonValue K))}
    (h : ∀ r ∈ rs, s.records.contains r.memoryId = true) :
    (insertAll s rs).records.keys = s.records.keys := by
  induction rs using List.reverseRecOn with
  | nil => rfl
  | append_singleton rs r ih =>
    have hrest := ih fun r' hr' => h r' (List.mem_append_left _ hr')
    have hthere : (insertAll s rs).records.contains r.memoryId = true := by
      rw [Dict.contains, get?_insertAll]
      have hr : s.records.contains r.memoryId = true := h r (by simp)
      cases (insertAll .empty rs).records.get? r.memoryId with
      | none => exact hr
      | some r' => rfl
    rw [records_insertAll_concat, Dict.keys_set_of_contains hthere, hrest]

/-- Insertions change nothing exactly when what they leave is there already. -/
theorem insertAll_eq_self_iff (s : InMemoryVectorStore K (JsonValue K))
    (rs : List (MemoryRecord K (JsonValue K))) : insertAll s rs = s ↔
      ∀ id r, (insertAll .empty rs).records.get? id = some r → s.records.get? id = some r := by
  constructor
  · intro hsame id r hget
    have hboth := get?_insertAll s rs id
    rw [hsame, hget] at hboth
    exact hboth
  · intro hthere
    apply InMemoryVectorStore.ext
    apply Dict.ext_get?
    · apply keys_insertAll
      intro r hr
      obtain ⟨r', hr'⟩ := Option.isSome_iff_exists.1 (contains_insertAll .empty hr)
      rw [Dict.contains, hthere _ r' hr']
      rfl
    · intro id
      rw [get?_insertAll]
      cases hget : (insertAll .empty rs).records.get? id with
      | none => rfl
      | some r => exact (hthere id r hget).symm

/-- The entries of a document with a bad one, and what the others say. -/
def BadEntry (drawn : ℕ → Generated) (items : List (JsonValue K))
    (before after : List (MemoryRecord K (JsonValue K))) : Prop :=
  validated drawn items = before.map some ++ none :: after.map some

/-- **A bad entry** costs no other record, or leaves the store as it was, exactly when the entries
after it only repeat what those before it left, or when that is what the store had. -/
theorem restore_bad_iff {drawn : ℕ → Generated} {items : List (JsonValue K)}
    {before after : List (MemoryRecord K (JsonValue K))} (h : BadEntry drawn items before after)
    (s : InMemoryVectorStore K (JsonValue K)) :
    let restored := restore drawn s (.document (.arr items))
    (restored = insertAll .empty (before ++ after) ∨ restored = s) ↔
      (∀ id r, (insertAll .empty after).records.get? id = some r →
        (insertAll .empty before).records.get? id = some r) ∨ insertAll .empty before = s := by
  intro restored
  have hrestored : restored = insertAll .empty before := by
    show load .empty (validated drawn items) = _
    rw [h]
    exact load_bad .empty before (after.map some)
  have hall : insertAll (K := K) .empty (before ++ after) = insertAll (insertAll .empty before) after :=
    List.foldl_append
  rw [hrestored, hall, eq_comm, insertAll_eq_self_iff]

/-- **Memory and restarts.**  After any run of the store, from no file on, a new store on the file
has the same records in the same order exactly when every record is of the class that `type_map`
has for its tag.  An entry that does not validate cuts the store off: the others are all restored,
or the store is left alone, only where nothing new comes after it, or where what comes before it is
what the store had. -/
theorem survives_restart :
    (∀ (as : List (StoreCall K)) (drawn : ℕ → Generated),
      let p := Machine.run persistentStep .init as
      (openStore drawn p.file).store = p.store ↔ Conforming p.store) ∧
    ∀ (drawn : ℕ → Generated) (items : List (JsonValue K))
      (before after : List (MemoryRecord K (JsonValue K))), BadEntry drawn items before after →
      ∀ s : InMemoryVectorStore K (JsonValue K),
        let restored := restore drawn s (.document (.arr items))
        (restored = insertAll .empty (before ++ after) ∨ restored = s) ↔
          (∀ id r, (insertAll .empty after).records.get? id = some r →
            (insertAll .empty before).records.get? id = some r) ∨ insertAll .empty before = s :=
  ⟨reopen_eq_iff, fun _ _ _ _ h s => restore_bad_iff h s⟩

end Files

/-! ## A record of the base class -/

section Example

theorem short_names : (1 ≤ "x".length ∧ "x".length ≤ 128) ∧ (1 ≤ "y".length ∧ "y".length ≤ 128) ∧
    (1 ≤ "z".length ∧ "z".length ≤ 128) := by
  decide

theorem short_time : "2025".length ≤ 64 := by decide

def reputationRecord : MemoryRecord ℚ (JsonValue ℚ) :=
  .base "x" "2025" .reputation ∅ [] short_names.1 short_time

/-- Three records of the base class, the second with the tag it has by default. -/
def threeRecords : List (StoreCall ℚ) :=
  [.insert reputationRecord,
    .insert (.base "y" "2025" .investigation ∅ [] short_names.2.1 short_time),
    .insert (.base "z" "2025" .reputation ∅ [] short_names.2.2 short_time)]

def drawnIds : ℕ → Generated := fun i => ⟨toString i, "2026"⟩

/-- A bad entry at the end costs nothing, and one record with its own tag comes back. -/
theorem survives_restart_last :
    let p := Machine.run persistentStep .init [.insert reputationRecord]
    let restored := restore drawnIds .empty
      (.document (.arr [modelDump reputationRecord.toRecordData, .null]))
    (openStore drawnIds p.file).store = p.store ∧
      (restored = insertAll .empty ([reputationRecord] ++ []) ∨ restored = .empty) := by
  intro p restored
  constructor
  · refine (survives_restart.1 [.insert reputationRecord] drawnIds).2 fun id r hget => ?_
    rcases @mem_values_insertAll ℚ _ _ .empty [reputationRecord] id r hget with hmem | hnone
    · rw [List.mem_singleton.1 hmem]
      rfl
    · cases hnone
  · refine (survives_restart.2 drawnIds [modelDump reputationRecord.toRecordData, .null]
      [reputationRecord] [] ?_ .empty).2 (.inl fun id r hget => ?_)
    · have hfirst := validateItem_modelDump (drawnIds 0) reputationRecord rfl
      rw [BadEntry, validated_cons, hfirst]
      rfl
    · cases hget

/-- The first one comes back, and the two others are lost. -/
theorem restart_loses_records :
    let p := Machine.run persistentStep .init threeRecords
    p.store.records.keys = ["x", "y", "z"] ∧
      (openStore drawnIds p.file).store.records.keys = ["x"] := by
  decide +kernel

end Example

end ScamOn.Memory
