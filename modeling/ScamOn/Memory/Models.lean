import Mathlib.Algebra.Order.Field.Basic
import ScamOn.Lib.Dict
import ScamOn.Lib.JsonValue

/-!
# Memory records

The records of the memory store: the common fields of `BaseMemoryRecord`, and those of its eight
subclasses.  Their numbers are in an ordered field `K`, and their metadata hold values of any
type `ν`.

* `RecordData` is what a record says, and `RecordData.Valid` what the models check of it.
* `MemoryRecord` is a record: data that passed the checks.
* `RecordClass` are the classes, and `MemoryType` the tag, which a record carries besides.
-/

namespace ScamOn.Memory

/-- What the program asks of a value of type `Any`: `None` is one of them, and they can be
compared. -/
class PyAny (ν : Type*) where
  none : ν
  eq : ν → ν → Bool

instance {K : Type*} [IntCast K] [DecidableEq K] : PyAny (JsonValue K) := ⟨.null, JsonValue.eq⟩

/-- `metadata.get(key)`. -/
def getItem {ν : Type*} [PyAny ν] (metadata : Dict String ν) (key : String) : ν :=
  (metadata.get? key).getD PyAny.none

/-! ## The tag -/

inductive MemoryType
  | investigation
  | evidence
  | threat
  | reputation
  | sender
  | url
  | attachment
  | pattern
  | case
  deriving DecidableEq

namespace MemoryType

def value : MemoryType → String
  | investigation => "investigation"
  | evidence => "evidence"
  | threat => "threat"
  | reputation => "reputation"
  | sender => "sender"
  | url => "url"
  | attachment => "attachment"
  | pattern => "pattern"
  | case => "case"

def all : List MemoryType :=
  [investigation, evidence, threat, reputation, sender, url, attachment, pattern, case]

/-- `MemoryType(value)`; `none` is the `ValueError`. -/
def ofValue? (value : String) : Option MemoryType := all.find? fun t => t.value = value

theorem ofValue?_value (t : MemoryType) : ofValue? t.value = some t := by
  cases t with
  | _ => decide

end MemoryType

/-! ## The classes -/

inductive RecordClass
  | BaseMemoryRecord
  | InvestigationMemory
  | EvidenceMemory
  | ThreatMemory
  | SenderMemory
  | URLMemory
  | AttachmentMemory
  | PatternMemory
  | CaseMemory
  deriving DecidableEq

namespace RecordClass

def all : List RecordClass :=
  [BaseMemoryRecord, InvestigationMemory, EvidenceMemory, ThreatMemory, SenderMemory, URLMemory,
    AttachmentMemory, PatternMemory, CaseMemory]

theorem mem_all (cls : RecordClass) : cls ∈ all := by
  cases cls with
  | _ => decide

end RecordClass

/-- The fields that a class adds to those of `BaseMemoryRecord`. -/
inductive Details (K ν : Type*)
  | base
  | investigation (emailId subject sender classification riskLevel : String)
      (executedTools : List String) (summary : String)
  | evidence (evidenceId category title description severity sourceTool : String)
  | threat (threatType indicator description : String) (associatedCampaign : Option String)
  | sender (senderEmail domain : String) (reputationScore : K) (incidentCount : ℤ)
      (isKnownSpoof : Bool)
  | url (url domain : String) (isShortened isMalicious : Bool) (threatCategory : Option String)
  | attachment (filename extension : String) (fileHash : Option String) (isMalicious : Bool)
      (signature : Option String)
  | pattern (patternName : String) (patternRules : Dict String ν) (weight : K) (occurrenceCount : ℤ)
  | case (caseId title : String) (investigationIds : List String) (verdict : String)

/-- The fields of a record. -/
structure RecordData (K ν : Type*) where
  memoryId : String
  memoryType : MemoryType
  createdAt : String
  updatedAt : String
  ttlSeconds : Option ℤ
  confidenceScore : K
  metadata : Dict String ν
  vector : List K
  details : Details K ν

variable {K ν : Type*}

def Details.recordClass : Details K ν → RecordClass
  | .base => .BaseMemoryRecord
  | .investigation .. => .InvestigationMemory
  | .evidence .. => .EvidenceMemory
  | .threat .. => .ThreatMemory
  | .sender .. => .SenderMemory
  | .url .. => .URLMemory
  | .attachment .. => .AttachmentMemory
  | .pattern .. => .PatternMemory
  | .case .. => .CaseMemory

/-! ## The checks -/

/-- `max_length`, of a text that may be missing. -/
def ShortText (maxLength : ℕ) : Option String → Prop
  | none => True
  | some s => s.length ≤ maxLength

instance (maxLength : ℕ) : ∀ s, Decidable (ShortText maxLength s)
  | none => inferInstanceAs (Decidable True)
  | some s => inferInstanceAs (Decidable (s.length ≤ maxLength))

section Checks

variable [Zero K] [One K] [LE K]

/-- The checks of the fields that a class adds. -/
def Details.Valid : Details K ν → Prop
  | .base => True
  | .investigation emailId subject from_ classification riskLevel _ summary =>
    emailId.length ≤ 256 ∧ subject.length ≤ 998 ∧ from_.length ≤ 320 ∧
      classification.length ≤ 128 ∧ riskLevel.length ≤ 64 ∧ summary.length ≤ 4096
  | .evidence evidenceId category title description severity sourceTool =>
    evidenceId.length ≤ 128 ∧ category.length ≤ 128 ∧ title.length ≤ 256 ∧
      description.length ≤ 4096 ∧ severity.length ≤ 64 ∧ sourceTool.length ≤ 128
  | .threat threatType indicator description associatedCampaign =>
    threatType.length ≤ 128 ∧ indicator.length ≤ 512 ∧ description.length ≤ 2048 ∧
      ShortText 256 associatedCampaign
  | .sender senderEmail domain reputationScore incidentCount _ =>
    senderEmail.length ≤ 320 ∧ domain.length ≤ 256 ∧ 0 ≤ reputationScore ∧ reputationScore ≤ 1 ∧
      0 ≤ incidentCount
  | .url address domain _ _ threatCategory =>
    address.length ≤ 2048 ∧ domain.length ≤ 256 ∧ ShortText 128 threatCategory
  | .attachment filename extension fileHash _ signature =>
    filename.length ≤ 255 ∧ extension.length ≤ 64 ∧ ShortText 128 fileHash ∧
      ShortText 256 signature
  | .pattern patternName _ weight occurrenceCount =>
    patternName.length ≤ 128 ∧ 0 ≤ weight ∧ 1 ≤ occurrenceCount
  | .case caseId title _ verdict =>
    caseId.length ≤ 128 ∧ title.length ≤ 256 ∧ verdict.length ≤ 128

/-- The checks of the models. -/
structure RecordData.Valid (r : RecordData K ν) : Prop where
  memoryId_pos : 1 ≤ r.memoryId.length
  memoryId_le : r.memoryId.length ≤ 128
  createdAt_le : r.createdAt.length ≤ 64
  updatedAt_le : r.updatedAt.length ≤ 64
  ttlSeconds_pos : ∀ n, r.ttlSeconds = some n → 1 ≤ n
  confidenceScore_nonneg : 0 ≤ r.confidenceScore
  confidenceScore_le : r.confidenceScore ≤ 1
  details_valid : r.details.Valid

instance [DecidableLE K] (d : Details K ν) : Decidable d.Valid := by
  cases d with
  | _ =>
    dsimp only [Details.Valid]
    infer_instance

/-- The checks, one after the other. -/
theorem RecordData.valid_iff (r : RecordData K ν) : r.Valid ↔
    1 ≤ r.memoryId.length ∧ r.memoryId.length ≤ 128 ∧ r.createdAt.length ≤ 64 ∧
      r.updatedAt.length ≤ 64 ∧ (∀ n ∈ r.ttlSeconds, 1 ≤ n) ∧ 0 ≤ r.confidenceScore ∧
      r.confidenceScore ≤ 1 ∧ r.details.Valid :=
  ⟨fun ⟨h1, h2, h3, h4, h5, h6, h7, h8⟩ => ⟨h1, h2, h3, h4, h5, h6, h7, h8⟩,
    fun ⟨h1, h2, h3, h4, h5, h6, h7, h8⟩ => ⟨h1, h2, h3, h4, h5, h6, h7, h8⟩⟩

instance [DecidableLE K] (r : RecordData K ν) : Decidable r.Valid :=
  decidable_of_iff' _ r.valid_iff

/-- A record: data that passed the checks of its class. -/
structure MemoryRecord (K ν : Type*) [Zero K] [One K] [LE K] extends RecordData K ν where
  valid : toRecordData.Valid

/-- `BaseMemoryRecord(...)` with these fields, and the others as they are by default. -/
def RecordData.base (memoryId createdAt : String) (memoryType : MemoryType)
    (metadata : Dict String ν) (vector : List K) : RecordData K ν where
  memoryId := memoryId
  memoryType := memoryType
  createdAt := createdAt
  updatedAt := createdAt
  ttlSeconds := none
  confidenceScore := 1
  metadata := metadata
  vector := vector
  details := .base

theorem MemoryRecord.ext {r s : MemoryRecord K ν} (h : r.toRecordData = s.toRecordData) : r = s := by
  cases r
  cases s
  cases h
  rfl

end Checks

section Defaults

variable [Semiring K] [PartialOrder K] [IsStrictOrderedRing K]

/-- The defaults pass the checks. -/
theorem RecordData.base_valid {memoryId createdAt : String} (memoryType : MemoryType)
    (metadata : Dict String ν) (vector : List K)
    (hid : 1 ≤ memoryId.length ∧ memoryId.length ≤ 128) (hcreated : createdAt.length ≤ 64) :
    (RecordData.base memoryId createdAt memoryType metadata vector).Valid where
  memoryId_pos := hid.1
  memoryId_le := hid.2
  createdAt_le := hcreated
  updatedAt_le := hcreated
  ttlSeconds_pos := nofun
  confidenceScore_nonneg := zero_le_one
  confidenceScore_le := le_refl 1
  details_valid := trivial

/-- The record with these fields, where they pass the checks. -/
def MemoryRecord.base (memoryId createdAt : String) (memoryType : MemoryType)
    (metadata : Dict String ν) (vector : List K)
    (hid : 1 ≤ memoryId.length ∧ memoryId.length ≤ 128) (hcreated : createdAt.length ≤ 64) :
    MemoryRecord K ν :=
  ⟨.base memoryId createdAt memoryType metadata vector,
    RecordData.base_valid memoryType metadata vector hid hcreated⟩

end Defaults

end ScamOn.Memory
