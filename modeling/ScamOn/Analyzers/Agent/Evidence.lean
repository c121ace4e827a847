import Mathlib.Data.Prod.Lex
import Mathlib.Data.String.Basic
import ScamOn.Lib.FirstOccurrences
import ScamOn.Lib.Ranking
import ScamOn.Planner.Models

/-!
# Aggregated evidence

`EvidenceAggregator.aggregate` flattens what the tools found, converts the older records, keeps the
first record of each key, and sorts by severity and time.

* `Evidence` carries the limits that its validation checks; `fromToolEvidence` fails on a record that
  breaks them.
* `aggregate` is the method.
* `FirstOfEach` is what the collection is to what was aggregated.
* `aggregate_first_of_each`: it is, and aggregating it once more changes nothing.
-/

namespace ScamOn.Analyzers
namespace Agent

open Planner (Fits EvidenceSeverity)

/-! ## Evidence -/

/-- The confidence is not below 0 and not above 1. -/
def ConfidenceFits (confidence : Option PyNumber) : Prop :=
  ∀ c ∈ confidence, c.lt (.finite 0) = false ∧ PyNumber.lt (.finite 1) c = false

instance (confidence : Option PyNumber) : Decidable (ConfidenceFits confidence) :=
  inferInstanceAs (Decidable (∀ c ∈ confidence, _))

/-- `Evidence`, with metadata of any type. -/
structure Evidence (ω : Type*) where
  evidenceId : String
  evidenceType : String
  category : String
  title : String
  description : String
  severity : EvidenceSeverity
  source : String
  confidence : Option PyNumber
  recommendation : Option String
  metadata : Dict String ω
  timestamp : String
  evidenceId_fits : Fits 1 128 evidenceId
  evidenceType_fits : Fits 1 128 evidenceType
  category_fits : Fits 1 128 category
  title_fits : Fits 1 256 title
  description_fits : Fits 1 4096 description
  source_fits : Fits 1 256 source
  confidence_fits : ConfidenceFits confidence
  recommendation_fits : ∀ text ∈ recommendation, Fits 0 1024 text
  timestamp_fits : Fits 0 64 timestamp

/-- `ToolEvidence`, the older form of evidence. -/
structure ToolEvidence (ω : Type*) where
  category : String
  detail : String
  metadata : Dict String ω
  category_fits : Fits 1 128 category
  detail_fits : Fits 1 1024 detail

/-- `SEVERITY_WEIGHTS`. -/
def severityWeight : EvidenceSeverity → ℕ
  | .critical => 4
  | .high => 3
  | .medium => 2
  | .low => 1
  | .info => 0

/-! ## Conversion -/

/-- What the conversion uses of the texts and of the values in the metadata: `lower` and `title`,
`str`, and the number that an `int` or a `float` is. -/
structure Values (ω : Type*) where
  lower : String → String
  title : String → String
  str : ω → String
  number? : ω → Option PyNumber

/-- The defaults that a new record takes from the clock and the random generator. -/
structure Stamp where
  evidenceId : String
  timestamp : String
  evidenceId_fits : Fits 1 128 evidenceId
  timestamp_fits : Fits 0 64 timestamp

section Conversion

theorem fits_mono {low high high' : ℕ} {text : String} (h : Fits low high text)
    (hle : high ≤ high') : Fits low high' text :=
  ⟨h.1, h.2.trans hle⟩

variable {ω : Type*} (py : Values ω)

/-- `EvidenceSeverity(text)`. -/
def severityOf? (text : String) : Option EvidenceSeverity :=
  [.info, .low, .medium, .high, .critical].find? fun severity => severity.value = text

/-- The severity that the metadata names. -/
def metadataSeverity (metadata : Dict String ω) : EvidenceSeverity :=
  (severityOf? (py.lower (((metadata.get? "severity").map py.str).getD "info"))).getD .info

/-- The title of a category. -/
def categoryTitle (category : String) : String :=
  py.title (String.ofList (category.toList.map fun c => if c = '_' then ' ' else c))

/-- `from_tool_evidence`; `none` if the new record fails its validation. -/
def fromToolEvidence (stamp : Stamp) (tool : ToolEvidence ω) (sourceTool : String) :
    Option (Evidence ω) :=
  let title := categoryTitle py tool.category
  let confidence := (tool.metadata.get? "confidence").bind py.number?
  if h : Fits 1 256 title ∧ Fits 1 256 sourceTool ∧ ConfidenceFits confidence then
    some {
      evidenceId := stamp.evidenceId
      evidenceType := tool.category
      category := tool.category
      title := title
      description := tool.detail
      severity := metadataSeverity py tool.metadata
      source := sourceTool
      confidence := confidence
      recommendation := none
      metadata := tool.metadata
      timestamp := stamp.timestamp
      evidenceId_fits := stamp.evidenceId_fits
      evidenceType_fits := tool.category_fits
      category_fits := tool.category_fits
      title_fits := h.1
      description_fits := fits_mono tool.detail_fits (by decide)
      source_fits := h.2.1
      confidence_fits := h.2.2
      recommendation_fits := nofun
      timestamp_fits := stamp.timestamp_fits
    }
  else none

/-! ## Aggregation -/

/-- What is handed to the aggregator, nested to any depth. -/
inductive Item (ω : Type*)
  | evidence (ev : Evidence ω)
  | tool (t : ToolEvidence ω)
  | nested (items : List (Item ω))

/-- A record, of the newer or the older form. -/
abbrev Entry (ω : Type*) : Type _ := Evidence ω ⊕ ToolEvidence ω

/-- The record that an item is. -/
def Item.entry? : Item ω → Option (Entry ω)
  | .evidence ev => some (.inl ev)
  | .tool t => some (.inr t)
  | .nested _ => none

/-- The records of an item; what is nested more than once is passed over. -/
def Item.entries : Item ω → List (Entry ω)
  | .nested items => items.filterMap Item.entry?
  | .evidence ev => [.inl ev]
  | .tool t => [.inr t]

/-- `flat_list`, from the records; the older ones are converted at the instants of `stamp`. -/
def flatList (stamp : ℕ → Stamp) (defaultSource : String) :
    ℕ → List (Entry ω) → Option (List (Evidence ω))
  | _, [] => some []
  | i, .inl ev :: l => (flatList stamp defaultSource (i + 1) l).map (ev :: ·)
  | i, .inr tool :: l =>
    (fromToolEvidence py (stamp i) tool defaultSource).bind fun ev =>
      (flatList stamp defaultSource (i + 1) l).map (ev :: ·)

/-- The key of a record. -/
def Evidence.key (ev : Evidence ω) : String × String × String × String :=
  (ev.source, ev.category, ev.title, ev.description)

def Evidence.key? (ev : Evidence ω) : Option (String × String × String × String) := some ev.key

/-- What the records are sorted by. -/
def Evidence.sortKey (ev : Evidence ω) : ℕ ×ₗ String := toLex (severityWeight ev.severity, ev.timestamp)

/-- `aggregate`; `none` if a conversion fails. -/
def aggregate (stamp : ℕ → Stamp) (items : List (Item ω)) (defaultSource : String) :
    Option (List (Evidence ω)) :=
  (flatList py stamp defaultSource 0 (items.flatMap Item.entries)).map fun flat =>
    ranked Evidence.sortKey (firsts Evidence.key? [] flat)

variable {py} {stamp : ℕ → Stamp} {source : String}

/-- **A conversion fails** exactly if the new record breaks a limit. -/
theorem fromToolEvidence_eq_none_iff {at' : Stamp} {t : ToolEvidence ω} :
    fromToolEvidence py at' t source = none ↔
      ¬(Fits 1 256 (categoryTitle py t.category) ∧ Fits 1 256 source ∧
        ConfidenceFits ((t.metadata.get? "confidence").bind py.number?)) := by
  rw [fromToolEvidence]
  split_ifs with h
  · simp [h]
  · simp [h]

/-- Some record of the older form cannot be converted. -/
def Unconvertible (py : Values ω) (source : String) (l : List (Entry ω)) : Prop :=
  ∃ t : ToolEvidence ω, .inr t ∈ l ∧
    ¬(Fits 1 256 (categoryTitle py t.category) ∧ Fits 1 256 source ∧
      ConfidenceFits ((t.metadata.get? "confidence").bind py.number?))

theorem flatList_eq_none_iff {i : ℕ} {l : List (Entry ω)} :
    flatList py stamp source i l = none ↔ Unconvertible py source l := by
  induction l generalizing i with
  | nil => simp [flatList, Unconvertible]
  | cons entry l ih =>
    cases entry with
    | inl ev =>
      have hcons : Unconvertible py source (.inl ev :: l) ↔ Unconvertible py source l := by
        simp [Unconvertible]
      rw [hcons, ← ih (i := i + 1), flatList, Option.map_eq_none_iff]
    | inr t =>
      have hcons : Unconvertible py source (.inr t :: l) ↔
          fromToolEvidence py (stamp i) t source = none ∨ Unconvertible py source l := by
        rw [fromToolEvidence_eq_none_iff]
        simp [Unconvertible, or_and_right, exists_or]
      rw [hcons, ← ih (i := i + 1), flatList]
      cases fromToolEvidence py (stamp i) t source with
      | none => simp
      | some ev => simp

/-- Newer records are taken over as they are. -/
theorem flatList_inl (i : ℕ) (l : List (Evidence ω)) :
    flatList py stamp source i (l.map .inl) = some l := by
  induction l generalizing i with
  | nil => rfl
  | cons ev l ih => rw [List.map_cons, flatList, ih, Option.map_some]

theorem flatMap_entries_evidence (l : List (Evidence ω)) :
    (l.map Item.evidence).flatMap Item.entries = l.map .inl := by
  induction l with
  | nil => rfl
  | cons ev l ih => rw [List.map_cons, List.flatMap_cons, ih, List.map_cons, Item.entries, List.singleton_append]

/-! ## What the collection is -/

/-- **The first record of each key, sorted by severity.** -/
structure FirstOfEach (flat out : List (Evidence ω)) : Prop where
  sorted : out.Pairwise fun ev ev' => severityWeight ev'.severity ≤ severityWeight ev.severity
  once : (out.map Evidence.key).Nodup
  keys : ∀ k, k ∈ out.map Evidence.key ↔ k ∈ flat.map Evidence.key
  first : ∀ ev ∈ out, flat.find? (fun ev' => ev'.key = ev.key) = some ev

theorem nodup_keys_ranked (flat : List (Evidence ω)) :
    ((ranked Evidence.sortKey (firsts Evidence.key? [] flat)).map Evidence.key).Nodup := by
  have hfirsts : ((firsts Evidence.key? [] flat).filterMap Evidence.key?).Nodup :=
    nodup_keys_firsts [] flat
  have hmap : (firsts Evidence.key? [] flat).filterMap Evidence.key? =
      (firsts Evidence.key? [] flat).map Evidence.key := congrFun List.filterMap_eq_map _
  rw [hmap] at hfirsts
  exact ((ranked_perm _ _).map _).nodup_iff.2 hfirsts

/-- A collection is as it would be aggregated. -/
theorem ranked_firsts_self {out : List (Evidence ω)}
    (hsorted : out.Pairwise fun ev ev' => ev'.sortKey ≤ ev.sortKey)
    (honce : (out.map Evidence.key).Nodup) :
    ranked Evidence.sortKey (firsts Evidence.key? [] out) = out := by
  have hmap : out.filterMap Evidence.key? = out.map Evidence.key :=
    congrFun List.filterMap_eq_map _
  rw [firsts_eq_self (hmap ▸ honce) fun _ _ => List.not_mem_nil]
  exact hsorted.insertionSort_eq

theorem firstOfEach (flat : List (Evidence ω)) :
    FirstOfEach flat (ranked Evidence.sortKey (firsts Evidence.key? [] flat)) where
  sorted := by
    refine (pairwise_ranked Evidence.sortKey _).imp fun {ev ev'} h => ?_
    exact Prod.Lex.monotone_fst _ _ h
  once := nodup_keys_ranked flat
  keys k := by
    simp only [List.mem_map, mem_ranked]
    constructor
    · rintro ⟨ev, hev, rfl⟩
      exact ⟨ev, mem_of_mem_firsts hev, rfl⟩
    · rintro ⟨ev, hev, rfl⟩
      have hkey : ev.key? = some ev.key := rfl
      obtain ⟨first, hfirst, hsame⟩ := exists_mem_firsts hev hkey List.not_mem_nil
      exact ⟨first, hfirst, Option.some.inj hsame⟩
  first ev hev := by
    have hkey : ev.key? = some ev.key := rfl
    have hfind := find?_of_mem_firsts ((mem_ranked _).1 hev) hkey
    simpa only [Evidence.key?, Option.some.injEq] using hfind

/-- **Aggregation**: it fails exactly if some older record cannot be converted; otherwise the
collection holds the first record of each key, sorted by severity, and aggregating it once more, at
any later instants and for any source, changes nothing. -/
theorem aggregate_first_of_each (py : Values ω) (stamp : ℕ → Stamp) (items : List (Item ω))
    (source : String) :
    (aggregate py stamp items source = none ↔
      Unconvertible py source (items.flatMap Item.entries)) ∧
      ∀ out, aggregate py stamp items source = some out →
        (∃ flat, flatList py stamp source 0 (items.flatMap Item.entries) = some flat ∧
          FirstOfEach flat out) ∧
        ∀ stamp' source', aggregate py stamp' (out.map .evidence) source' = some out := by
  rw [aggregate, Option.map_eq_none_iff, flatList_eq_none_iff]
  refine ⟨Iff.rfl, fun out hout => ?_⟩
  obtain ⟨flat, hflat, rfl⟩ := Option.map_eq_some_iff.1 hout
  refine ⟨⟨flat, hflat, firstOfEach flat⟩, fun stamp' source' => ?_⟩
  rw [aggregate, flatMap_entries_evidence, flatList_inl, Option.map_some,
    ranked_firsts_self (pairwise_ranked _ _) (nodup_keys_ranked flat)]

end Conversion

/-! ## The first record, not the worst -/

/-- A record of a severity; all have the same key. -/
def report (severity : EvidenceSeverity) (timestamp : String) (h : Fits 0 64 timestamp) :
    Evidence ℚ where
  evidenceId := "ev_0"
  evidenceType := "general"
  category := "general"
  title := "Typosquat Domain"
  description := "Domain mimics popular brand"
  severity := severity
  source := "url_tool"
  confidence := none
  recommendation := none
  metadata := ∅
  timestamp := timestamp
  evidenceId_fits := by decide
  evidenceType_fits := by decide
  category_fits := by decide
  title_fits := by decide
  description_fits := by decide
  source_fits := by decide
  confidence_fits := nofun
  recommendation_fits := nofun
  timestamp_fits := h

/-- A record of low and one of critical severity. -/
def lowReport : Evidence ℚ := report .low "2026-01-01T00:00:00+00:00" (by decide)

def criticalReport : Evidence ℚ := report .critical "2026-01-01T00:00:01+00:00" (by decide)

/-- A record of the older form, whose confidence is 2. -/
def overconfident : ToolEvidence ℚ where
  category := "url"
  detail := "Domain mimics popular brand"
  metadata := (∅ : Dict String ℚ).set "confidence" 2
  category_fits := by decide
  detail_fits := by decide

/-- Metadata of numbers, and categories without upper and lower case. -/
def sampleValues : Values ℚ := ⟨id, id, fun _ => "0", fun q => some (.finite q)⟩

/-- The defaults of a moment. -/
def sampleStamp : Stamp := ⟨"ev_1", "2026-01-01T00:00:02+00:00", by decide, by decide⟩

/-- The critical record is dropped for the one before it, which has the same key; a record that is
nested twice is passed over; and a confidence of 2 makes the aggregation fail. -/
theorem aggregate_drops_critical :
    (aggregate sampleValues (fun _ => sampleStamp)
        [.evidence lowReport, .evidence criticalReport] "agent" = some [lowReport] ∧
      criticalReport.key = lowReport.key ∧
      severityWeight lowReport.severity < severityWeight criticalReport.severity) ∧
      aggregate sampleValues (fun _ => sampleStamp) [.nested [.nested [.evidence lowReport]]]
        "agent" = some [] ∧
      aggregate sampleValues (fun _ => sampleStamp) [.tool overconfident] "agent" = none := by
  have hkey : criticalReport.key = lowReport.key := by
    simp only [Evidence.key, criticalReport, lowReport, report]
  have hlow : lowReport.key? = some lowReport.key := rfl
  have hcritical : criticalReport.key? = some lowReport.key := congrArg some hkey
  have hitems : [Item.evidence lowReport, .evidence criticalReport].flatMap Item.entries =
      [lowReport, criticalReport].map .inl := flatMap_entries_evidence [lowReport, criticalReport]
  have htool : Unconvertible sampleValues "agent" ([.tool overconfident].flatMap Item.entries) :=
    ⟨overconfident, List.mem_cons_self, by decide +kernel⟩
  refine ⟨⟨?_, hkey, by decide⟩, rfl, ?_⟩
  · rw [aggregate, hitems, flatList_inl, Option.map_some,
      firsts_cons_of_notMem hlow List.not_mem_nil, firsts_cons_of_mem hcritical List.mem_cons_self]
    rfl
  · rw [aggregate, Option.map_eq_none_iff]
    exact flatList_eq_none_iff.2 htool

end Agent
end ScamOn.Analyzers
