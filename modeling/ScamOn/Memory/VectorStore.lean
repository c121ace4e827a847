import ScamOn.Lib.Cosine
import ScamOn.Lib.Ranking
import ScamOn.Lib.Rounding
import ScamOn.Memory.Models

/-!
# The in-memory vector store

`InMemoryVectorStore` keeps the records of all kinds and tenants in one dictionary under their
ids, and searches them by the cosine similarity of their vectors.

* `InMemoryVectorStore` carries the invariant that a record is under its own id; `insert`,
  `update`, `delete` and `clear` keep it.
* `similaritySearch` filters, ranks and cuts, in this order.
-/

namespace ScamOn.Memory

variable {K ν : Type*}

section Store

variable [Zero K] [One K] [LE K]

/-- The store without its file. -/
structure InMemoryVectorStore (K ν : Type*) [Zero K] [One K] [LE K] where
  records : Dict String (MemoryRecord K ν)
  /-- A record is under its own id. -/
  keyed : ∀ id r, records.get? id = some r → r.memoryId = id

namespace InMemoryVectorStore

variable (s : InMemoryVectorStore K ν)

theorem keyed_empty :
    ∀ id r, (∅ : Dict String (MemoryRecord K ν)).get? id = some r → r.memoryId = id := by
  intro id r h
  rw [Dict.get?_empty] at h
  cases h

def empty : InMemoryVectorStore K ν := ⟨∅, keyed_empty⟩

theorem ext {s t : InMemoryVectorStore K ν} (h : s.records = t.records) : s = t := by
  cases s
  cases t
  cases h
  rfl

theorem keyed_set (r : MemoryRecord K ν) :
    ∀ id r', (s.records.set r.memoryId r).get? id = some r' → r'.memoryId = id := by
  intro id r' h
  rw [Dict.get?_set] at h
  split_ifs at h with hid
  · rw [← Option.some.inj h, hid]
  · exact s.keyed id r' h

theorem keyed_erase (memoryId : String) :
    ∀ id r, (s.records.erase memoryId).get? id = some r → r.memoryId = id := by
  intro id r h
  rw [Dict.get?_erase] at h
  split_ifs at h
  exact s.keyed id r h

theorem get?_of_mem_values {r : MemoryRecord K ν} (hr : r ∈ s.records.values) :
    s.records.get? r.memoryId = some r := by
  obtain ⟨⟨id, r⟩, hmem, rfl⟩ := List.mem_map.1 hr
  have hget := Dict.mem_entries_iff.1 hmem
  rw [s.keyed id r hget]
  exact hget

def insert (r : MemoryRecord K ν) : InMemoryVectorStore K ν :=
  ⟨s.records.set r.memoryId r, s.keyed_set r⟩

/-- `update`; `none` is the `KeyError`. -/
def update (r : MemoryRecord K ν) : Option (InMemoryVectorStore K ν) :=
  if s.records.contains r.memoryId then some (s.insert r) else none

def delete (memoryId : String) : InMemoryVectorStore K ν × Bool :=
  if s.records.contains memoryId then (⟨s.records.erase memoryId, s.keyed_erase memoryId⟩, true)
  else (s, false)

/-- Deleting what is not there changes nothing, so it is one dictionary operation either way. -/
theorem delete_records (memoryId : String) :
    (s.delete memoryId).1.records = s.records.erase memoryId := by
  unfold delete
  split_ifs with h
  · rfl
  · have hnone : s.records.get? memoryId = none := by simpa [Dict.contains] using h
    exact (Dict.erase_eq_self hnone).symm

theorem delete_snd (memoryId : String) : (s.delete memoryId).2 = s.records.contains memoryId := by
  unfold delete
  cases s.records.contains memoryId with
  | true => rfl
  | false => rfl

end InMemoryVectorStore
end Store

/-! ## Search -/

section Search

variable [Field K] [LinearOrder K]

/-- The arguments of a search; no filters are an empty dictionary. -/
structure SearchArgs (K ν : Type*) where
  queryVector : List K
  topK : ℕ
  memoryType : Option MemoryType
  minConfidence : K
  metadataFilters : Dict String ν

/-- `MemorySearchResult`. -/
structure MemorySearchResult (K ν : Type*) [Field K] [LinearOrder K] where
  memoryId : String
  memoryType : MemoryType
  similarityScore : K
  record : MemoryRecord K ν
  similarityScore_range : |similarityScore| ≤ 1

/-- The type filter. -/
def typeMatches (memoryType : Option MemoryType) (t : MemoryType) : Bool :=
  match memoryType with
  | none => true
  | some t' => t = t'

/-- The metadata filters. -/
def metadataMatch [PyAny ν] (filters metadata : Dict String ν) : Bool :=
  filters.entries.all fun f => PyAny.eq (getItem metadata f.1) f.2

/-- The three filters. -/
def SearchArgs.matches [PyAny ν] (a : SearchArgs K ν) (r : MemoryRecord K ν) : Bool :=
  typeMatches a.memoryType r.memoryType && !(r.confidenceScore < a.minConfidence) &&
    metadataMatch a.metadataFilters r.metadata

/-- The similarity of a record to the query; `0` if the vectors cannot be compared. -/
def similarity (S : SquareRoot K) (queryVector vector : List K) : K :=
  if vector = [] ∨ queryVector = [] ∨ vector.length ≠ queryVector.length then 0
  else S.cosine queryVector vector

variable [IsStrictOrderedRing K]

theorem abs_similarity_le_one (S : SquareRoot K) (queryVector vector : List K) :
    |similarity S queryVector vector| ≤ 1 := by
  unfold similarity
  split_ifs
  · simp
  · exact S.abs_cosine_le_one _ _

variable [FloorRing K]

theorem abs_round_similarity_le_one (S : SquareRoot K) (queryVector vector : List K) :
    |roundDigits 4 (similarity S queryVector vector)| ≤ 1 := by
  have hsimilarity : |similarity S queryVector vector| ≤ (1 : ℕ) := by
    simpa using abs_similarity_le_one S queryVector vector
  have hround : |roundDigits 4 (similarity S queryVector vector)| ≤ (1 : ℕ) :=
    abs_roundDigits_le 1 hsimilarity
  simpa using hround

/-- The result for a record. -/
def searchResult (S : SquareRoot K) (queryVector : List K) (r : MemoryRecord K ν) :
    MemorySearchResult K ν where
  memoryId := r.memoryId
  memoryType := r.memoryType
  similarityScore := roundDigits 4 (similarity S queryVector r.vector)
  record := r
  similarityScore_range := abs_round_similarity_le_one S queryVector r.vector

theorem searchResult_injective (S : SquareRoot K) (queryVector : List K) :
    Function.Injective (searchResult (ν := ν) S queryVector) := fun _ _ h =>
  congrArg MemorySearchResult.record h

/-- The first of the given records, by descending similarity. -/
def bestResults (S : SquareRoot K) (queryVector : List K) (topK : ℕ)
    (records : List (MemoryRecord K ν)) : List (MemorySearchResult K ν) :=
  ((ranked (fun r => similarity S queryVector r.vector) records).take topK).map
    (searchResult S queryVector)

variable [PyAny ν]

/-- `similarity_search`. -/
def InMemoryVectorStore.similaritySearch (S : SquareRoot K) (s : InMemoryVectorStore K ν)
    (a : SearchArgs K ν) : List (MemorySearchResult K ν) :=
  bestResults S a.queryVector a.topK (s.records.values.filter a.matches)

end Search

end ScamOn.Memory
