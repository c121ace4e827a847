import ScamOn.Memory.VectorStore

/-!
# Memory retrieval

`MemoryRetrievalService.query` searches the store and then drops the results outside the time
range of the query.

* `query` is the source; `Embedder` is the provider that turns a text into a vector.
* `queryInRange` says what it is for: the best of the matching records within the range.
* `query_eq_queryInRange_iff`: the two agree unless a record out of range takes one of the first
  `top_k` places from a record within it.
-/

namespace ScamOn.Memory

variable {K ν : Type*} [Field K] [LinearOrder K]

/-- `IEmbeddingProvider`. -/
structure Embedder (K : Type*) where
  embedText : String → List K
  dimension : ℕ

/-- `MemoryQuery`, with the checks of the model. -/
structure MemoryQuery (K ν : Type*) [Field K] [LinearOrder K] where
  queryText : Option String
  queryVector : Option (List K)
  memoryType : Option MemoryType
  topK : ℕ
  minConfidence : K
  metadataFilters : Dict String ν
  timeRangeStart : Option String
  timeRangeEnd : Option String
  queryText_le : ShortText 1024 queryText
  topK_range : 1 ≤ topK ∧ topK ≤ 100
  minConfidence_range : 0 ≤ minConfidence ∧ minConfidence ≤ 1
  timeRangeStart_le : ShortText 64 timeRangeStart
  timeRangeEnd_le : ShortText 64 timeRangeEnd

namespace MemoryQuery

variable (q : MemoryQuery K ν)

/-- The vector to search for: the one given, or that of the text, or zero. -/
def vector (e : Embedder K) : List K :=
  let given := q.queryVector.getD []
  let queryVec := if given = [] ∧ q.queryText.getD "" ≠ "" then e.embedText (q.queryText.getD "") else given
  if queryVec = [] then List.replicate e.dimension 0 else queryVec

def searchArgs (e : Embedder K) : SearchArgs K ν :=
  ⟨q.vector e, q.topK, q.memoryType, q.minConfidence, q.metadataFilters⟩

/-- Whether a bound is given, and the time violates it; an empty text is no bound. -/
def violates (bound : Option String) (violated : String → Bool) : Bool :=
  match bound with
  | none => false
  | some b => b ≠ "" && violated b

/-- The time range filter. -/
def inRange (createdAt : String) : Bool :=
  !violates q.timeRangeStart (fun start => createdAt < start) &&
    !violates q.timeRangeEnd (fun stop => stop < createdAt)

/-- Whether there is a time range. -/
def hasRange : Bool := q.timeRangeStart.getD "" ≠ "" || q.timeRangeEnd.getD "" ≠ ""

theorem inRange_of_not_hasRange (h : q.hasRange = false) (createdAt : String) :
    q.inRange createdAt = true := by
  have hnone : ∀ bound : Option String, bound.getD "" = "" → ∀ violated,
      violates bound violated = false := by
    intro bound hbound violated
    cases bound with
    | none => rfl
    | some b =>
      have hb : b = "" := hbound
      simp [violates, hb]
  unfold hasRange at h
  rw [Bool.or_eq_false_iff, decide_eq_false_iff_not, decide_eq_false_iff_not, not_not, not_not] at h
  simp [inRange, hnone _ h.1, hnone _ h.2]

end MemoryQuery

variable [IsStrictOrderedRing K] [FloorRing K] [PyAny ν] (S : SquareRoot K) (e : Embedder K)
  (s : InMemoryVectorStore K ν) (q : MemoryQuery K ν)

/-- `query`. -/
def query : List (MemorySearchResult K ν) :=
  let results := s.similaritySearch S (q.searchArgs e)
  if q.hasRange then results.filter fun res => q.inRange res.record.createdAt else results

/-- The records that match the type, confidence and metadata filters, best first. -/
def matching : List (MemoryRecord K ν) :=
  ranked (fun r => similarity S (q.vector e) r.vector)
    (s.records.values.filter (q.searchArgs e).matches)

/-- What a query is for: the best of the records that match all filters and the time range. -/
def queryInRange : List (MemorySearchResult K ν) :=
  bestResults S (q.vector e) q.topK
    (s.records.values.filter fun r => (q.searchArgs e).matches r && q.inRange r.createdAt)

/-- The range is applied to the first `top_k` matches. -/
theorem query_eq : query S e s q =
    (((matching S e s q).take q.topK).filter fun r => q.inRange r.createdAt).map
      (searchResult S (q.vector e)) := by
  have hsearch : s.similaritySearch S (q.searchArgs e) =
      ((matching S e s q).take q.topK).map (searchResult S (q.vector e)) := rfl
  unfold query
  simp only [hsearch]
  split_ifs with hrange
  · rw [List.filter_map]
    rfl
  · have hall : ∀ r ∈ (matching S e s q).take q.topK, q.inRange r.createdAt = true := fun r _ =>
      q.inRange_of_not_hasRange (by simpa using hrange) r.createdAt
    rw [List.filter_eq_self.2 hall]

theorem queryInRange_eq : queryInRange S e s q =
    (((matching S e s q).filter fun r => q.inRange r.createdAt).take q.topK).map
      (searchResult S (q.vector e)) := by
  unfold queryInRange bestResults matching
  rw [ranked_filter, List.filter_filter]
  simp only [Bool.and_comm]

/-- **Time ranges.**  A query returns the best of the matching records in its time range exactly
when all of its `top_k` best matches are in the range, or none of the others is. -/
theorem query_eq_queryInRange_iff : query S e s q = queryInRange S e s q ↔
    (∀ r ∈ (matching S e s q).take q.topK, q.inRange r.createdAt = true) ∨
      ∀ r ∈ (matching S e s q).drop q.topK, ¬q.inRange r.createdAt = true := by
  rw [query_eq, queryInRange_eq, (List.map_injective_iff.2 (searchResult_injective S _)).eq_iff]
  exact filter_take_eq_iff _ _ _

/-! ## A record out of range in the first place -/

theorem short_old : 1 ≤ "old".length ∧ "old".length ≤ 128 := by decide

theorem short_new : 1 ≤ "new".length ∧ "new".length ≤ 128 := by decide

theorem short_date : "2024-01-01".length ≤ 64 ∧ "2025-01-01".length ≤ 64 := by decide

/-- The older one is in the direction of the query, the newer one across it. -/
def twoRecords : InMemoryVectorStore ℚ (JsonValue ℚ) :=
  (InMemoryVectorStore.empty.insert
    (.base "old" "2024-01-01" .threat ∅ [1, 0] short_old short_date.1)).insert
    (.base "new" "2025-01-01" .threat ∅ [0, 1] short_new short_date.2)

theorem one_range : 1 ≤ 1 ∧ 1 ≤ 100 := by decide

theorem zero_range : (0 : ℚ) ≤ 0 ∧ (0 : ℚ) ≤ 1 := by decide

/-- The best match since 2025. -/
def bestSince2025 : MemoryQuery ℚ (JsonValue ℚ) where
  queryText := none
  queryVector := some [1, 0]
  memoryType := none
  topK := 1
  minConfidence := 0
  metadataFilters := ∅
  timeRangeStart := some "2025-01-01"
  timeRangeEnd := none
  queryText_le := trivial
  topK_range := one_range
  minConfidence_range := zero_range
  timeRangeStart_le := short_date.2
  timeRangeEnd_le := trivial

theorem two_range : 1 ≤ 2 ∧ 2 ≤ 100 := by decide

/-- The two best matches since 2025. -/
def bestTwoSince2025 : MemoryQuery ℚ (JsonValue ℚ) :=
  { bestSince2025 with topK := 2, topK_range := two_range }

/-- With two places no record in the range is lost. -/
theorem query_two_eq :
    query SquareRoot.rational ⟨fun _ => [], 2⟩ twoRecords bestTwoSince2025 =
      queryInRange SquareRoot.rational ⟨fun _ => [], 2⟩ twoRecords bestTwoSince2025 := by
  refine (query_eq_queryInRange_iff SquareRoot.rational ⟨fun _ => [], 2⟩ twoRecords
    bestTwoSince2025).2 (.inr ?_)
  have hlength : (matching SquareRoot.rational ⟨fun _ => [], 2⟩ twoRecords
      bestTwoSince2025).length ≤ bestTwoSince2025.topK := by decide +kernel
  intro r hr
  rw [List.drop_of_length_le hlength] at hr
  cases hr

/-- There is a record in the range, and the query finds none. -/
theorem query_finds_nothing :
    (query SquareRoot.rational ⟨fun _ => [], 2⟩ twoRecords bestSince2025).map (·.memoryId) = [] ∧
    (queryInRange SquareRoot.rational ⟨fun _ => [], 2⟩ twoRecords bestSince2025).map (·.memoryId) =
      ["new"] := by
  decide +kernel

end ScamOn.Memory
