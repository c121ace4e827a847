import ScamOn.Lib.PyValue
import ScamOn.Memory.Rag.ContextBuilder
import ScamOn.Memory.Rag.Sanitizer
import ScamOn.Memory.VectorStore

/-!
# Semantic incident retrieval

`SemanticIncidentRAGEngine.retrieve` finds the incidents of a tenant that are like a query,
sanitizes what they say and puts them into a context block.

* `retrieveRawMatches` is the retriever: the search, the threshold, one result for each
  identifier, and the best of them.
* `contextOf` makes the context of a result: everything but the identifier is escaped, or is text
  of the program itself.
* `retrieve_contained_iff`: the block is contained exactly if the incidents in it have no angle
  bracket in their identifiers and the comment of the cut fits.
-/

namespace ScamOn.Memory
namespace Rag

/-- The settings of the engine. -/
structure RagSettings (K : Type*) [Zero K] [One K] [LE K] where
  ragEnabled : Bool
  ragTopK : ℕ
  ragSimilarityThreshold : K
  ragMaxContextChars : ℕ
  ragMaxIncidentChars : ℕ
  ragTopK_pos : 0 < ragTopK
  ragSimilarityThreshold_mem : 0 ≤ ragSimilarityThreshold ∧ ragSimilarityThreshold ≤ 1
  ragMaxContextChars_pos : 0 < ragMaxContextChars
  ragMaxIncidentChars_pos : 0 < ragMaxIncidentChars

/-- What the engine uses besides its own code. -/
structure RagEnv (K : Type*) where
  /-- `\w`. -/
  isWord : Char → Bool
  /-- `str`, of a value that is no text. -/
  str : JsonValue K → String
  sha256 : String → String
  /-- `embed_text`; `none` if it raises. -/
  embedText : String → Option (List K)
  embedderDegraded : Bool
  storeDegraded : Bool
  /-- The text of pydantic's error for a score. -/
  report : K → String

section Engine

variable {K : Type*} [Field K] [LinearOrder K]

/-- `IVectorStore.similarity_search`; `none` if it raises. -/
abbrev Searcher (K : Type*) [Field K] [LinearOrder K] : Type _ :=
  SearchArgs K (JsonValue K) → Option (List (MemorySearchResult K (JsonValue K)))

/-! ## The retriever -/

/-- `res.memory_id or res.record.memory_id`. -/
def idOf (res : MemorySearchResult K (JsonValue K)) : String :=
  if res.memoryId = "" then res.record.memoryId else res.memoryId

/-- One turn of the loop that applies the threshold and removes duplicates. -/
def dedupe (threshold : K) (deduped : Dict String (MemorySearchResult K (JsonValue K)))
    (res : MemorySearchResult K (JsonValue K)) : Dict String (MemorySearchResult K (JsonValue K)) :=
  if res.similarityScore < threshold then deduped
  else
    match deduped.get? (idOf res) with
    | none => deduped.set (idOf res) res
    | some old =>
      if old.similarityScore < res.similarityScore then deduped.set (idOf res) res else deduped

/-- `retrieve_raw_matches`. -/
def retrieveRawMatches (embedText : String → Option (List K)) (search : Searcher K)
    (tenantId query : String) (topK : ℕ) (threshold : K) :
    List (MemorySearchResult K (JsonValue K)) :=
  let canonQuery := Text.strip query
  if canonQuery = "" then []
  else
    match embedText canonQuery with
    | none => []
    | some queryVector =>
      match search ⟨queryVector, topK * 2, none, 0, Dict.empty.set "tenant_id" (.str tenantId)⟩ with
      | none => []
      | some results =>
        (ranked (·.similarityScore) (results.foldl (dedupe threshold) ∅).values).take topK

/-! ## The contexts -/

/-- `RetrievedIncidentContext`. -/
structure RetrievedIncidentContext (K : Type*) [Zero K] [One K] [LE K] where
  memoryId : String
  memoryType : String
  similarityScore : K
  sanitizedSummary : Str
  injectionDetected : Bool
  detectedInjectionPatterns : List String
  sourceReference : String
  metadata : Dict String (JsonValue K)
  similarityScore_mem : 0 ≤ similarityScore ∧ similarityScore ≤ 1

/-- What the builder reads of a context. -/
def RetrievedIncidentContext.incident (ctx : RetrievedIncidentContext K) : Incident K where
  memoryId := ctx.memoryId.toList
  similarityScore := ctx.similarityScore
  memoryType := ctx.memoryType.toList
  injectionDetected := ctx.injectionDetected
  sanitizedSummary := ctx.sanitizedSummary

variable (env : RagEnv K) (settings : RagSettings K)

/-- `str(raw_summary)`. -/
def rawSummary (metadata : Dict String (JsonValue K)) : String :=
  let subject := getItem metadata "subject"
  let summary := getItem metadata "summary"
  let raw :=
    if subject.truthy then some subject else if summary.truthy then some summary else none
  match raw with
  | none => env.str (.obj metadata.entries)
  | some (.str s) => s
  | some v => env.str v

/-- What the builder reads of the context of a result. -/
def incidentOf (res : MemorySearchResult K (JsonValue K)) : Incident K where
  memoryId := (idOf res).toList
  similarityScore := res.similarityScore
  memoryType := res.memoryType.value.toList
  injectionDetected := (inspectText env.isWord (rawSummary env res.record.metadata).toList).1
  sanitizedSummary := sanitize env.isWord (rawSummary env res.record.metadata).toList
    settings.ragMaxIncidentChars

/-- The context of a result.  The model of the context refuses a negative score. -/
def contextOf (res : MemorySearchResult K (JsonValue K)) :
    Except PyException (RetrievedIncidentContext K) :=
  if h : 0 ≤ res.similarityScore ∧ res.similarityScore ≤ 1 then
    let summary := (rawSummary env res.record.metadata).toList
    let inspected := inspectText env.isWord summary
    .ok {
      memoryId := idOf res
      memoryType := res.memoryType.value
      similarityScore := res.similarityScore
      sanitizedSummary := sanitize env.isWord summary settings.ragMaxIncidentChars
      injectionDetected := inspected.1
      detectedInjectionPatterns := inspected.2
      sourceReference := "investigation_" ++ String.ofList (res.record.memoryId.toList.take 8)
      metadata := res.record.metadata.filter fun p =>
        !(["raw_email", "headers", "password", "token", "api_key"].contains p.1)
      similarityScore_mem := h
    }
  else .error ⟨"ValidationError", env.report res.similarityScore⟩

/-- The loop over the results. -/
def contextsOf : List (MemorySearchResult K (JsonValue K)) →
    Except PyException (List (RetrievedIncidentContext K))
  | [] => .ok []
  | res :: results =>
    match contextOf env settings res with
    | .error e => .error e
    | .ok ctx => (contextsOf results).map (ctx :: ·)

/-! ## The engine -/

/-- `RAGRetrievalStatus`. -/
inductive RagRetrievalStatus
  | connected | degradedEmbedding | degradedStorage | empty | error
  deriving DecidableEq

/-- `RAGResult`, without the time. -/
structure RagResult (K : Type*) [Zero K] [One K] [LE K] where
  tenantId : String
  queryHash : String
  retrievedIncidents : List (RetrievedIncidentContext K)
  resultCount : ℕ
  retrievalStatus : RagRetrievalStatus
  degraded : Bool
  contextHash : String
  formattedContextBlock : Str

variable [FloorRing K]

/-- The results that `retrieve` makes contexts of. -/
def resultsFor (search : Searcher K) (tenantId query : String) (topK : Option ℕ)
    (similarityThreshold : Option K) : List (MemorySearchResult K (JsonValue K)) :=
  -- a zero is replaced by the setting
  let k := match topK with
    | some n => if n = 0 then settings.ragTopK else n
    | none => settings.ragTopK
  retrieveRawMatches env.embedText search tenantId (Text.strip query) k
    (similarityThreshold.getD settings.ragSimilarityThreshold)

/-- `retrieve`. -/
def retrieve (search : Searcher K) (tenantId query : String) (topK : Option ℕ)
    (similarityThreshold : Option K) : Except PyException (RagResult K) :=
  let canonQuery := Text.strip query
  let result (incidents : List (RetrievedIncidentContext K)) (status : RagRetrievalStatus)
      (degraded : Bool) : RagResult K :=
    let block := buildContextBlock (incidents.map RetrievedIncidentContext.incident)
      settings.ragMaxContextChars
    {
      tenantId := tenantId
      queryHash := env.sha256 canonQuery
      retrievedIncidents := incidents
      resultCount := incidents.length
      retrievalStatus := status
      degraded := degraded
      contextHash := env.sha256 (String.ofList block)
      formattedContextBlock := block
    }
  if !settings.ragEnabled ∨ canonQuery = "" then .ok (result [] .empty false)
  else
    match contextsOf env settings
        (resultsFor env settings search tenantId query topK similarityThreshold) with
    | .error e => .error e
    | .ok processed =>
      let status :=
        if env.embedderDegraded then .degradedEmbedding
        else if env.storeDegraded then .degradedStorage
        else if processed.isEmpty then .empty
        else .connected
      .ok (result processed status (env.embedderDegraded || env.storeDegraded))

/-- The incidents of the block. -/
def incidentsFor (search : Searcher K) (tenantId query : String) (topK : Option ℕ)
    (similarityThreshold : Option K) : List (Incident K) :=
  if !settings.ragEnabled ∨ Text.strip query = "" then []
  else (resultsFor env settings search tenantId query topK similarityThreshold).map
    (incidentOf env settings)

/-! ## The block is contained -/

variable {env settings} {search : Searcher K} {tenantId query : String} {topK : Option ℕ}
  {similarityThreshold : Option K}

omit [FloorRing K] in
theorem incident_of_contextOf {res : MemorySearchResult K (JsonValue K)}
    {ctx : RetrievedIncidentContext K} (h : contextOf env settings res = .ok ctx) :
    ctx.incident = incidentOf env settings res := by
  unfold contextOf at h
  split_ifs at h
  rw [← Except.ok.inj h]
  rfl

omit [FloorRing K] in
theorem incidents_of_contextsOf {results : List (MemorySearchResult K (JsonValue K))}
    {processed : List (RetrievedIncidentContext K)}
    (h : contextsOf env settings results = .ok processed) :
    processed.map RetrievedIncidentContext.incident = results.map (incidentOf env settings) := by
  induction results generalizing processed with
  | nil =>
    rw [← Except.ok.inj h]
    rfl
  | cons res results ih =>
    rw [contextsOf] at h
    cases hctx : contextOf env settings res with
    | error e =>
      rw [hctx] at h
      cases h
    | ok ctx =>
      cases hrest : contextsOf env settings results with
      | error e =>
        rw [hctx, hrest] at h
        cases h
      | ok rest =>
        rw [hctx, hrest] at h
        rw [← Except.ok.inj h, List.map_cons, List.map_cons, incident_of_contextOf hctx, ih hrest]

/-- **The block of a result** is that of the incidents. -/
theorem formattedContextBlock_eq {result : RagResult K}
    (h : retrieve env settings search tenantId query topK similarityThreshold = .ok result) :
    result.formattedContextBlock =
      buildContextBlock (incidentsFor env settings search tenantId query topK similarityThreshold)
        settings.ragMaxContextChars := by
  unfold retrieve at h
  rw [incidentsFor]
  by_cases hempty : !settings.ragEnabled ∨ Text.strip query = ""
  · rw [if_pos hempty] at h ⊢
    rw [← Except.ok.inj h]
    rfl
  · rw [if_neg hempty] at h ⊢
    cases hcontexts : contextsOf env settings
        (resultsFor env settings search tenantId query topK similarityThreshold) with
    | error e =>
      rw [hcontexts] at h
      cases h
    | ok processed =>
      rw [hcontexts] at h
      rw [← Except.ok.inj h, ← incidents_of_contextsOf hcontexts]

omit [FloorRing K] in
theorem plain_incidentOf (res : MemorySearchResult K (JsonValue K)) :
    (incidentOf env settings res).Plain := by
  refine ⟨?_, noAngles_sanitize _ _⟩
  change NoAngles res.memoryType.value.toList
  cases res.memoryType <;> decide

omit [FloorRing K] in
theorem plain_incidentsFor :
    ∀ inc ∈ incidentsFor env settings search tenantId query topK similarityThreshold, inc.Plain := by
  intro inc hinc
  rw [incidentsFor] at hinc
  split_ifs at hinc
  · cases hinc
  · obtain ⟨res, -, rfl⟩ := List.mem_map.1 hinc
    exact plain_incidentOf res

/-- **Retrieved history stays in its block** exactly if no incident in the block has an angle
bracket in its identifier, and where incidents are left out the comment still fits. -/
theorem retrieve_contained_iff (env : RagEnv K) (settings : RagSettings K) (search : Searcher K)
    (tenantId query : String) (topK : Option ℕ) (similarityThreshold : Option K)
    (result : RagResult K)
    (h : retrieve env settings search tenantId query topK similarityThreshold = .ok result)
    (hlimit : emptyBlock.length ≤ settings.ragMaxContextChars) :
    Contained (incidentsFor env settings search tenantId query topK similarityThreshold)
        settings.ragMaxContextChars result.formattedContextBlock ↔
      Harmless (incidentsFor env settings search tenantId query topK similarityThreshold)
        settings.ragMaxContextChars := by
  rw [formattedContextBlock_eq h]
  exact contained_iff plain_incidentsFor hlimit

end Engine

/-! ## Blocks that are not -/

/-- An environment for texts of ASCII characters. -/
def asciiRag : RagEnv ℚ where
  isWord := fun c => c.isAlphanum || c = '_'
  str := fun _ => ""
  sha256 := id
  embedText := fun _ => some [1]
  embedderDegraded := false
  storeDegraded := false
  report := fun _ => ""

/-- The default settings, with a limit for the block. -/
def limitedTo (maxContextChars : ℕ) (h : 0 < maxContextChars) : RagSettings ℚ where
  ragEnabled := true
  ragTopK := 5
  ragSimilarityThreshold := 7 / 10
  ragMaxContextChars := maxContextChars
  ragMaxIncidentChars := 800
  ragTopK_pos := by decide
  ragSimilarityThreshold_mem := by norm_num
  ragMaxContextChars_pos := h
  ragMaxIncidentChars_pos := by decide

theorem short_date : "2025-01-01".length ≤ 64 := by decide

/-- A store with one incident of a tenant. -/
def storeWith (memoryId : String) (h : 1 ≤ memoryId.length ∧ memoryId.length ≤ 128) :
    InMemoryVectorStore ℚ (JsonValue ℚ) :=
  InMemoryVectorStore.empty.insert
    (.base memoryId "2025-01-01" .investigation
      (Dict.ofList [("tenant_id", .str "t"), ("subject", .str "Hi")]) [1] h short_date)

/-- The search of a store. -/
def searcher (store : InMemoryVectorStore ℚ (JsonValue ℚ)) : Searcher ℚ := fun args =>
  some (store.similaritySearch SquareRoot.rational args)

theorem exists_ok_of_toBool {ε α : Type*} {x : Except ε α} (h : x.toBool = true) :
    ∃ a, x = .ok a := by
  cases x with
  | error e => cases h
  | ok a => exact ⟨a, rfl⟩

theorem pos_limits : 0 < 4000 ∧ 0 < 317 := by decide

theorem length_emptyBlock : emptyBlock.length = 317 := by decide +kernel

theorem short_ids : (1 ≤ "m1".length ∧ "m1".length ≤ 128) ∧
    (1 ≤ "\"><x".length ∧ "\"><x".length ≤ 128) := by
  decide

/-- An incident with a plain identifier stays in its block. -/
theorem retrieve_contained_plain :
    ∃ result, retrieve asciiRag (limitedTo 4000 pos_limits.1) (searcher (storeWith "m1" short_ids.1))
        "t" "q" none none = .ok result ∧
      Contained (incidentsFor asciiRag (limitedTo 4000 pos_limits.1)
        (searcher (storeWith "m1" short_ids.1)) "t" "q" none none) 4000
        result.formattedContextBlock := by
  obtain ⟨result, hresult⟩ : ∃ result, retrieve asciiRag (limitedTo 4000 pos_limits.1)
      (searcher (storeWith "m1" short_ids.1)) "t" "q" none none = .ok result :=
    exists_ok_of_toBool (by decide +kernel)
  have hlimit : emptyBlock.length ≤ 4000 := by
    rw [length_emptyBlock]
    decide
  refine ⟨result, hresult, (retrieve_contained_iff asciiRag (limitedTo 4000 pos_limits.1)
    (searcher (storeWith "m1" short_ids.1)) "t" "q" none none result hresult hlimit).2 ⟨?_, ?_⟩⟩
  · decide +kernel
  · decide +kernel

/-- **An identifier that closes its tag** opens another one; and a block whose limit is the length
of the empty one becomes longer than it by the comment of the cut. -/
theorem escapes_block :
    (∃ result, retrieve asciiRag (limitedTo 4000 pos_limits.1)
        (searcher (storeWith "\"><x" short_ids.2)) "t" "q" none none = .ok result ∧
      angles result.formattedContextBlock ≠ angles (ownMarkup (incidentsFor asciiRag
        (limitedTo 4000 pos_limits.1) (searcher (storeWith "\"><x" short_ids.2)) "t" "q" none none)
        4000)) ∧
    ∃ result, retrieve asciiRag (limitedTo 317 pos_limits.2)
        (searcher (storeWith "m1" short_ids.1)) "t" "q" none none = .ok result ∧
      emptyBlock.length ≤ 317 ∧ 317 < result.formattedContextBlock.length := by
  constructor
  · obtain ⟨result, hresult⟩ : ∃ result, retrieve asciiRag (limitedTo 4000 pos_limits.1)
        (searcher (storeWith "\"><x" short_ids.2)) "t" "q" none none = .ok result :=
      exists_ok_of_toBool (by decide +kernel)
    refine ⟨result, hresult, ?_⟩
    rw [formattedContextBlock_eq hresult]
    decide +kernel
  · obtain ⟨result, hresult⟩ : ∃ result, retrieve asciiRag (limitedTo 317 pos_limits.2)
        (searcher (storeWith "m1" short_ids.1)) "t" "q" none none = .ok result :=
      exists_ok_of_toBool (by decide +kernel)
    refine ⟨result, hresult, length_emptyBlock.le, ?_⟩
    rw [formattedContextBlock_eq hresult]
    decide +kernel

end Rag
end ScamOn.Memory
