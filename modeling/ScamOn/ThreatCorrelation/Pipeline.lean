import ScamOn.Lib.FixedPoint
import ScamOn.Memory.Retrieval
import ScamOn.SecurityIntelligence.Detectors

/-!
# Threat correlation

`ThreatCorrelationPipeline.correlate` looks for the history of an e-mail in two stores: the table
of investigations, by the queries of `CampaignCorrelationEngine`, and the vector store of the
memory, by a similarity search.

* Every query of the table asks for the tenant: `correlateInvestigation_own` says that the campaign
  depends on the rows of the tenant alone.
* The search of the memory asks for no tenant, so a record of any tenant is returned if it is
  similar enough: `findSimilar_eq`, `matches_own_iff`.
* `correlate_isolated_iff`: the correlation stays inside the tenant exactly if there is no memory
  retrieval, or the embedder raises on the query.
-/

namespace ScamOn.ThreatCorrelation

open Memory SecurityIntelligence

/-! ## The campaign -/

/-- A row of the table of investigations. -/
structure InvestigationRow where
  id : String
  orgId : String
  sender : String
  subject : String
  createdAt : String

/-- `text LIKE pattern`: letters of ASCII are compared without their case. -/
def sqlLike : List Char → List Char → Bool
  | [], s => s.isEmpty
  | '%' :: p, s => s.tails.any (sqlLike p)
  | '_' :: p, s =>
    match s with
    | [] => false
    | _ :: s => sqlLike p s
  | c :: p, s =>
    match s with
    | [] => false
    | d :: s => c.toLower = d.toLower && sqlLike p s

/-- `SELECT ... WHERE org_id = ? AND ... LIMIT n`, in the order of the table. -/
def selectRows (rows : List InvestigationRow) (orgId : String) (condition : InvestigationRow → Bool)
    (limit : ℕ) : List InvestigationRow :=
  (rows.filter fun r => r.orgId = orgId && condition r).take limit

/-- An entry of `historical_matches`. -/
inductive HistoricalMatch (K : Type*)
  | sender (investigationId subject createdAt : String)
  | subjectTemplate (investigationId sender createdAt : String)
  | urlIndicator (investigationId createdAt : String)
  | vectorSimilarity (investigationId : String) (score : K)
  deriving DecidableEq

/-- The result of `correlate_investigation`. -/
structure CampaignResult (K : Type*) where
  campaignDetected : Bool
  campaignScore : ℚ
  indicatorsMatched : List String
  correlatedInvestigations : List (HistoricalMatch K)

section Campaign

variable {K : Type*} (sets : SetOrder) (lower : String → String)

/-- `correlate_investigation`. -/
def correlateInvestigation (rows : List InvestigationRow) (orgId sender subject : String)
    (urls : List String) : CampaignResult K :=
  let senderRows := selectRows rows orgId (fun r => r.sender = sender) 10
  let subjectClean := lower (Text.strip subject)
  let subjectRows := selectRows rows orgId (fun r => Text.asciiLower r.subject = subjectClean) 10
  let urlRows := urls.map fun url =>
    let urlClean := ("%" ++ url ++ "%").toList
    selectRows rows orgId
      (fun r => sqlLike urlClean r.subject.toList || sqlLike urlClean r.sender.toList) 5
  let matchingReasons :=
    (if senderRows.isEmpty then [] else ["sender_match"]) ++
    (if subjectRows.isEmpty then [] else ["template_subject_match"]) ++
    (urlRows.filter fun found => !found.isEmpty).map fun _ => "infrastructure_match"
  let correlatedRuns : List (HistoricalMatch K) :=
    (senderRows.map fun r => .sender r.id r.subject r.createdAt) ++
    (subjectRows.map fun r => .subjectTemplate r.id r.sender r.createdAt) ++
    urlRows.flatten.map fun r => .urlIndicator r.id r.createdAt
  let campaignScore : ℚ :=
    (if "sender_match" ∈ matchingReasons then 4 else 0) +
    (if "template_subject_match" ∈ matchingReasons then 3 else 0) +
    (if "infrastructure_match" ∈ matchingReasons then 3 else 0)
  {
    campaignDetected := 1 < correlatedRuns.length
    campaignScore := min campaignScore 10
    indicatorsMatched := sets.order matchingReasons
    correlatedInvestigations := correlatedRuns.take 10
  }

/-- The rows of a tenant. -/
def ownRows (tenantId : Uuid) (rows : List InvestigationRow) : List InvestigationRow :=
  rows.filter fun r => r.orgId = tenantId.str

theorem selectRows_own (rows : List InvestigationRow) (tenantId : Uuid)
    (condition : InvestigationRow → Bool) (limit : ℕ) :
    selectRows rows tenantId.str condition limit =
      ((ownRows tenantId rows).filter condition).take limit := by
  rw [selectRows, ownRows, List.filter_filter]
  simp only [Bool.and_comm]

theorem mem_ownRows_of_mem_selectRows {rows : List InvestigationRow} {tenantId : Uuid}
    {condition : InvestigationRow → Bool} {limit : ℕ} {r : InvestigationRow}
    (h : r ∈ selectRows rows tenantId.str condition limit) : r ∈ ownRows tenantId rows := by
  rw [selectRows_own] at h
  exact List.mem_of_mem_filter (List.mem_of_mem_take h)

/-- **The campaign** depends on the rows of the tenant alone. -/
theorem correlateInvestigation_own {rows rows' : List InvestigationRow} {tenantId : Uuid}
    (h : ownRows tenantId rows = ownRows tenantId rows') (sender subject : String)
    (urls : List String) :
    correlateInvestigation (K := K) sets lower rows tenantId.str sender subject urls =
      correlateInvestigation sets lower rows' tenantId.str sender subject urls := by
  unfold correlateInvestigation
  simp only [selectRows_own, h]

end Campaign

/-! ## The pipeline -/

/-- The fields of `ParsedEmail` that the correlation reads. -/
structure ParsedEmail where
  parsedId : Uuid
  tenantId : Uuid
  messageId : String
  subject : String
  senderAddress : String
  urls : List String

/-- `IOCRelationshipGraphDTO`. -/
structure RelationshipGraph where
  nodes : List String
  edges : Dict String (List String)
  totalNodes : ℕ
  totalEdges : ℕ

/-- What the graph builder and the risk enrichment make of the e-mail and the results upstream.
Neither of them reads a store. -/
structure Upstream where
  graph : RelationshipGraph
  threatCategories : List String
  mitreTechniques : List (Dict String String)

/-- `ThreatCorrelationResult`, without its own identifier and the time it took. -/
structure CorrelationResult (K : Type*) where
  parsedId : Uuid
  tenantId : Uuid
  messageId : String
  relatedIocs : List String
  relationshipGraph : RelationshipGraph
  campaignDetected : Bool
  campaignId : Option String
  campaignScore : ℚ
  matchedCampaignIndicators : List String
  historicalMatches : List (HistoricalMatch K)
  threatCategories : List String
  mitreTechniques : List (Dict String String)
  correlationConfidence : ℚ
  evidenceSummary : List String

/-- The embedding provider; `none` if it raises. -/
structure EmbeddingProvider (K : Type*) where
  embedText : String → Option (List K)
  dimension : ℕ

/-- `ThreatCorrelationPipeline`, with the functions it uses. -/
structure Pipeline (K : Type*) where
  sets : SetOrder
  lower : String → String
  /-- `hash`, of a text. -/
  hash : String → ℤ
  memoryRetrieval : Option (EmbeddingProvider K)

section Pipeline

variable {K : Type*} [Field K] [LinearOrder K] [IsStrictOrderedRing K]

/-- The text that `find_similar_investigations` searches for; there is no summary of a body. -/
def queryText (email : ParsedEmail) : String :=
  let stripped := Text.strip (email.subject ++ " " ++ email.senderAddress ++ " ")
  let queryStr := String.ofList (stripped.toList.take 1024)
  if queryStr = "" then "investigation query" else queryStr

theorem length_queryText (email : ParsedEmail) : (queryText email).length ≤ 1024 := by
  unfold queryText
  dsimp only
  split_ifs
  · decide
  · rw [String.length_ofList]
    exact List.length_take_le _ _

theorem five_range : 1 ≤ 5 ∧ 5 ≤ 100 := by decide

/-- The query of `find_similar_investigations`.  It has no metadata filters. -/
def similarQuery (email : ParsedEmail) : MemoryQuery K (JsonValue K) where
  queryText := some (queryText email)
  queryVector := none
  memoryType := some .investigation
  topK := 5
  minConfidence := (3 : ℕ) / (10 : ℕ)
  metadataFilters := ∅
  timeRangeStart := none
  timeRangeEnd := none
  queryText_le := length_queryText email
  topK_range := five_range
  minConfidence_range := by
    constructor
    · positivity
    · exact (div_le_one (by norm_num)).2 (by norm_num)
  timeRangeStart_le := trivial
  timeRangeEnd_le := trivial

variable [FloorRing K] (S : SquareRoot K)

/-- `find_similar_investigations`; `none` if the embedder raises. -/
def findSimilar (provider : EmbeddingProvider K) (store : InMemoryVectorStore K (JsonValue K))
    (email : ParsedEmail) : Option (List (MemorySearchResult K (JsonValue K))) :=
  (provider.embedText (queryText email)).map fun vector =>
    query S ⟨fun _ => vector, provider.dimension⟩ store (similarQuery email)

/-- The matches that the memory adds.  An exception is swallowed. -/
def memoryMatches (pipeline : Pipeline K) (store : InMemoryVectorStore K (JsonValue K))
    (email : ParsedEmail) : List (HistoricalMatch K) :=
  match pipeline.memoryRetrieval with
  | some provider =>
    match findSimilar S provider store email with
    | some results => results.map fun res => .vectorSimilarity res.record.memoryId res.similarityScore
    | none => []
  | none => []

/-- `correlate`. -/
def correlate (pipeline : Pipeline K) (rows : List InvestigationRow)
    (store : InMemoryVectorStore K (JsonValue K)) (email : ParsedEmail) (upstream : Upstream) :
    CorrelationResult K :=
  let campaign := correlateInvestigation pipeline.sets pipeline.lower rows email.tenantId.str
    email.senderAddress email.subject email.urls
  {
    parsedId := email.parsedId
    tenantId := email.tenantId
    messageId := email.messageId
    relatedIocs := upstream.graph.nodes
    relationshipGraph := upstream.graph
    campaignDetected := campaign.campaignDetected
    campaignId :=
      if campaign.campaignDetected then some ("cmp_" ++ toString (pipeline.hash email.subject))
      else none
    campaignScore := campaign.campaignScore
    matchedCampaignIndicators := campaign.indicatorsMatched
    historicalMatches := campaign.correlatedInvestigations ++ memoryMatches S pipeline store email
    threatCategories := upstream.threatCategories
    mitreTechniques := upstream.mitreTechniques
    correlationConfidence := if campaign.campaignDetected then 85 / 100 else 50 / 100
    evidenceSummary :=
      ["Graph nodes: " ++ toString upstream.graph.totalNodes ++ ", edges: " ++
          toString upstream.graph.totalEdges,
        "Campaign score: " ++ formatFixed 1 campaign.campaignScore]
  }

/-! ## Isolation -/

/-- A record of the memory is one of the tenant. -/
def OwnRecord (tenantId : Uuid) (r : MemoryRecord K (JsonValue K)) : Prop :=
  (getItem r.metadata "tenant_id").eq (.str tenantId.str) = true

instance (tenantId : Uuid) (r : MemoryRecord K (JsonValue K)) : Decidable (OwnRecord tenantId r) :=
  inferInstanceAs (Decidable (_ = true))

/-- The records of a tenant in the memory. -/
def ownRecords (tenantId : Uuid) (store : InMemoryVectorStore K (JsonValue K)) :
    List (MemoryRecord K (JsonValue K)) :=
  store.records.values.filter fun r => OwnRecord tenantId r

/-- A match refers to a row or a record of the tenant. -/
def RefersToOwn (tenantId : Uuid) (rows : List InvestigationRow)
    (store : InMemoryVectorStore K (JsonValue K)) : HistoricalMatch K → Prop
  | .sender id _ _ => ∃ r ∈ ownRows tenantId rows, r.id = id
  | .subjectTemplate id _ _ => ∃ r ∈ ownRows tenantId rows, r.id = id
  | .urlIndicator id _ => ∃ r ∈ ownRows tenantId rows, r.id = id
  | .vectorSimilarity id _ => ∃ r ∈ ownRecords tenantId store, r.memoryId = id

/-- **Threat correlation stays inside the tenant**: whatever the stores hold, each match refers to
a record of the tenant, and records of other tenants do not change the result. -/
def Isolated (pipeline : Pipeline K) (email : ParsedEmail) (upstream : Upstream) : Prop :=
  ∀ rows store,
    (∀ found ∈ (correlate S pipeline rows store email upstream).historicalMatches,
      RefersToOwn email.tenantId rows store found) ∧
    ∀ rows' store', ownRows email.tenantId rows = ownRows email.tenantId rows' →
      ownRecords email.tenantId store = ownRecords email.tenantId store' →
      correlate S pipeline rows store email upstream =
        correlate S pipeline rows' store' email upstream

/-- The memory is not asked, or its embedder raises on the query. -/
def NoRetrieval (pipeline : Pipeline K) (email : ParsedEmail) : Prop :=
  ∀ provider, pipeline.memoryRetrieval = some provider →
    provider.embedText (queryText email) = none

variable {S} {pipeline : Pipeline K} {provider : EmbeddingProvider K} {vector : List K}
  {rows rows' : List InvestigationRow} {store store' : InMemoryVectorStore K (JsonValue K)}
  {email : ParsedEmail}

omit [IsStrictOrderedRing K] [FloorRing K] in
theorem mem_ownRecords {tenantId : Uuid} {r : MemoryRecord K (JsonValue K)} :
    r ∈ ownRecords tenantId store ↔ r ∈ store.records.values ∧ OwnRecord tenantId r := by
  rw [ownRecords, List.mem_filter, decide_eq_true_eq]

/-! ### The campaign -/

omit [IsStrictOrderedRing K] [FloorRing K] in
/-- The runs that the campaign correlates are rows of the tenant. -/
theorem refersToOwn_of_campaign (sets : SetOrder) (lower : String → String)
    {sender subject : String} {urls : List String} {tenantId : Uuid} {found : HistoricalMatch K}
    (h : found ∈ (correlateInvestigation sets lower rows tenantId.str sender subject
      urls).correlatedInvestigations) :
    RefersToOwn tenantId rows store found := by
  have hmem := List.mem_of_mem_take h
  rcases List.mem_append.1 hmem with hmem | hmem
  · rcases List.mem_append.1 hmem with hmem | hmem
    · obtain ⟨r, hr, rfl⟩ := List.mem_map.1 hmem
      exact ⟨r, mem_ownRows_of_mem_selectRows hr, rfl⟩
    · obtain ⟨r, hr, rfl⟩ := List.mem_map.1 hmem
      exact ⟨r, mem_ownRows_of_mem_selectRows hr, rfl⟩
  · obtain ⟨r, hr, rfl⟩ := List.mem_map.1 hmem
    obtain ⟨found, hfound, hr⟩ := List.mem_flatten.1 hr
    obtain ⟨url, -, rfl⟩ := List.mem_map.1 hfound
    exact ⟨r, mem_ownRows_of_mem_selectRows hr, rfl⟩

/-! ### The memory -/

/-- What the search of the memory finds: the five most similar records of any tenant. -/
theorem findSimilar_eq (h : provider.embedText (queryText email) = some vector) :
    findSimilar S provider store email =
      some (((matching S ⟨fun _ => vector, provider.dimension⟩ store (similarQuery email)).take 5).map
        (searchResult S ((similarQuery email).vector ⟨fun _ => vector, provider.dimension⟩))) := by
  have hrange : (similarQuery (K := K) email).hasRange = false := rfl
  rw [findSimilar, h, Option.map_some, query_eq]
  congr 2
  exact List.filter_eq_self.2 fun r _ => (similarQuery email).inRange_of_not_hasRange hrange _

/-- **The matches of the memory** are the tenant's own exactly if the five most similar records
are. -/
theorem matches_own_iff (hprovider : pipeline.memoryRetrieval = some provider)
    (h : provider.embedText (queryText email) = some vector) :
    (∀ found ∈ memoryMatches S pipeline store email,
      RefersToOwn email.tenantId rows store found) ↔
      ∀ r ∈ (matching S ⟨fun _ => vector, provider.dimension⟩ store (similarQuery email)).take 5,
        OwnRecord email.tenantId r := by
  have hmatches : memoryMatches S pipeline store email =
      ((matching S ⟨fun _ => vector, provider.dimension⟩ store (similarQuery email)).take 5).map
        fun r => .vectorSimilarity r.memoryId (searchResult S
          ((similarQuery email).vector ⟨fun _ => vector, provider.dimension⟩) r).similarityScore := by
    rw [memoryMatches, hprovider]
    simp only [findSimilar_eq h, List.map_map]
    rfl
  rw [hmatches, List.forall_mem_map]
  refine forall₂_congr fun r hr => ?_
  have hvalues : r ∈ store.records.values := by
    have hmatching := List.mem_of_mem_take hr
    rw [matching, mem_ranked] at hmatching
    exact List.mem_of_mem_filter hmatching
  constructor
  · rintro ⟨r', hr', hid⟩
    obtain ⟨hvalues', hown⟩ := mem_ownRecords.1 hr'
    -- A record is under its own identifier, so that it is the one that was found.
    have hget := store.get?_of_mem_values hvalues'
    rw [hid, store.get?_of_mem_values hvalues] at hget
    rw [Option.some.inj hget]
    exact hown
  · intro hown
    exact ⟨r, mem_ownRecords.2 ⟨hvalues, hown⟩, rfl⟩

theorem memoryMatches_of_noRetrieval (h : NoRetrieval pipeline email) :
    memoryMatches S pipeline store email = [] := by
  unfold memoryMatches
  cases hprovider : pipeline.memoryRetrieval with
  | none => rfl
  | some provider => simp only [findSimilar, h provider hprovider, Option.map_none]

/-! ### A record of another tenant -/

/-- Another tenant. -/
def otherTenant (tenantId : Uuid) : Uuid := ⟨tenantId.int + 1⟩

theorem otherTenant_ne (tenantId : Uuid) : otherTenant tenantId ≠ tenantId := by
  intro h
  have hint : tenantId.int + 1 = tenantId.int := congrArg Uuid.int h
  bv_omega

theorem short_other : 1 ≤ "mem_other".length ∧ "mem_other".length ≤ 128 := by decide

theorem short_created : "2025-01-01".length ≤ 64 := by decide

/-- An investigation of another tenant. -/
def otherRecord (tenantId : Uuid) : MemoryRecord K (JsonValue K) :=
  .base "mem_other" "2025-01-01" .investigation
    (Dict.empty.set "tenant_id" (.str (otherTenant tenantId).str)) [] short_other short_created

omit [FloorRing K] in
theorem not_ownRecord_otherRecord (tenantId : Uuid) :
    ¬OwnRecord tenantId (otherRecord (K := K) tenantId) := by
  intro h
  have hitem : getItem (otherRecord (K := K) tenantId).metadata "tenant_id" =
      .str (otherTenant tenantId).str := by
    have hmetadata : (otherRecord (K := K) tenantId).metadata =
        Dict.empty.set "tenant_id" (.str (otherTenant tenantId).str) := rfl
    rw [hmetadata, getItem, Dict.get?_set_self, Option.getD_some]
  rw [OwnRecord, hitem, JsonValue.eq_str, beq_iff_eq] at h
  exact otherTenant_ne tenantId (Uuid.str_injective h)

/-- A store with that record only. -/
def otherStore (tenantId : Uuid) : InMemoryVectorStore K (JsonValue K) :=
  InMemoryVectorStore.empty.insert (otherRecord tenantId)

/-- The search finds it. -/
theorem matching_otherStore (tenantId : Uuid) (e : Embedder K) :
    matching S e (otherStore tenantId) (similarQuery email) = [otherRecord tenantId] := by
  have hmatches : ((similarQuery (K := K) email).searchArgs e).matches (otherRecord tenantId) =
      true := by
    have hconfidence : ¬((otherRecord (K := K) tenantId).confidenceScore <
        ((similarQuery (K := K) email).searchArgs e).minConfidence) := by
      refine not_lt.2 ?_
      exact (div_le_one (by norm_num)).2 (by norm_num)
    rw [SearchArgs.matches, decide_eq_false hconfidence]
    rfl
  have hvalues : (otherStore (K := K) tenantId).records.values = [otherRecord tenantId] := rfl
  rw [matching, hvalues, List.filter_cons_of_pos hmatches, List.filter_nil]
  exact List.perm_singleton.1 (ranked_perm _ _)

/-- **Isolation.**  Threat correlation stays inside the tenant exactly if the memory is not asked,
or its embedder raises on the query. -/
theorem correlate_isolated_iff (S : SquareRoot K) (pipeline : Pipeline K) (email : ParsedEmail)
    (upstream : Upstream) : Isolated S pipeline email upstream ↔ NoRetrieval pipeline email := by
  constructor
  · intro h provider hprovider
    by_contra hanswer
    obtain ⟨vector, hvector⟩ := Option.ne_none_iff_exists'.1 hanswer
    -- The record of another tenant is returned where there is no other.
    have hmatches : ∀ found ∈ memoryMatches S pipeline (otherStore email.tenantId) email,
        RefersToOwn email.tenantId [] (otherStore email.tenantId) found := fun found hfound =>
      (h [] (otherStore email.tenantId)).1 found (List.mem_append_right _ hfound)
    have hown := (matches_own_iff hprovider hvector).1 hmatches
    rw [matching_otherStore] at hown
    exact not_ownRecord_otherRecord email.tenantId (hown _ (List.mem_singleton_self _))
  · intro h rows store
    constructor
    · intro found hfound
      rcases List.mem_append.1 hfound with hfound | hfound
      · exact refersToOwn_of_campaign pipeline.sets pipeline.lower hfound
      · rw [memoryMatches_of_noRetrieval h] at hfound
        cases hfound
    · intro rows' store' hrows _
      simp only [correlate, memoryMatches_of_noRetrieval h,
        correlateInvestigation_own pipeline.sets pipeline.lower hrows]

end Pipeline

/-! ## A leak -/

/-- A pipeline with a memory. -/
def memoryPipeline : Pipeline ℚ where
  sets := .dedup
  lower := Text.asciiLower
  hash := fun _ => 0
  memoryRetrieval := some ⟨fun _ => some [1], 1⟩

/-- An e-mail of a tenant that has no history. -/
def firstEmail : ParsedEmail where
  parsedId := Uuid.ofNat 1
  tenantId := Uuid.ofNat 0
  messageId := "1"
  subject := "Notes"
  senderAddress := "ann@example.com"
  urls := []

theorem correlate_isolated_iff_memoryPipeline :
    ¬Isolated SquareRoot.rational memoryPipeline firstEmail ⟨⟨[], ∅, 0, 0⟩, [], []⟩ := by
  intro h
  have hnone := (correlate_isolated_iff SquareRoot.rational memoryPipeline firstEmail _).1 h
  cases hnone _ rfl

/-- **A record of another tenant** is returned as the history of a tenant that has none. -/
theorem leaks_other_tenant :
    (correlate SquareRoot.rational memoryPipeline [] (otherStore firstEmail.tenantId) firstEmail
        ⟨⟨[], ∅, 0, 0⟩, [], []⟩).historicalMatches = [.vectorSimilarity "mem_other" 0] ∧
      ¬RefersToOwn (K := ℚ) firstEmail.tenantId [] (otherStore firstEmail.tenantId)
        (.vectorSimilarity "mem_other" 0) := by
  constructor
  · decide +kernel
  · rintro ⟨r, hr, -⟩
    obtain ⟨hvalues, hown⟩ := mem_ownRecords.1 hr
    have hother : (otherStore (K := ℚ) firstEmail.tenantId).records.values =
        [otherRecord firstEmail.tenantId] := rfl
    rw [hother, List.mem_singleton] at hvalues
    subst hvalues
    exact not_ownRecord_otherRecord firstEmail.tenantId hown

end ScamOn.ThreatCorrelation
