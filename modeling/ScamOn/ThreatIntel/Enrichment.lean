import Mathlib.Data.String.Basic
import ScamOn.Lib.PyValue
import ScamOn.Lib.Ranking
import ScamOn.ThreatIntel.Manager

/-!
# Threat-intelligence enrichment

`ThreatIntelPipeline.enrich` puts the harvested indicators of an e-mail into a graph, looks each of
them up, and adds up what the providers say.

* `Graph.addNode` and `Graph.addEdge` are the graph, `buildGraph` what the pipeline builds.
  `iocGraph_shape`: its edges lead from the e-mail to its nodes, one for each indicator that is
  not blank, if the e-mail has an identifier; spellings of one indicator share a node.
* `enrich` is the pipeline, over the manager of the providers.
* `enrich_adds_up`: the totals of a result are those of its targets, and these are the indicators.
* `enrich_forall`: what holds of all that the providers answer, and of what is cached, holds of all
  that is reported, in any run.
-/

namespace ScamOn.ThreatIntel

/-! ## The graph -/

/-- `IOCNodeDTO`, without its properties, of which there are none. -/
structure IocNode where
  nodeId : String
  targetType : String
  value : String
  deriving DecidableEq

/-- `IOCEdgeDTO`, without its properties, of which there are none. -/
structure IocEdge where
  sourceId : String
  targetId : String
  relationshipType : String
  deriving DecidableEq

/-- `IOCRelationshipGraph`. -/
structure Graph where
  nodes : Dict String IocNode
  edges : List IocEdge

section Graph

variable (lower upper : String → String)

/-- The value is empty, or only white space. -/
def Blank (value : String) : Prop := value = "" ∨ Text.strip value = ""

instance (value : String) : Decidable (Blank value) := inferInstanceAs (Decidable (_ ∨ _))

/-- `f"{target_type.lower()}:{value.strip().lower()}"`. -/
def nodeIdOf (targetType value : String) : String :=
  lower targetType ++ ":" ++ lower (Text.strip value)

/-- The node of an indicator. -/
def newNode (targetType value : String) : IocNode :=
  ⟨nodeIdOf lower targetType value, lower targetType, Text.strip value⟩

/-- `add_node`, with the identifier it returns. -/
def Graph.addNode (g : Graph) (targetType value : String) : Graph × String :=
  if Blank value then (g, "")
  else if g.nodes.contains (nodeIdOf lower targetType value) then (g, nodeIdOf lower targetType value)
  else
    (⟨g.nodes.set (nodeIdOf lower targetType value) (newNode lower targetType value), g.edges⟩,
      nodeIdOf lower targetType value)

/-- `add_edge`. -/
def Graph.addEdge (g : Graph) (sourceId targetId relationshipType : String) : Graph :=
  if sourceId = "" ∨ targetId = "" then g
  else { g with edges := g.edges ++ [⟨sourceId, targetId, upper relationshipType⟩] }

/-- A node for an indicator, with the edge from the e-mail. -/
def Graph.link (emailNode : String) (g : Graph) (r : String × String × String) : Graph :=
  let added := g.addNode lower r.1 r.2.1
  added.1.addEdge upper emailNode added.2 r.2.2

/-- What `harvest` returns. -/
structure Harvested where
  ips : List String
  domains : List String
  urls : List String
  emails : List String
  hashes : List String

/-- The nodes that are linked, with their relationships, in order. -/
def Harvested.links (h : Harvested) (originatingIp : Option String) (fromDomain : String) :
    List (String × String × String) :=
  (h.ips.map fun ip =>
    ("ip", ip, if some ip = originatingIp then "ORIGINATED_FROM" else "TRAVERSED_HOP")) ++
  (h.domains.map fun dom =>
    ("domain", dom, if dom = fromDomain then "SENDER_DOMAIN" else "REFERENCED_DOMAIN")) ++
  (h.urls.map fun url => ("url", url, "CONTAINS_URL")) ++
  h.hashes.map fun hash => ("hash", hash, "ATTACHMENT_HASH")

/-- Stage 2 of `enrich`. -/
def buildGraph (messageId : String) (h : Harvested) (originatingIp : Option String)
    (fromDomain : String) : Graph :=
  let email := (⟨∅, []⟩ : Graph).addNode lower "email_message" messageId
  (h.links originatingIp fromDomain).foldl (Graph.link lower upper email.2) email.1

variable {lower upper} {g : Graph} {targetType value emailNode : String}
  {r : String × String × String}

theorem nodeIdOf_ne_empty : nodeIdOf lower targetType value ≠ "" := by
  intro h
  have hchars := congrArg String.toList h
  simp [nodeIdOf] at hchars

/-- **What `add_node` does**: nothing to a blank value, else there is a node of that identifier. -/
theorem addNode_spec (lower : String → String) (g : Graph) (targetType value : String) :
    (g.addNode lower targetType value).1.edges = g.edges ∧
      (g.addNode lower targetType value).2 =
        (if Blank value then "" else nodeIdOf lower targetType value) ∧
      ∀ id, id ∈ (g.addNode lower targetType value).1.nodes.keys ↔
        id ∈ g.nodes.keys ∨ ¬Blank value ∧ id = nodeIdOf lower targetType value := by
  unfold Graph.addNode
  split_ifs with hblank hmem
  · exact ⟨rfl, rfl, fun id => by simp [hblank]⟩
  · refine ⟨rfl, rfl, fun id => ?_⟩
    constructor
    · exact .inl
    · rintro (h | ⟨-, rfl⟩)
      · exact h
      · exact Dict.mem_keys_iff.2 hmem
  · refine ⟨rfl, rfl, fun id => ?_⟩
    rw [Dict.keys, Dict.set, Dict.mem_map_fst_setEntry, or_comm]
    exact or_congr_right (by simp [hblank])

/-- The identifiers are those of the nodes. -/
def Graph.Keyed (g : Graph) : Prop := ∀ e ∈ g.nodes.entries, e.2.nodeId = e.1

theorem Graph.Keyed.addNode (h : g.Keyed) (targetType value : String) :
    (g.addNode lower targetType value).1.Keyed := by
  unfold Graph.addNode
  split_ifs
  · exact h
  · exact h
  · intro e he
    rcases Dict.mem_setEntry he with rfl | hold
    · rfl
    · exact h e hold

/-- The edge of an indicator, if there is one. -/
def edgeOf? (lower upper : String → String) (emailNode : String) (r : String × String × String) :
    Option IocEdge :=
  if emailNode = "" ∨ Blank r.2.1 then none
  else some ⟨emailNode, nodeIdOf lower r.1 r.2.1, upper r.2.2⟩

theorem edges_link (g : Graph) (emailNode : String) (r : String × String × String) :
    (g.link lower upper emailNode r).edges = g.edges ++ (edgeOf? lower upper emailNode r).toList := by
  obtain ⟨hedges, hid, -⟩ := addNode_spec lower g r.1 r.2.1
  unfold Graph.link Graph.addEdge edgeOf?
  dsimp only
  rw [hid]
  by_cases hblank : Blank r.2.1
  · simp [hblank, hedges]
  · by_cases hemail : emailNode = ""
    · simp [hemail, hedges]
    · simp [hblank, hemail, hedges, nodeIdOf_ne_empty]

theorem nodes_addEdge (g : Graph) (sourceId targetId relationshipType : String) :
    (g.addEdge upper sourceId targetId relationshipType).nodes = g.nodes := by
  unfold Graph.addEdge
  split_ifs <;> rfl

theorem edges_foldl (links : List (String × String × String)) :
    (links.foldl (Graph.link lower upper emailNode) g).edges =
      g.edges ++ links.filterMap (edgeOf? lower upper emailNode) := by
  induction links generalizing g with
  | nil => simp
  | cons r links ih =>
    rw [List.foldl_cons, ih, edges_link, List.append_assoc]
    cases h : edgeOf? lower upper emailNode r with
    | none => simp [h]
    | some e => simp [h]

theorem keys_foldl (links : List (String × String × String)) {id : String} :
    id ∈ (links.foldl (Graph.link lower upper emailNode) g).nodes.keys ↔
      id ∈ g.nodes.keys ∨ ∃ r ∈ links, ¬Blank r.2.1 ∧ id = nodeIdOf lower r.1 r.2.1 := by
  induction links generalizing g with
  | nil => simp
  | cons r links ih =>
    rw [List.foldl_cons, ih, Graph.link, nodes_addEdge, (addNode_spec lower g r.1 r.2.1).2.2]
    simp [or_assoc]

theorem keyed_foldl (links : List (String × String × String)) (h : g.Keyed) :
    (links.foldl (Graph.link lower upper emailNode) g).Keyed := by
  induction links generalizing g with
  | nil => exact h
  | cons r links ih =>
    refine ih ?_
    intro e he
    rw [Graph.link, nodes_addEdge] at he
    exact h.addNode r.1 r.2.1 e he

/-- **What the graph is.**  Its nodes are those of the e-mail and of the indicators that are not
blank, by their identifiers, so that two spellings share one; its edges lead from the e-mail to
each of these indicators, in order, if the e-mail has an identifier, and join nodes of the graph. -/
theorem iocGraph_shape (lower upper : String → String) (messageId : String) (h : Harvested)
    (originatingIp : Option String) (fromDomain : String) :
    (buildGraph lower upper messageId h originatingIp fromDomain).Keyed ∧
      (∀ id, id ∈ (buildGraph lower upper messageId h originatingIp fromDomain).nodes.keys ↔
        (¬Blank messageId ∧ id = nodeIdOf lower "email_message" messageId) ∨
          ∃ r ∈ h.links originatingIp fromDomain, ¬Blank r.2.1 ∧ id = nodeIdOf lower r.1 r.2.1) ∧
      (buildGraph lower upper messageId h originatingIp fromDomain).edges =
        (if Blank messageId then []
        else ((h.links originatingIp fromDomain).filter fun r => ¬Blank r.2.1).map fun r =>
          ⟨nodeIdOf lower "email_message" messageId, nodeIdOf lower r.1 r.2.1, upper r.2.2⟩) ∧
      ∀ e ∈ (buildGraph lower upper messageId h originatingIp fromDomain).edges,
        e.sourceId ∈ (buildGraph lower upper messageId h originatingIp fromDomain).nodes.keys ∧
        e.targetId ∈ (buildGraph lower upper messageId h originatingIp fromDomain).nodes.keys := by
  obtain ⟨hedges, hid, hkeys⟩ :=
    addNode_spec lower (⟨∅, []⟩ : Graph) "email_message" messageId
  have hnodes : ∀ id, id ∈ (buildGraph lower upper messageId h originatingIp fromDomain).nodes.keys ↔
      (¬Blank messageId ∧ id = nodeIdOf lower "email_message" messageId) ∨
        ∃ r ∈ h.links originatingIp fromDomain, ¬Blank r.2.1 ∧ id = nodeIdOf lower r.1 r.2.1 := by
    intro id
    rw [buildGraph, keys_foldl, hkeys]
    simp only [Dict.keys_empty, List.not_mem_nil, false_or]
  have hlist : (buildGraph lower upper messageId h originatingIp fromDomain).edges =
      (if Blank messageId then []
      else ((h.links originatingIp fromDomain).filter fun r => ¬Blank r.2.1).map fun r =>
        ⟨nodeIdOf lower "email_message" messageId, nodeIdOf lower r.1 r.2.1, upper r.2.2⟩) := by
    rw [buildGraph, edges_foldl, hedges, hid, List.nil_append]
    split_ifs with hblank
    · rw [List.filterMap_eq_nil_iff]
      intro r hr
      simp [edgeOf?]
    · rw [← List.filterMap_eq_map, ← List.filterMap_eq_filter, List.filterMap_filterMap]
      refine List.filterMap_congr fun r hr => ?_
      by_cases hr' : Blank r.2.1
      · simp [edgeOf?, Option.guard, hr']
      · simp [edgeOf?, Option.guard, hr', nodeIdOf_ne_empty]
  refine ⟨keyed_foldl _ (Graph.Keyed.addNode (by rintro e ⟨⟩) _ _), hnodes, hlist, fun e he => ?_⟩
  rw [hlist] at he
  split_ifs at he with hblank
  · cases he
  · obtain ⟨r, hr, rfl⟩ := List.mem_map.1 he
    obtain ⟨hlink, hr⟩ := List.mem_filter.1 hr
    exact ⟨(hnodes _).2 (.inl ⟨hblank, rfl⟩), (hnodes _).2 (.inr ⟨r, hlink, by simpa using hr, rfl⟩)⟩

end Graph

/-! ## Adding up what the providers say -/

/-- `ThreatIntelObservation`, as far as it is read; of its metadata that is `domain_age_days`. -/
structure Observation where
  providerName : String
  malicious : Bool
  confidence : Option ℚ
  threatCategory : String
  domainAgeDays : Option PyValue
  deriving DecidableEq

/-- `ConfidenceScoreDTO`. -/
structure ConfidenceScore where
  confidence : ℚ
  providerCount : ℕ
  evidence : List String
  explanation : String

/-- `IOCTargetDetailDTO`. -/
structure IocTarget where
  target : String
  targetType : TargetType
  isMalicious : Bool
  confidence : ConfidenceScore
  matchedFeeds : List String
  threatCategory : String
  observations : List Observation

/-- `ThreatIntelEnrichmentResult`, without the identifiers that it is given. -/
structure EnrichmentResult where
  totalIocsHarvested : ℕ
  harvestedIocs : Harvested
  graphNodeCount : ℕ
  graphEdgeCount : ℕ
  enrichedTargets : List IocTarget
  maliciousIocCount : ℕ
  overallConfidence : ConfidenceScore
  matchedFeeds : List String
  threatCategories : List String
  intelRiskScoreImpact : ℕ

/-- `ThreatCategory.__members__`. -/
def threatCategoryNames : List String :=
  ["CREDENTIAL_THEFT", "BEC", "QRISHING", "BRAND_IMPERSONATION", "MALWARE", "C2", "RANSOMWARE",
    "TYPOSQUATTING", "LOOKALIKE_DOMAIN", "INVOICE_FRAUD", "SUSPICIOUS_INFRASTRUCTURE", "UNKNOWN"]

/-- `max(values, default=0.0)`. -/
def maxOrZero : List ℚ → ℚ
  | [] => 0
  | q :: qs => qs.foldl max q

/-- The observations that flag the indicator. -/
def flaggedOf (observations : List Observation) : List Observation := observations.filter (·.malicious)

/-- The category of an indicator, by its first flag. -/
def categoryOf (upper : String → String) (observations : List Observation) : String :=
  match flaggedOf observations with
  | [] => "UNKNOWN"
  | o :: _ =>
    if upper o.threatCategory ∈ threatCategoryNames then upper o.threatCategory
    else "SUSPICIOUS_INFRASTRUCTURE"

/-- The body of the loop over the indicators. -/
def detail (upper : String → String) (targetType : TargetType) (target : String)
    (observations : List Observation) : IocTarget :=
  let flagged := flaggedOf observations
  let feeds := sortedSet (flagged.map (·.providerName)).toFinset
  let evidence := flagged.map fun o =>
    "[" ++ o.providerName ++ "] Flagged " ++ targetType.value ++ " '" ++ target ++ "' as " ++
      o.threatCategory
  { target := target
    targetType := targetType
    isMalicious := !flagged.isEmpty
    confidence :=
      { confidence := if flagged.isEmpty then 0 else maxOrZero (observations.filterMap (·.confidence))
        providerCount := observations.length
        evidence := evidence
        explanation :=
          if flagged.isEmpty then "Indicator '" ++ target ++ "' clean across provider checks"
          else "Indicator '" ++ target ++ "' flagged malicious by " ++ toString feeds.length ++
            " providers (" ++ ", ".intercalate feeds ++ ")" }
    matchedFeeds := feeds
    threatCategory := categoryOf upper observations
    observations := observations }

/-- What the loop collects. -/
structure Totals where
  enrichedTargets : List IocTarget
  matchedFeeds : Finset String
  categories : Finset String
  maliciousCount : ℕ
  evidence : List String

/-- One indicator more. -/
def Totals.add (t : Totals) (d : IocTarget) : Totals :=
  if d.isMalicious then
    { enrichedTargets := t.enrichedTargets ++ [d]
      matchedFeeds := t.matchedFeeds ∪ d.matchedFeeds.toFinset
      categories := insert d.threatCategory t.categories
      maliciousCount := t.maliciousCount + 1
      evidence := t.evidence ++ d.confidence.evidence }
  else { t with enrichedTargets := t.enrichedTargets ++ [d] }

/-- The totals of these indicators. -/
def totalsOf (details : List IocTarget) : Totals := details.foldl Totals.add ⟨[], ∅, ∅, 0, []⟩

/-- The indicators, in the order in which they are looked up. -/
def Harvested.targets (h : Harvested) : List (TargetType × String) :=
  h.ips.map (Prod.mk .ip) ++ h.domains.map (Prod.mk .domain) ++ h.urls.map (Prod.mk .url) ++
    h.hashes.map (Prod.mk .hash) ++ h.emails.map (Prod.mk .email)

section Enrich

variable {lower : String → String} (upper : String → String)

/-- The lookups of the loop; `none` is the error of a cache without room. -/
def lookupAll (env : TargetType × String → Lookup Observation) :
    Manager lower Observation → List (TargetType × String) →
      Manager lower Observation × Option (List (List Observation))
  | s, [] => (s, some [])
  | s, p :: ps =>
    let looked := s.lookupIndicator { env p with targetType := p.1, target := p.2 }
    match looked.2.observations with
    | none => (looked.1, none)
    | some observations =>
      let rest := lookupAll env looked.1 ps
      (rest.1, rest.2.map (observations :: ·))

/-- What `enrich` reads of an e-mail, and what happens at its lookups. -/
structure EnrichCall where
  messageId : String
  harvested : Harvested
  originatingIp : Option String
  fromDomain : String
  env : TargetType × String → Lookup Observation

/-- The indicators with what was observed of them. -/
def detailsOf (targets : List (TargetType × String)) (observed : List (List Observation)) :
    List IocTarget := targets.zipWith (fun p observations => detail upper p.1 p.2 observations) observed

/-- Stage 4 of `enrich`. -/
def summarize (providerCount : ℕ) (graph : Graph) (harvested : Harvested) (t : Totals) :
    EnrichmentResult where
  totalIocsHarvested := harvested.targets.length
  harvestedIocs := harvested
  graphNodeCount := graph.nodes.keys.length
  graphEdgeCount := graph.edges.length
  enrichedTargets := t.enrichedTargets
  maliciousIocCount := t.maliciousCount
  overallConfidence :=
    { confidence := maxOrZero ((t.enrichedTargets.filter (·.isMalicious)).map (·.confidence.confidence))
      providerCount := providerCount
      evidence := t.evidence
      explanation :=
        if 0 < t.maliciousCount then
          "Detected " ++ toString t.maliciousCount ++ " malicious IOCs across " ++
            toString t.matchedFeeds.card ++ " threat feeds"
        else "Zero malicious IOCs detected across threat intelligence feeds" }
  matchedFeeds := sortedSet t.matchedFeeds
  threatCategories := sortedSet t.categories
  intelRiskScoreImpact := min 50 (t.maliciousCount * 20)

/-- `enrich`, with the manager after it. -/
def enrich (s : Manager lower Observation) (c : EnrichCall) :
    Manager lower Observation × Option EnrichmentResult :=
  let graph := buildGraph lower upper c.messageId c.harvested c.originatingIp c.fromDomain
  let looked := lookupAll c.env s c.harvested.targets
  (looked.1, looked.2.map fun observed =>
    summarize looked.1.registry.getAllProviders.length graph c.harvested
      (totalsOf (detailsOf upper c.harvested.targets observed)))

end Enrich

/-! ### Totals -/

theorem le_foldl_max (qs : List ℚ) (q : ℚ) : q ≤ qs.foldl max q ∧ ∀ p ∈ qs, p ≤ qs.foldl max q := by
  induction qs generalizing q with
  | nil => simp
  | cons p qs ih =>
    obtain ⟨hfirst, hrest⟩ := ih (max q p)
    refine ⟨(le_max_left q p).trans hfirst, fun p' hp' => ?_⟩
    rcases List.mem_cons.1 hp' with rfl | hp'
    · exact (le_max_right q p').trans hfirst
    · exact hrest p' hp'

theorem foldl_max_mem (qs : List ℚ) (q : ℚ) : qs.foldl max q ∈ q :: qs := by
  induction qs generalizing q with
  | nil => simp
  | cons p qs ih =>
    rcases List.mem_cons.1 (ih (max q p)) with heq | hmem
    · rw [List.foldl_cons, heq]
      rcases max_choice q p with h | h <;> simp [h]
    · exact List.mem_cons_of_mem _ (List.mem_cons_of_mem _ hmem)

theorem le_maxOrZero {l : List ℚ} {q : ℚ} (h : q ∈ l) : q ≤ maxOrZero l := by
  cases l with
  | nil => cases h
  | cons p qs =>
    rcases List.mem_cons.1 h with rfl | h
    · exact (le_foldl_max qs q).1
    · exact (le_foldl_max qs p).2 q h

/-- The maximum is one of the numbers, if there are any. -/
theorem maxOrZero_mem (l : List ℚ) : maxOrZero l = 0 ∨ maxOrZero l ∈ l := by
  cases l with
  | nil => exact .inl rfl
  | cons q qs => exact .inr (foldl_max_mem qs q)

section Totals

variable {upper : String → String} {targetType : TargetType} {target : String}
  {observations : List Observation} {details : List IocTarget}

theorem isMalicious_detail :
    (detail upper targetType target observations).isMalicious = true ↔
      ∃ o ∈ observations, o.malicious = true := by
  simp [detail, flaggedOf]

theorem mem_matchedFeeds_detail {feed : String} :
    feed ∈ (detail upper targetType target observations).matchedFeeds ↔
      ∃ o ∈ observations, o.malicious = true ∧ o.providerName = feed := by
  simp [detail, flaggedOf, and_assoc]

theorem threatCategory_detail_mem :
    (detail upper targetType target observations).threatCategory ∈ threatCategoryNames := by
  show categoryOf upper observations ∈ threatCategoryNames
  unfold categoryOf
  split
  · decide
  · split_ifs with h
    · exact h
    · decide

/-- The totals, of all indicators and of the flagged ones. -/
theorem totalsOf_eq : totalsOf details =
    { enrichedTargets := details
      matchedFeeds := ((details.filter (·.isMalicious)).flatMap (·.matchedFeeds)).toFinset
      categories := ((details.filter (·.isMalicious)).map (·.threatCategory)).toFinset
      maliciousCount := (details.filter (·.isMalicious)).length
      evidence := (details.filter (·.isMalicious)).flatMap (·.confidence.evidence) } := by
  induction details using List.reverseRecOn with
  | nil => rfl
  | append_singleton details d ih =>
    rw [totalsOf, List.foldl_concat, ← totalsOf, ih, Totals.add]
    split_ifs with hmal
    · simp [hmal, Finset.union_singleton]
    · simp [hmal]

end Totals

/-! ## What a result says -/

/-- A result adds up: its indicators are those that were looked up, each once and in order; it counts
those that some provider flags, and names the providers that flag them, and categories of the
enterprise taxonomy; its confidence is the highest in a flagged indicator; and its impact is `20` for
each flagged indicator, and at most `50`. -/
structure EnrichmentResult.AddsUp (r : EnrichmentResult) (harvested : Harvested) : Prop where
  targets : r.enrichedTargets.map (fun t => (t.targetType, t.target)) = harvested.targets
  total : r.totalIocsHarvested = r.enrichedTargets.length
  flagged : ∀ t ∈ r.enrichedTargets,
    (t.isMalicious = true ↔ ∃ o ∈ t.observations, o.malicious = true)
  count : r.maliciousIocCount = (r.enrichedTargets.filter (·.isMalicious)).length
  feeds_sorted : r.matchedFeeds.Pairwise (· < ·)
  feeds : ∀ feed, feed ∈ r.matchedFeeds ↔
    ∃ t ∈ r.enrichedTargets, ∃ o ∈ t.observations, o.malicious = true ∧ o.providerName = feed
  categories_sorted : r.threatCategories.Pairwise (· < ·)
  categories : ∀ category, category ∈ r.threatCategories ↔
    ∃ t ∈ r.enrichedTargets, t.isMalicious = true ∧ category = t.threatCategory
  taxonomy : r.threatCategories ⊆ threatCategoryNames
  confidence_le : ∀ t ∈ r.enrichedTargets, t.isMalicious = true →
    t.confidence.confidence ≤ r.overallConfidence.confidence
  confidence_mem : r.overallConfidence.confidence = 0 ∨ ∃ t ∈ r.enrichedTargets,
    t.isMalicious = true ∧ t.confidence.confidence = r.overallConfidence.confidence
  impact : r.intelRiskScoreImpact = min 50 (20 * r.maliciousIocCount)

section Results

variable {lower upper : String → String} {s : Manager lower Observation} {c : EnrichCall}
  {r : EnrichmentResult}

theorem length_lookupAll {env : TargetType × String → Lookup Observation}
    {ps : List (TargetType × String)} {observed : List (List Observation)}
    (h : (lookupAll env s ps).2 = some observed) : observed.length = ps.length := by
  induction ps generalizing s observed with
  | nil =>
    cases h
    rfl
  | cons p ps ih =>
    unfold lookupAll at h
    dsimp only at h
    split at h
    · cases h
    · obtain ⟨rest, hrest, rfl⟩ := Option.map_eq_some_iff.1 h
      rw [List.length_cons, ih hrest, List.length_cons]

theorem map_detailsOf {targets : List (TargetType × String)} {observed : List (List Observation)}
    (h : observed.length = targets.length) :
    (detailsOf upper targets observed).map (fun t => (t.targetType, t.target)) = targets := by
  induction targets generalizing observed with
  | nil => simp [detailsOf]
  | cons p targets ih =>
    cases observed with
    | nil => cases h
    | cons observations observed =>
      have hrest := ih (Nat.succ.inj h)
      rw [detailsOf, List.zipWith_cons_cons, List.map_cons]
      exact congrArg (List.cons p) hrest

/-- The targets of a result are details of what was observed. -/
theorem exists_of_mem_detailsOf {targets : List (TargetType × String)}
    {observed : List (List Observation)} {t : IocTarget} (h : t ∈ detailsOf upper targets observed) :
    ∃ p ∈ targets, ∃ observations ∈ observed, t = detail upper p.1 p.2 observations := by
  induction targets generalizing observed with
  | nil => simp [detailsOf] at h
  | cons p targets ih =>
    cases observed with
    | nil => simp [detailsOf] at h
    | cons observations observed =>
      rw [detailsOf, List.zipWith_cons_cons] at h
      rcases List.mem_cons.1 h with rfl | h
      · exact ⟨p, List.mem_cons_self, observations, List.mem_cons_self, rfl⟩
      · obtain ⟨p', hp', observations', hobs, rfl⟩ := ih h
        exact ⟨p', List.mem_cons_of_mem _ hp', observations', List.mem_cons_of_mem _ hobs, rfl⟩

/-- A result adds up. -/
theorem enrich_sums (h : (enrich upper s c).2 = some r) : r.AddsUp c.harvested := by
  obtain ⟨observed, hobserved, rfl⟩ := Option.map_eq_some_iff.1 h
  have hlength := length_lookupAll hobserved
  have hdetails : (totalsOf (detailsOf upper c.harvested.targets observed)).enrichedTargets =
      detailsOf upper c.harvested.targets observed := by
    rw [totalsOf_eq]
  refine ⟨?_, ?_, ?_, ?_, pairwise_sortedSet _, ?_, pairwise_sortedSet _,
    ?_, ?_, ?_, ?_, ?_⟩
  · rw [summarize, hdetails]
    exact map_detailsOf hlength
  · rw [summarize, hdetails, detailsOf, List.length_zipWith, hlength, min_self]
  · intro t ht
    rw [summarize, hdetails] at ht
    obtain ⟨p, -, observations, -, rfl⟩ := exists_of_mem_detailsOf ht
    exact isMalicious_detail
  · rw [summarize, totalsOf_eq]
  · intro feed
    rw [summarize, mem_sortedSet, totalsOf_eq]
    simp only [List.mem_toFinset, List.mem_flatMap, List.mem_filter, and_assoc]
    constructor
    · rintro ⟨d, hd, -, hfeed⟩
      obtain ⟨p, -, observations, -, rfl⟩ := exists_of_mem_detailsOf hd
      exact ⟨_, hd, mem_matchedFeeds_detail.1 hfeed⟩
    · rintro ⟨d, hd, o, ho, hmal, hname⟩
      obtain ⟨p, -, observations, -, rfl⟩ := exists_of_mem_detailsOf hd
      exact ⟨_, hd, isMalicious_detail.2 ⟨o, ho, hmal⟩,
        mem_matchedFeeds_detail.2 ⟨o, ho, hmal, hname⟩⟩
  · intro category
    rw [summarize, mem_sortedSet, totalsOf_eq]
    simp only [List.mem_toFinset, List.mem_map, List.mem_filter, and_assoc, eq_comm]
  · intro category hcategory
    rw [summarize, mem_sortedSet, totalsOf_eq] at hcategory
    simp only [List.mem_toFinset, List.mem_map, List.mem_filter] at hcategory
    obtain ⟨d, ⟨hd, -⟩, rfl⟩ := hcategory
    obtain ⟨p, -, observations, -, rfl⟩ := exists_of_mem_detailsOf hd
    exact threatCategory_detail_mem
  · intro t ht hmal
    exact le_maxOrZero (List.mem_map_of_mem (List.mem_filter.2 ⟨ht, hmal⟩))
  · rcases maxOrZero_mem (((totalsOf (detailsOf upper c.harvested.targets
      observed)).enrichedTargets.filter (·.isMalicious)).map (·.confidence.confidence)) with hzero | hmem
    · exact .inl hzero
    · obtain ⟨t, ht, heq⟩ := List.mem_map.1 hmem
      obtain ⟨ht, hmal⟩ := List.mem_filter.1 ht
      exact .inr ⟨t, ht, hmal, heq⟩
  · show min 50 ((totalsOf _).maliciousCount * 20) = min 50 (20 * (totalsOf _).maliciousCount)
    rw [Nat.mul_comm]

/-! ## Runs -/

/-- What holds of all observations in the cache. -/
def Manager.Knows {ω : Type*} (P : ω → Prop) (s : Manager lower ω) : Prop :=
  ∀ key entry, s.cache.cache.get? key = some entry → ∀ o ∈ entry.observations, P o

/-- What holds of all that the providers answer in a lookup. -/
def Lookup.Tells {ω : Type*} (P : ω → Prop) (a : Lookup ω) : Prop :=
  ∀ name o, (a.attempts name).outcome = .ok (some o) → P o

section Knows

variable {ω : Type*} {P : ω → Prop} {m : Manager lower ω} {a : Lookup ω}

theorem observation_consult {g : Guards} {name : String} {attempt : Attempt ω} {o : ω}
    (h : (g.consult name attempt).2.observation = some o) : attempt.outcome = .ok (some o) := by
  unfold Guards.consult at h
  dsimp only at h
  split_ifs at h
  · cases h
  · cases h
  · cases hout : attempt.outcome with
    | ok obs =>
      rw [hout] at h
      exact congrArg Except.ok h
    | error exc =>
      rw [hout] at h
      cases h

theorem mem_observationsOf {attempts : String → Attempt ω} {names : List String} {g : Guards} {o : ω}
    (h : o ∈ observationsOf (g.consultAll attempts names).2) :
    ∃ name, (attempts name).outcome = .ok (some o) := by
  induction names generalizing g with
  | nil => simp [Guards.consultAll, observationsOf] at h
  | cons name rest ih =>
    obtain ⟨turn, hturn, hobs⟩ := List.mem_filterMap.1 h
    rw [Guards.consultAll] at hturn
    rcases List.mem_cons.1 hturn with rfl | hturn
    · exact ⟨name, observation_consult hobs⟩
    · exact ih (List.mem_filterMap.2 ⟨turn, hturn, hobs⟩)

/-- A lookup answers only what is known or told, and knows no more after it. -/
theorem lookup_knows (hm : m.Knows P) (ha : a.Tells P) :
    (m.lookupIndicator a).1.Knows P ∧
      ∀ observations, (m.lookupIndicator a).2.observations = some observations →
        ∀ o ∈ observations, P o := by
  have hasked : ∀ o ∈ observationsOf (m.guards.consultAll a.attempts
      m.registry.getAllProviders).2, P o := by
    intro o ho
    obtain ⟨name, hname⟩ := mem_observationsOf ho
    exact ha name o hname
  rcases m.lookupIndicator_cases a with
    ⟨cached, hhit, hlookup⟩ | ⟨-, asked, rfl, ⟨cache, hput, hlookup⟩ | hlookup⟩
  · rw [hlookup]
    refine ⟨fun key entry hget => hm key entry (ReputationCache.get?_of_get hget), ?_⟩
    rintro observations ⟨⟩
    obtain ⟨entry, hget, -, rfl⟩ := ReputationCache.get_eq_some_iff.1 hhit
    exact hm _ entry hget
  · rw [hlookup]
    refine ⟨fun key entry hget => ?_, ?_⟩
    · rcases ReputationCache.get?_of_put hput hget with ⟨-, rfl⟩ | ⟨-, hold⟩
      · exact hasked
      · exact hm key entry (ReputationCache.get?_of_get hold)
    · rintro observations ⟨⟩
      exact hasked
  · rw [hlookup]
    exact ⟨fun key entry hget => hm key entry (ReputationCache.get?_of_get hget), by rintro _ ⟨⟩⟩

end Knows

variable {P : Observation → Prop}

/-- What holds of all that the providers answer in a call. -/
def EnrichCall.Tells (P : Observation → Prop) (c : EnrichCall) : Prop := ∀ p, (c.env p).Tells P

theorem lookupAll_knows {env : TargetType × String → Lookup Observation}
    {ps : List (TargetType × String)} (hs : s.Knows P) (henv : ∀ p, (env p).Tells P) :
    (lookupAll env s ps).1.Knows P ∧ ∀ observed, (lookupAll env s ps).2 = some observed →
      ∀ observations ∈ observed, ∀ o ∈ observations, P o := by
  induction ps generalizing s with
  | nil =>
    refine ⟨hs, ?_⟩
    rintro observed ⟨⟩ observations ⟨⟩
  | cons p ps ih =>
    obtain ⟨hnext, hobs⟩ := lookup_knows (a := { env p with targetType := p.1, target := p.2 }) hs
      (henv p)
    unfold lookupAll
    dsimp only
    split
    · exact ⟨hnext, by rintro _ ⟨⟩⟩
    · next observations hfound =>
      obtain ⟨hlast, hrest⟩ := ih hnext
      refine ⟨hlast, fun observed hobserved => ?_⟩
      obtain ⟨rest, hsome, rfl⟩ := Option.map_eq_some_iff.1 hobserved
      intro l hl
      rcases List.mem_cons.1 hl with rfl | hl
      · exact hobs _ hfound
      · exact hrest rest hsome l hl

/-- A run knows no more than what was known before it and told in it. -/
theorem knows_run {calls : List EnrichCall} (hs : s.Knows P) (hcalls : ∀ c ∈ calls, c.Tells P) :
    (Machine.run (enrich upper) s calls).Knows P := by
  induction calls generalizing s with
  | nil => exact hs
  | cons c calls ih =>
    have hnext : (enrich upper s c).1.Knows P := (lookupAll_knows hs (hcalls c List.mem_cons_self)).1
    exact ih hnext fun c' hc' => hcalls c' (List.mem_cons_of_mem _ hc')

/-- **What is reported was told**: what holds of all that is known before a call, and of all that the
providers answer in it, holds of all observations in its result, and these say what the result says
of an indicator. -/
theorem enrich_forall (hs : s.Knows P) (hc : c.Tells P) (hresult : (enrich upper s c).2 = some r) :
    ∀ t ∈ r.enrichedTargets, t = detail upper t.targetType t.target t.observations ∧
      ∀ o ∈ t.observations, P o := by
  obtain ⟨observed, hobserved, rfl⟩ := Option.map_eq_some_iff.1 hresult
  intro t ht
  rw [summarize, totalsOf_eq] at ht
  obtain ⟨p, -, observations, hmem, rfl⟩ := exists_of_mem_detailsOf ht
  exact ⟨rfl, (lookupAll_knows hs hc).2 observed hobserved observations hmem⟩

/-- A confidence between `0` and `1` and a finite age, if there are any. -/
structure Observation.InBounds (o : Observation) : Prop where
  confidence : ∀ q ∈ o.confidence, 0 ≤ q ∧ q ≤ 1
  age : o.domainAgeDays ≠ some (.float .inf) ∧ o.domainAgeDays ≠ some (.float .negInf)

/-- The confidence in an indicator is between `0` and `1` if those of its observations are. -/
theorem confidence_detail_mem {targetType : TargetType} {target : String}
    {observations : List Observation} (h : ∀ o ∈ observations, o.InBounds) :
    0 ≤ (detail upper targetType target observations).confidence.confidence ∧
      (detail upper targetType target observations).confidence.confidence ≤ 1 := by
  have hmax : 0 ≤ maxOrZero (observations.filterMap (·.confidence)) ∧
      maxOrZero (observations.filterMap (·.confidence)) ≤ 1 := by
    rcases maxOrZero_mem (observations.filterMap (·.confidence)) with hzero | hmem
    · rw [hzero]
      exact ⟨le_refl 0, zero_le_one⟩
    · obtain ⟨o, ho, hq⟩ := List.mem_filterMap.1 hmem
      exact (h o ho).confidence _ hq
  simp only [detail]
  split_ifs
  · exact ⟨le_refl 0, zero_le_one⟩
  · exact hmax

/-- The confidence in a result of a run is between `0` and `1` if the providers' are, and the ages
in it are finite. -/
theorem bounded_of_mem_outputs {calls : List EnrichCall} (hs : s.Knows Observation.InBounds)
    (hcalls : ∀ c ∈ calls, c.Tells Observation.InBounds)
    (hr : some r ∈ Machine.outputs (enrich upper) s calls) :
    (0 ≤ r.overallConfidence.confidence ∧ r.overallConfidence.confidence ≤ 1) ∧
      ∀ t ∈ r.enrichedTargets, ∀ o ∈ t.observations, o.InBounds := by
  obtain ⟨pre, c, post, rfl, hresult⟩ := Machine.exists_of_mem_outputs hr
  have hknows : (Machine.run (enrich upper) s pre).Knows Observation.InBounds :=
    knows_run hs fun c hc => hcalls c (List.mem_append_left _ hc)
  have htold := enrich_forall hknows (hcalls c (by simp)) hresult
  refine ⟨?_, fun t ht => (htold t ht).2⟩
  rcases (enrich_sums hresult).confidence_mem with hzero | ⟨t, ht, -, heq⟩
  · rw [hzero]
    exact ⟨le_refl 0, zero_le_one⟩
  · obtain ⟨hdetail, hobs⟩ := htold t ht
    rw [← heq, hdetail]
    exact confidence_detail_mem hobs

end Results

/-- **Every result of a run adds up, and reports what was told**: whatever the providers and their
guards do, the result of each call is the sum of the observations of the indicators harvested by that
call, and what holds of all observations that the providers make, and of those that were cached
before, holds of all that it reports. -/
theorem enrich_adds_up {lower : String → String} (upper : String → String)
    (s : Manager lower Observation) (calls : List EnrichCall) (P : Observation → Prop)
    (hs : s.Knows P) (hcalls : ∀ c ∈ calls, c.Tells P) :
    ∀ pre c post, calls = pre ++ c :: post → ∀ r,
      (enrich upper (Machine.run (enrich upper) s pre) c).2 = some r →
      r.AddsUp c.harvested ∧
        ∀ t ∈ r.enrichedTargets, t = detail upper t.targetType t.target t.observations ∧
          ∀ o ∈ t.observations, P o := by
  rintro pre c post rfl r hresult
  have hknows : (Machine.run (enrich upper) s pre).Knows P :=
    knows_run hs fun c hc => hcalls c (List.mem_append_left _ hc)
  exact ⟨enrich_sums hresult, enrich_forall hknows (hcalls c (by simp)) hresult⟩

/-- A manager with one provider. -/
def someManager : Manager id Observation :=
  ⟨Registry.empty.register "PhishTank", .init 300 10, ⟨∅, ∅⟩⟩

/-- A provider flags an address. -/
def someObservation : Observation := ⟨"PhishTank", true, some (9 / 10), "c2", some (.int 5)⟩

/-- An e-mail with one address, which the provider flags. -/
def someCall : EnrichCall where
  messageId := "m1"
  harvested := ⟨["192.0.2.1"], [], [], [], []⟩
  originatingIp := none
  fromDomain := ""
  env _ := ⟨"", .ip, 0, 0, fun _ => ⟨0, 0, 0, 0, .ok (some someObservation)⟩⟩

theorem knows_someManager {P : Observation → Prop} : someManager.Knows P := by
  intro key entry h
  cases h

theorem exists_result :
    ∃ r, some r ∈ Machine.outputs (enrich Text.asciiUpper) someManager [someCall] ∧
      r.maliciousIocCount = 1 := by
  have hcount : (enrich Text.asciiUpper someManager someCall).2.map (·.maliciousIocCount) = some 1 := by
    decide +kernel
  obtain ⟨r, hr, hone⟩ := Option.map_eq_some_iff.1 hcount
  exact ⟨r, by simp [Machine.outputs, hr], hone⟩

theorem someCall_tells {P : Observation → Prop} (h : P someObservation) :
    someCall.Tells P := by
  rintro p name o ⟨⟩
  exact h

/-- A flagged address is counted, and reported as the provider told, when it is looked up again. -/
theorem enrich_adds_up_flagged :
    ∃ r, (enrich Text.asciiUpper
        (Machine.run (enrich Text.asciiUpper) someManager [someCall]) someCall).2 = some r ∧
      r.intelRiskScoreImpact = 20 ∧
      ∀ t ∈ r.enrichedTargets, ∀ o ∈ t.observations, o.providerName = "PhishTank" := by
  have hcount : (enrich Text.asciiUpper (Machine.run (enrich Text.asciiUpper) someManager [someCall])
      someCall).2.map (·.maliciousIocCount) = some 1 := by decide +kernel
  obtain ⟨r, hr, hone⟩ := Option.map_eq_some_iff.1 hcount
  have htells : ∀ c ∈ [someCall, someCall], c.Tells fun o => o.providerName = "PhishTank" := by
    intro c hc
    have : c = someCall := by simpa using hc
    rw [this]
    exact someCall_tells rfl
  obtain ⟨hsums, htold⟩ := enrich_adds_up Text.asciiUpper someManager [someCall, someCall]
    (fun o => o.providerName = "PhishTank") knows_someManager htells [someCall] someCall [] rfl r hr
  exact ⟨r, hr, hsums.impact.trans (by rw [hone]; rfl), fun t ht => (htold t ht).2⟩

end ScamOn.ThreatIntel
