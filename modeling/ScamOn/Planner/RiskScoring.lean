import Mathlib.Algebra.BigOperators.Group.Finset.Piecewise
import Mathlib.Algebra.Order.BigOperators.Group.Finset
import ScamOn.Lib.JsonValue
import ScamOn.Lib.Rounding
import ScamOn.Lib.Text
import ScamOn.Planner.Models

/-!
# The weighted risk score

`RiskScoringEngine` scores a tuple of evidence.  An item belongs to one of twelve
factors, by its category; a factor is scored once, by its first item above INFO, with
the weight of the factor times the multiplier of that item's severity.

* `RiskScoringEngine.create` merges a table of weights over the default one, and refuses
  a negative weight; the structure carries what it checked.
* `lead` is the severity a factor is scored by, and `sum_contributions` writes the points
  of a tuple as a sum over the factors of what their leads earn.
* `score_by_leads`: the score and the risk level depend on the leads alone, and a tuple
  whose leads are at least as severe scores at least as much.
* `score_depends_on_order`: two items of one factor, swapped, move the score.
-/

namespace ScamOn.Planner

/-- `Evidence`, with its identifier and its metadata. -/
structure EvidenceRecord extends Evidence where
  evidenceId : String
  metadata : Dict String (JsonValue ℚ)

/-! ## Weights -/

/-- `DEFAULT_WEIGHTS`. -/
def defaultWeights : List (String × ℚ) :=
  [("authentication", 20), ("url", 18), ("impersonation", 18), ("social_engineering", 18),
    ("attachment", 15), ("threat_intelligence", 15), ("campaign", 12), ("sender", 10),
    ("ocr", 8), ("qr", 8), ("historical", 8), ("general", 5)]

/-- The names of the factors. -/
def factors : Finset String := (defaultWeights.map Prod.fst).toFinset

/-- `_SEVERITY_MULTIPLIER`. -/
def EvidenceSeverity.multiplier : EvidenceSeverity → ℚ
  | .info => 0
  | .low => 1 / 4
  | .medium => 1 / 2
  | .high => 4 / 5
  | .critical => 1

/-- `RiskScoringEngine`: the merged weights.  No weight is negative, and every factor has one. -/
structure RiskScoringEngine where
  weights : Dict String ℚ
  nonneg : ∀ f w, weights.get? f = some w → 0 ≤ w
  complete : ∀ f ∈ factors, weights.contains f

/-- `{**DEFAULT_WEIGHTS, **weights}`. -/
def mergedWeights (weights : Dict String ℚ) : Dict String ℚ :=
  (defaultWeights ++ weights.entries).foldl (fun d p => d.set p.1 p.2) ∅

theorem contains_foldl_set {l : List (String × ℚ)} {d : Dict String ℚ} {f : String}
    (h : f ∈ l.map Prod.fst ∨ d.contains f) :
    (l.foldl (fun d p => d.set p.1 p.2) d).contains f := by
  induction l generalizing d with
  | nil => simpa using h
  | cons p l ih =>
    rw [List.foldl_cons]
    by_cases hf : f = p.1
    · exact ih (.inr (by simp [Dict.contains, hf]))
    · refine ih ?_
      simpa [Dict.contains, Dict.get?_set, hf] using h

/-- The defaults give every factor a weight. -/
theorem contains_mergedWeights (weights : Dict String ℚ) {f : String} (hf : f ∈ factors) :
    (mergedWeights weights).contains f := by
  refine contains_foldl_set (.inl ?_)
  rw [List.map_append]
  exact List.mem_append_left _ (List.mem_toFinset.1 hf)

/-- The constructor of the engine. -/
def RiskScoringEngine.create (weights : Dict String ℚ) : Except PyException RiskScoringEngine :=
  if h : ∀ p ∈ (mergedWeights weights).entries, 0 ≤ p.2 then
    .ok {
      weights := mergedWeights weights
      nonneg := fun _ _ hw => h _ (Dict.mem_entries_iff.2 hw)
      complete := fun _ hf => contains_mergedWeights weights hf
    }
  else .error ⟨"ValueError", "Risk weights must be non-negative."⟩

/-! ## Factors -/

section Scoring

variable (casefold : String → String)

/-- `_factor`. -/
def factorOf (item : EvidenceRecord) : String :=
  let category := casefold item.category
  if ["spf", "dkim", "dmarc", "auth"].any (Text.contains category) then "authentication"
  else if Text.contains category "impersonation" || Text.contains category "brand" then
    "impersonation"
  else if Text.contains category "social_engineering" || Text.contains category "behavior" then
    "social_engineering"
  else if Text.contains category "threat_intelligence" then "threat_intelligence"
  else if Text.contains category "campaign" then "campaign"
  else if Text.contains category "historical" then "historical"
  else if Text.contains category "attachment" then "attachment"
  else if Text.contains category "sender" || Text.contains category "domain" then "sender"
  else if Text.contains category "ocr" then "ocr"
  else if Text.contains category "qr" then "qr"
  else if Text.contains category "url" then "url"
  else "general"

theorem ite_mem {p : Prop} [Decidable p] {a b : String} {s : Finset String} (ha : a ∈ s)
    (hb : b ∈ s) : (if p then a else b) ∈ s := by
  split_ifs
  · exact ha
  · exact hb

/-- Every item has one of the twelve factors. -/
theorem factorOf_mem (item : EvidenceRecord) : factorOf casefold item ∈ factors := by
  rw [factorOf]
  repeat' refine ite_mem ?_ ?_
  all_goals simp [factors, defaultWeights]

/-! ## The score -/

/-- One entry of the breakdown. -/
structure Contribution where
  factor : String
  points : ℚ
  weight : ℚ
  evidenceId : String
  reason : String
  deriving DecidableEq

/-- `RiskScore`. -/
structure RiskScore where
  score : ℚ
  confidence : ℚ
  riskLevel : String
  reasons : List String
  breakdown : List Contribution
  deriving DecidableEq

/-- `self._weights.get(factor, self._weights["general"])`. -/
def RiskScoringEngine.weight (engine : RiskScoringEngine) (factor : String) : ℚ :=
  (engine.weights.get? factor).getD ((engine.weights.get? "general").getD 0)

/-- The points of a factor that is scored by an item of some severity. -/
def RiskScoringEngine.points (engine : RiskScoringEngine) (factor : String)
    (severity : EvidenceSeverity) : ℚ :=
  roundDigits 2 (engine.weight factor * severity.multiplier)

/-- The loop of `score`, with the factors that it has seen. -/
def RiskScoringEngine.contributions (engine : RiskScoringEngine) :
    List String → List EvidenceRecord → List Contribution
  | _, [] => []
  | seenFactors, item :: evidence =>
    let factor := factorOf casefold item
    if factor ∈ seenFactors then engine.contributions seenFactors evidence
    else if item.severity.multiplier ≤ 0 then engine.contributions seenFactors evidence
    else
      {
        factor := factor
        points := engine.points factor item.severity
        weight := engine.weight factor
        evidenceId := item.evidenceId
        reason := item.description
      } :: engine.contributions (factor :: seenFactors) evidence

/-- The level of a score. -/
def scoredRiskLevel (total : ℚ) : String :=
  if 75 ≤ total then "critical"
  else if 50 ≤ total then "high"
  else if 25 ≤ total then "medium"
  else "low"

/-- `score`. -/
def RiskScoringEngine.score (engine : RiskScoringEngine) (evidence : List EvidenceRecord) :
    RiskScore :=
  let contributions := engine.contributions casefold [] evidence
  let total := min 100 (roundDigits 2 (contributions.map Contribution.points).sum)
  {
    score := total
    confidence := min (99 / 100) (roundDigits 2 (1 / 2 + (min contributions.length 5 : ℕ) * (1 / 10)))
    riskLevel := scoredRiskLevel total
    reasons := contributions.map Contribution.reason
    breakdown := contributions
  }

/-! ## What a factor is scored by -/

/-- The severity of the first item of a factor that is above INFO, and INFO if there is none. -/
def lead (factor : String) : List EvidenceRecord → EvidenceSeverity
  | [] => .info
  | item :: evidence =>
    if factorOf casefold item = factor ∧ 0 < item.severity.multiplier then item.severity
    else lead factor evidence

variable {casefold}
variable (engine : RiskScoringEngine)

theorem EvidenceSeverity.multiplier_nonneg (severity : EvidenceSeverity) :
    0 ≤ severity.multiplier := by
  cases severity <;> norm_num [EvidenceSeverity.multiplier]

/-- A factor's own weight is found, so the fallback is not taken. -/
theorem RiskScoringEngine.get?_weights {factor : String} (hf : factor ∈ factors) :
    engine.weights.get? factor = some (engine.weight factor) := by
  obtain ⟨w, hw⟩ := Option.isSome_iff_exists.1 (engine.complete factor hf)
  rw [RiskScoringEngine.weight, hw, Option.getD_some]

theorem RiskScoringEngine.weight_nonneg {factor : String} (hf : factor ∈ factors) :
    0 ≤ engine.weight factor :=
  engine.nonneg factor _ (engine.get?_weights hf)

/-- A factor earns more for a more severe item. -/
theorem RiskScoringEngine.points_mono {factor : String} (hf : factor ∈ factors)
    {s t : EvidenceSeverity} (h : s.multiplier ≤ t.multiplier) :
    engine.points factor s ≤ engine.points factor t :=
  roundDigits_mono 2 (mul_le_mul_of_nonneg_left h (engine.weight_nonneg hf))

/-- A factor that only INFO items speak for earns nothing. -/
theorem RiskScoringEngine.points_info (factor : String) : engine.points factor .info = 0 := by
  rw [RiskScoringEngine.points, EvidenceSeverity.multiplier, mul_zero, roundDigits_zero]

theorem lead_cons_self {item : EvidenceRecord} (h : 0 < item.severity.multiplier)
    (evidence : List EvidenceRecord) :
    lead casefold (factorOf casefold item) (item :: evidence) = item.severity :=
  if_pos ⟨rfl, h⟩

theorem lead_cons_of_ne {item : EvidenceRecord} {f : String} (h : factorOf casefold item ≠ f)
    (evidence : List EvidenceRecord) :
    lead casefold f (item :: evidence) = lead casefold f evidence :=
  if_neg fun hand => h hand.1

theorem lead_cons_of_info {item : EvidenceRecord} (h : item.severity.multiplier ≤ 0) (f : String)
    (evidence : List EvidenceRecord) :
    lead casefold f (item :: evidence) = lead casefold f evidence :=
  if_neg fun hand => not_lt.2 h hand.2

/-- **The points of a tuple**: each factor that was not seen before earns the points of its lead. -/
theorem RiskScoringEngine.sum_contributions (seenFactors : List String)
    (evidence : List EvidenceRecord) :
    ((engine.contributions casefold seenFactors evidence).map Contribution.points).sum =
      ∑ f ∈ factors, if f ∈ seenFactors then 0 else engine.points f (lead casefold f evidence) := by
  induction evidence generalizing seenFactors with
  | nil => simp [RiskScoringEngine.contributions, lead, RiskScoringEngine.points_info]
  | cons item evidence ih =>
    rw [RiskScoringEngine.contributions]
    by_cases hseen : factorOf casefold item ∈ seenFactors
    · -- The item is skipped, and it can only lead a factor that was seen.
      rw [if_pos hseen, ih]
      refine Finset.sum_congr rfl fun f _ => ?_
      by_cases hf : f ∈ seenFactors
      · rw [if_pos hf, if_pos hf]
      · have hne : factorOf casefold item ≠ f := fun heq => hf (heq ▸ hseen)
        rw [if_neg hf, if_neg hf, lead_cons_of_ne hne]
    · by_cases hinfo : item.severity.multiplier ≤ 0
      · rw [if_neg hseen, if_pos hinfo, ih]
        simp only [lead_cons_of_info hinfo]
      · rw [if_neg hseen, if_neg hinfo, List.map_cons, List.sum_cons, ih]
        -- The factor of the item leaves the sum over the rest, and earns its points here.
        have hsplit : ∀ f ∈ factors,
            (if f ∈ seenFactors then 0 else engine.points f (lead casefold f (item :: evidence))) =
              (if f = factorOf casefold item then engine.points f item.severity else 0) +
                (if f ∈ factorOf casefold item :: seenFactors then 0
                  else engine.points f (lead casefold f evidence)) := by
          intro f _
          by_cases hf : f = factorOf casefold item
          · subst hf
            rw [if_neg hseen, if_pos rfl, if_pos (List.mem_cons_self ..),
              lead_cons_self (not_le.1 hinfo), add_zero]
          · have hmem : f ∈ factorOf casefold item :: seenFactors ↔ f ∈ seenFactors := by simp [hf]
            rw [if_neg hf, lead_cons_of_ne (Ne.symm hf), zero_add]
            simp only [hmem]
        rw [Finset.sum_congr rfl hsplit, Finset.sum_add_distrib, Finset.sum_ite_eq',
          if_pos (factorOf_mem casefold item)]

/-- The total, from the leads. -/
theorem RiskScoringEngine.score_eq (evidence : List EvidenceRecord) :
    (engine.score casefold evidence).score =
      min 100 (roundDigits 2 (∑ f ∈ factors, engine.points f (lead casefold f evidence))) := by
  have hsum := @RiskScoringEngine.sum_contributions casefold engine [] evidence
  simp only [List.not_mem_nil, if_false] at hsum
  rw [← hsum]
  rfl

theorem RiskScoringEngine.riskLevel_eq (evidence : List EvidenceRecord) :
    (engine.score casefold evidence).riskLevel =
      scoredRiskLevel (engine.score casefold evidence).score := by
  rw [RiskScoringEngine.score]

/-! ## Bounds and the breakdown -/

/-! ## What the score depends on -/

/-- More items at the end do not change what leads a factor, unless nothing did. -/
theorem multiplier_lead_append (f : String) (evidence more : List EvidenceRecord) :
    (lead casefold f evidence).multiplier ≤ (lead casefold f (evidence ++ more)).multiplier := by
  induction evidence with
  | nil => exact EvidenceSeverity.multiplier_nonneg _
  | cons item evidence ih =>
    rw [List.cons_append, lead, lead]
    split_ifs
    · exact le_rfl
    · exact ih

/-- **The score by its leads.**  Two tuples in which every factor is led by the same severity have
the same score and risk level; a tuple in which every lead is at least as severe scores at least as
much, as it does when items are added at its end. -/
theorem score_by_leads (casefold : String → String) (engine : RiskScoringEngine)
    (evidence : List EvidenceRecord) :
    (∀ evidence', (∀ f, lead casefold f evidence = lead casefold f evidence') →
      (engine.score casefold evidence).score = (engine.score casefold evidence').score ∧
        (engine.score casefold evidence).riskLevel = (engine.score casefold evidence').riskLevel) ∧
    (∀ evidence',
      (∀ f, (lead casefold f evidence).multiplier ≤ (lead casefold f evidence').multiplier) →
        (engine.score casefold evidence).score ≤ (engine.score casefold evidence').score) ∧
    ∀ more, (engine.score casefold evidence).score ≤
      (engine.score casefold (evidence ++ more)).score := by
  have hmono : ∀ evidence',
      (∀ f, (lead casefold f evidence).multiplier ≤ (lead casefold f evidence').multiplier) →
        (engine.score casefold evidence).score ≤ (engine.score casefold evidence').score := by
    intro evidence' hlead
    rw [engine.score_eq, engine.score_eq]
    refine min_le_min_left 100 (roundDigits_mono 2 (Finset.sum_le_sum fun f hf => ?_))
    exact engine.points_mono hf (hlead f)
  refine ⟨?_, hmono, fun more => hmono _ fun f => multiplier_lead_append f evidence more⟩
  intro evidence' hlead
  have hscore : (engine.score casefold evidence).score =
      (engine.score casefold evidence').score := by
    rw [engine.score_eq, engine.score_eq]
    simp only [hlead]
  refine ⟨hscore, ?_⟩
  rw [engine.riskLevel_eq, engine.riskLevel_eq, hscore]

end Scoring

/-! ## Order matters -/

/-- The engine without weights of its own. -/
def defaultEngine : RiskScoringEngine where
  weights := mergedWeights ∅
  nonneg := by
    have hall : ∀ p ∈ (mergedWeights ∅).entries, (0 : ℚ) ≤ p.2 := by decide
    exact fun _ _ hw => hall _ (Dict.mem_entries_iff.2 hw)
  complete := fun _ hf => contains_mergedWeights ∅ hf

/-- An item of a category. -/
def bareItem (category : String) (severity : EvidenceSeverity) : EvidenceRecord where
  category := category
  title := "Check"
  description := "Result"
  severity := severity
  source := "analyzer"
  confidence := none
  evidenceId := "ev_1"
  metadata := ∅

/-- Two items of different factors may be swapped, and a critical lead scores at least as much as a
mild one. -/
theorem score_by_leads_items :
    (defaultEngine.score Text.asciiLower [bareItem "spf" .low, bareItem "url" .critical]).score =
        (defaultEngine.score Text.asciiLower [bareItem "url" .critical, bareItem "spf" .low]).score ∧
      (defaultEngine.score Text.asciiLower [bareItem "spf" .low]).score ≤
        (defaultEngine.score Text.asciiLower [bareItem "spf" .critical]).score := by
  have hspf : ∀ s, factorOf Text.asciiLower (bareItem "spf" s) = "authentication" := by
    intro s
    cases s <;> decide
  have hurl : factorOf Text.asciiLower (bareItem "url" .critical) = "url" := by decide
  constructor
  · refine ((score_by_leads Text.asciiLower defaultEngine _).1 _ fun f => ?_).1
    simp only [lead, hspf, hurl]
    by_cases hf : "authentication" = f
    · subst hf
      simp
    · simp [hf]
  · refine (score_by_leads Text.asciiLower defaultEngine _).2.1 _ fun f => ?_
    simp only [lead, hspf]
    by_cases hf : "authentication" = f
    · subst hf
      norm_num [bareItem, EvidenceSeverity.multiplier]
    · simp [hf]

/-- **A mild item in front of a critical one** of the same factor takes its place: the score drops
from 20 to 5, also when the two are only swapped. -/
theorem score_depends_on_order :
    (defaultEngine.score Text.asciiLower [bareItem "spf" .critical]).score = 20 ∧
      (defaultEngine.score Text.asciiLower [bareItem "spf" .critical, bareItem "spf" .low]).score =
        20 ∧
      (defaultEngine.score Text.asciiLower [bareItem "spf" .low, bareItem "spf" .critical]).score =
        5 := by
  decide +kernel

end ScamOn.Planner
