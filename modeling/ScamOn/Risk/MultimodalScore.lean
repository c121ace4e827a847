import Mathlib.Algebra.Order.BigOperators.Group.List
import Mathlib.Tactic.Ring
import ScamOn.Lib.Rounding

/-!
# The multimodal risk score

`DeterministicWeightedScoringStrategy.calculate_multimodal_score` adds up the
positive signals of a message.  A signal contributes its base weight, scaled by
its score and its confidence; the points of each of the seven domains are capped
and rounded; three rules halve a signal that another signal has already
accounted for.

* `calculateMultimodalScore` is the function, with the evidence items and the
  threat categories it returns; `scoreWith` is its score under given scale
  factors.
* `scoreWith_le_of_raw` reduces a comparison of scores to the raw points of each
  domain: ceilings, rounding and the final clamp all keep the order.
* `domainRawPts_on`: turning a signal on adds its points to its own domain, and
  takes from every domain half of the points of the signals it makes a rule damp.
* `score_le_iff`: so it does not lower the score exactly if the points that are
  still added under the ceiling of its domain are at least those taken away in
  the others, or it is `100` all the same.
* `spoof_lowers_score` shows that this can fail.
-/

namespace ScamOn.Risk

/-! ## Signals -/

/-- `SignalDomain`. -/
inductive SignalDomain
  | authentication | transmission | threatIntel | content | media | url | correlation
  deriving DecidableEq, Repr

/-- The domains in the order the source's enumeration lists them. -/
def SignalDomain.all : List SignalDomain :=
  [.authentication, .transmission, .threatIntel, .content, .media, .url, .correlation]

def SignalDomain.value : SignalDomain → String
  | .authentication => "authentication"
  | .transmission => "transmission"
  | .threatIntel => "threat_intel"
  | .content => "content_intelligence"
  | .media => "media_intelligence"
  | .url => "url_intelligence"
  | .correlation => "threat_correlation"

/-- `EvidenceStatus`. -/
inductive EvidenceStatus
  | evaluatedPositive | evaluatedNegative | skipped | unavailable | error
  deriving DecidableEq, Repr

/-- `NormalizedSignalDTO`, with the bounds that the model validates on
construction. -/
structure NormalizedSignal where
  domain : SignalDomain
  signalName : String
  normalizedScore : ℚ
  confidence : ℚ
  weight : ℚ
  status : EvidenceStatus
  explanation : String
  score_mem : 0 ≤ normalizedScore ∧ normalizedScore ≤ 1
  confidence_mem : 0 ≤ confidence ∧ confidence ≤ 1
  weight_nonneg : 0 ≤ weight

/-- `RiskEvidenceDTO`. -/
structure RiskEvidence where
  sourceModule : String
  featureName : String
  appliedWeight : ℤ
  confidence : ℚ
  explanation : String
  deriving DecidableEq

/-- `DOMAIN_CEILINGS`. -/
def domainCeiling : SignalDomain → ℚ
  | .authentication => 30
  | .transmission => 40
  | .threatIntel => 35
  | .content => 25
  | .media => 25
  | .url => 35
  | .correlation => 20

/-- `BASE_SIGNAL_WEIGHTS`. -/
def baseSignalWeights : List (String × ℕ) :=
  [("dmarc_result", 30), ("spf_result", 15), ("dkim_result", 15), ("arc_chain_valid", 10),
    ("is_display_name_spoofed", 40), ("is_reply_to_mismatched", 25),
    ("is_thread_hijack_suspect", 25), ("header_integrity_score", 15),
    ("malicious_ioc_count", 35), ("whois_age_days", 15),
    ("urgency_score", 15), ("financial_coercion_score", 20), ("has_hidden_dom_text", 15),
    ("tracking_beacons", 5), ("ocr_phishing_detected", 20), ("qr_malicious_destination", 25),
    ("has_credential_form", 30), ("redirect_depth", 15), ("ssrf_violation", 35),
    ("campaign_detected", 20), ("historical_similarity_score", 15)]

/-- The weight of a signal name; unknown names weigh 10. -/
def baseWeight (name : String) : ℚ := ((baseSignalWeights.lookup name).getD 10 : ℕ)

/-! ## Scale factors -/

/-- `signals_map.get(name)`: the last signal of that name. -/
def signalNamed (signals : List NormalizedSignal) (name : String) : Option NormalizedSignal :=
  signals.reverse.find? (·.signalName = name)

/-- A signal of that name exists and scores at least one half, whatever its status. -/
def elevated (signals : List NormalizedSignal) (name : String) : Bool :=
  match signalNamed signals name with
  | some s => 1 / 2 ≤ s.normalizedScore
  | none => false

/-- The scale factors of the three anti-double-counting rules. -/
structure Scales where
  spf : ℚ
  sandboxCred : ℚ
  becLinguistics : ℚ
  deriving DecidableEq

/-- The factors a list of signals gives rise to. -/
def scalesOf (signals : List NormalizedSignal) : Scales where
  -- rule A
  spf := if elevated signals "dmarc_result" && elevated signals "spf_result" then 1 / 2 else 1
  -- rule B
  sandboxCred :=
    if elevated signals "malicious_ioc_count" && elevated signals "has_credential_form" then 1 / 2
    else 1
  -- rule C
  becLinguistics := if elevated signals "is_display_name_spoofed" then 1 / 2 else 1

/-- The factor that applies to a signal name. -/
def scaleFactor (sc : Scales) (name : String) : ℚ :=
  if name = "spf_result" then sc.spf
  else if name = "has_credential_form" then sc.sandboxCred
  else if name = "urgency_score" ∨ name = "financial_coercion_score" then sc.becLinguistics
  else 1

/-! ## The score -/

/-- The contribution of a signal. -/
def signalPts (sc : Scales) (s : NormalizedSignal) : ℚ :=
  baseWeight s.signalName * s.normalizedScore * s.confidence * scaleFactor sc s.signalName

/-- The positive signals of a domain. -/
def domainSignals (signals : List NormalizedSignal) (d : SignalDomain) : List NormalizedSignal :=
  signals.filter fun s => s.domain = d ∧ s.status = .evaluatedPositive

/-- The points of a domain before its ceiling. -/
def domainRawPts (sc : Scales) (signals : List NormalizedSignal) (d : SignalDomain) : ℚ :=
  ((domainSignals signals d).map (signalPts sc)).sum

/-- What is left of the points of a domain under its ceiling, rounded. -/
def cappedPts (d : SignalDomain) (rawPts : ℚ) : ℤ := roundHalfEven (min (domainCeiling d) rawPts)

/-- The points of a domain. -/
def domainFinalPts (sc : Scales) (signals : List NormalizedSignal) (d : SignalDomain) : ℤ :=
  cappedPts d (domainRawPts sc signals d)

/-- The final score under given scale factors. -/
def scoreWith (sc : Scales) (signals : List NormalizedSignal) : ℤ :=
  min 100 (max 0 (SignalDomain.all.map (domainFinalPts sc signals)).sum)

/-- The evidence item of a signal, if its rounded contribution is positive. -/
def evidenceOf (sc : Scales) (d : SignalDomain) (s : NormalizedSignal) : Option RiskEvidence :=
  if 0 < roundHalfEven (signalPts sc s) then
    some {
      sourceModule := d.value
      featureName := s.signalName
      appliedWeight := roundHalfEven (signalPts sc s)
      confidence := roundHalfEven (s.confidence * 100) / 100
      explanation :=
        if s.explanation = "" then s.signalName ++ " threat indicator detected" else s.explanation }
  else none

/-- The category a positive signal is tagged with. -/
def categoryOf (name : String) : Option String :=
  if name ∈ ["is_display_name_spoofed", "is_thread_hijack_suspect", "financial_coercion_score"] then
    some "BEC"
  else if name ∈ ["malicious_ioc_count", "ocr_phishing_detected", "qr_malicious_destination",
      "campaign_detected", "historical_similarity_score"] then
    some "PHISHING"
  else if name ∈ ["has_credential_form", "is_reply_to_mismatched"] then
    some "CREDENTIAL_HARVESTING"
  else none

/-- `calculate_multimodal_score`: the score, the evidence in domain order, and
the sorted categories. -/
def calculateMultimodalScore (signals : List NormalizedSignal) :
    ℤ × List RiskEvidence × List String :=
  let sc := scalesOf signals
  (scoreWith sc signals,
    SignalDomain.all.flatMap fun d => (domainSignals signals d).filterMap (evidenceOf sc d),
    ["BEC", "CREDENTIAL_HARVESTING", "PHISHING"].filter fun cat =>
      signals.any fun s => s.status = .evaluatedPositive ∧ categoryOf s.signalName = some cat)

/-! ## Growing scores -/

theorem scoreWith_le_of_raw {sc sc' : Scales} {v w : List NormalizedSignal}
    (h : ∀ d, domainRawPts sc v d ≤ domainRawPts sc' w d) : scoreWith sc v ≤ scoreWith sc' w := by
  have hdomain : ∀ d, domainFinalPts sc v d ≤ domainFinalPts sc' w d := fun d =>
    roundHalfEven_mono (min_le_min_left _ (h d))
  have hsum : (SignalDomain.all.map (domainFinalPts sc v)).sum ≤
      (SignalDomain.all.map (domainFinalPts sc' w)).sum :=
    List.sum_le_sum fun d _ => hdomain d
  exact min_le_min_left _ (max_le_max_left _ hsum)

theorem baseWeight_nonneg (name : String) : 0 ≤ baseWeight name := Nat.cast_nonneg _

theorem scaleFactor_scalesOf_mem (signals : List NormalizedSignal) (name : String) :
    1 / 2 ≤ scaleFactor (scalesOf signals) name ∧ scaleFactor (scalesOf signals) name ≤ 1 := by
  unfold scaleFactor scalesOf
  split_ifs <;> norm_num

/-- The contribution of a signal without its scale factor. -/
theorem unscaled_nonneg (s : NormalizedSignal) :
    0 ≤ baseWeight s.signalName * s.normalizedScore * s.confidence :=
  mul_nonneg (mul_nonneg (baseWeight_nonneg _) s.score_mem.1) s.confidence_mem.1

theorem signalPts_nonneg (signals : List NormalizedSignal) (s : NormalizedSignal) :
    0 ≤ signalPts (scalesOf signals) s := by
  have hfactor := (scaleFactor_scalesOf_mem signals s.signalName).1
  exact mul_nonneg (unscaled_nonneg s) (by linarith)

theorem domainRawPts_append (sc : Scales) (l m : List NormalizedSignal) (d : SignalDomain) :
    domainRawPts sc (l ++ m) d = domainRawPts sc l d + domainRawPts sc m d := by
  simp [domainRawPts, domainSignals]

theorem domainRawPts_cons (sc : Scales) (s : NormalizedSignal) (l : List NormalizedSignal)
    (d : SignalDomain) :
    domainRawPts sc (s :: l) d =
      (if s.domain = d ∧ s.status = .evaluatedPositive then signalPts sc s else 0) +
        domainRawPts sc l d := by
  by_cases h : s.domain = d ∧ s.status = .evaluatedPositive
  · simp [domainRawPts, domainSignals, h]
  · simp [domainRawPts, domainSignals, h]

/-- Raw points grow when no positive signal's factor falls. -/
theorem domainRawPts_mono_scales {sc sc' : Scales} {l : List NormalizedSignal}
    (h : ∀ t ∈ l, t.status = .evaluatedPositive →
      scaleFactor sc t.signalName ≤ scaleFactor sc' t.signalName) (d : SignalDomain) :
    domainRawPts sc l d ≤ domainRawPts sc' l d := by
  refine List.sum_le_sum fun t ht => ?_
  have hmem : t ∈ l ∧ t.domain = d ∧ t.status = .evaluatedPositive := by
    simpa [domainSignals] using ht
  exact mul_le_mul_of_nonneg_left (h t hmem.1 hmem.2.2) (unscaled_nonneg t)

/-! ## Turning a signal on -/

/-- `s'` is `s` turned on: a signal of a weighted name that was evaluated
negative with score `0` is now evaluated positive. -/
structure TurnsOn (s s' : NormalizedSignal) : Prop where
  weighted : (baseSignalWeights.lookup s.signalName).isSome
  wasNegative : s.status = .evaluatedNegative
  wasZero : s.normalizedScore = 0
  isPositive : s'.status = .evaluatedPositive
  sameName : s'.signalName = s.signalName
  sameDomain : s'.domain = s.domain
  sameConfidence : s'.confidence = s.confidence

/-- The signal `s'`, turned on, makes a rule damp the signal `t`. -/
def Damps (s' t : NormalizedSignal) : Prop :=
  1 / 2 ≤ s'.normalizedScore ∧
    (s'.signalName = "dmarc_result" ∧ t.signalName = "spf_result" ∧ 1 / 2 ≤ t.normalizedScore ∨
      s'.signalName = "malicious_ioc_count" ∧ t.signalName = "has_credential_form" ∧
        1 / 2 ≤ t.normalizedScore ∨
      s'.signalName = "is_display_name_spoofed" ∧
        (t.signalName = "urgency_score" ∨ t.signalName = "financial_coercion_score"))

instance (s' t : NormalizedSignal) : Decidable (Damps s' t) :=
  inferInstanceAs (Decidable (_ ∧ _))

/-- The points that `s'`, turned on, takes from a signal: half of them, if it damps it. -/
def takenFrom (s' t : NormalizedSignal) : ℚ :=
  if Damps s' t then baseWeight t.signalName * t.normalizedScore * t.confidence / 2 else 0

/-- The points that `s'`, turned on, takes from a domain. -/
def takenPts (s' : NormalizedSignal) (rest : List NormalizedSignal) (d : SignalDomain) : ℚ :=
  ((domainSignals rest d).map (takenFrom s')).sum

/-- The points that `s'`, turned on, still adds under the ceiling of its domain. -/
def pointsAdded (l₁ l₂ : List NormalizedSignal) (s s' : NormalizedSignal) : ℤ :=
  let before := domainRawPts (scalesOf (l₁ ++ s :: l₂)) (l₁ ++ s :: l₂) s.domain
  cappedPts s.domain
      (before + signalPts (scalesOf (l₁ ++ s' :: l₂)) s' - takenPts s' (l₁ ++ l₂) s.domain) -
    cappedPts s.domain before

/-- The points that `s'`, turned on, takes away under the ceilings of the other domains. -/
def pointsTaken (l₁ l₂ : List NormalizedSignal) (s s' : NormalizedSignal) : ℤ :=
  ((SignalDomain.all.filter (· ≠ s.domain)).map fun d =>
    let before := domainRawPts (scalesOf (l₁ ++ s :: l₂)) (l₁ ++ s :: l₂) d
    cappedPts d before - cappedPts d (before - takenPts s' (l₁ ++ l₂) d)).sum

/-- The points of all domains, before they are limited to `100`. -/
def totalPts (signals : List NormalizedSignal) : ℤ :=
  (SignalDomain.all.map (domainFinalPts (scalesOf signals) signals)).sum

theorem cappedPts_mono (d : SignalDomain) {q r : ℚ} (h : q ≤ r) : cappedPts d q ≤ cappedPts d r :=
  roundHalfEven_mono (min_le_min_left _ h)

theorem totalPts_nonneg (signals : List NormalizedSignal) : 0 ≤ totalPts signals := by
  refine List.sum_nonneg fun n hn => ?_
  obtain ⟨d, -, rfl⟩ := List.mem_map.1 hn
  have hraw : 0 ≤ domainRawPts (scalesOf signals) signals d := by
    refine List.sum_nonneg fun q hq => ?_
    obtain ⟨t, -, rfl⟩ := List.mem_map.1 hq
    exact signalPts_nonneg signals t
  have hceiling : 0 ≤ domainCeiling d := by cases d <;> norm_num [domainCeiling]
  have hround := roundHalfEven_mono (le_min hceiling hraw)
  rwa [show roundHalfEven (0 : ℚ) = 0 by decide +kernel] at hround

/-- The sum over all domains, with one of them set apart. -/
theorem sum_domains (f : SignalDomain → ℤ) (d : SignalDomain) :
    (SignalDomain.all.map f).sum = f d + ((SignalDomain.all.filter (· ≠ d)).map f).sum := by
  cases d <;> simp [SignalDomain.all] <;> ring

section TurnsOn

variable {l₁ l₂ : List NormalizedSignal} {s s' t : NormalizedSignal}

/-- A signal whose name no other has decides whether its name is elevated. -/
theorem elevated_of_nodup
    (hnodup : ((l₁ ++ t :: l₂).map NormalizedSignal.signalName).Nodup) :
    elevated (l₁ ++ t :: l₂) t.signalName = decide (1 / 2 ≤ t.normalizedScore) := by
  have hlater : l₂.reverse.find? (·.signalName = t.signalName) = none := by
    refine List.find?_eq_none.2 fun u hu heq => ?_
    rw [List.map_append, List.map_cons] at hnodup
    have hnot := (List.nodup_cons.1 (List.nodup_append.1 hnodup).2.1).1
    exact hnot (List.mem_map.2 ⟨u, List.mem_reverse.1 hu, of_decide_eq_true heq⟩)
  simp [elevated, signalNamed, List.find?_append, hlater]

theorem elevated_of_ne (hs : s'.signalName = s.signalName) {name : String}
    (hne : name ≠ s.signalName) :
    elevated (l₁ ++ s' :: l₂) name = elevated (l₁ ++ s :: l₂) name := by
  have hne' : name ≠ s'.signalName := hs ▸ hne
  simp [elevated, signalNamed, List.find?_append, hne.symm, hne'.symm]

/-- **What a signal damps**: the factors of the signals that it damps fall by one half, and
those of the others stay. -/
theorem scaleFactor_on (h : TurnsOn s s')
    (hnodup : ((l₁ ++ s :: l₂).map NormalizedSignal.signalName).Nodup) (ht : t ∈ l₁ ++ l₂) :
    scaleFactor (scalesOf (l₁ ++ s' :: l₂)) t.signalName =
      scaleFactor (scalesOf (l₁ ++ s :: l₂)) t.signalName - if Damps s' t then 1 / 2 else 0 := by
  have hoff : elevated (l₁ ++ s :: l₂) s.signalName = false := by
    rw [elevated_of_nodup hnodup, h.wasZero]
    norm_num
  have hon : elevated (l₁ ++ s' :: l₂) s.signalName = decide (1 / 2 ≤ s'.normalizedScore) := by
    rw [← h.sameName]
    refine elevated_of_nodup ?_
    rwa [List.map_append, List.map_cons, h.sameName, ← List.map_cons, ← List.map_append]
  have hothers : ∀ name, name ≠ s.signalName →
      elevated (l₁ ++ s' :: l₂) name = elevated (l₁ ++ s :: l₂) name :=
    fun name hne => elevated_of_ne h.sameName hne
  have hne : t.signalName ≠ s.signalName := by
    intro heq
    have hnot := (List.nodup_cons.1
      ((List.perm_middle.map NormalizedSignal.signalName).nodup_iff.1 hnodup)).1
    exact hnot (List.mem_map.2 ⟨t, ht, heq⟩)
  have hself : elevated (l₁ ++ s :: l₂) t.signalName = decide (1 / 2 ≤ t.normalizedScore) := by
    obtain ⟨m₁, m₂, hsplit⟩ := List.append_of_mem (List.mem_append.2
      ((List.mem_append.1 ht).imp_right (List.mem_cons_of_mem s)))
    rw [hsplit] at hnodup ⊢
    exact elevated_of_nodup hnodup
  have hname := h.sameName
  clear hnodup h ht
  unfold scaleFactor
  by_cases hspf : t.signalName = "spf_result"
  · -- rule A
    have hdamps : Damps s' t ↔ 1 / 2 ≤ s'.normalizedScore ∧ s.signalName = "dmarc_result" ∧
        1 / 2 ≤ t.normalizedScore := by simp [Damps, hspf, hname]
    rw [if_pos hspf, if_pos hspf]
    simp only [scalesOf, hdamps]
    grind
  by_cases hform : t.signalName = "has_credential_form"
  · -- rule B
    have hdamps : Damps s' t ↔ 1 / 2 ≤ s'.normalizedScore ∧
        s.signalName = "malicious_ioc_count" ∧ 1 / 2 ≤ t.normalizedScore := by
      simp [Damps, hform, hname]
    rw [if_neg hspf, if_neg hspf, if_pos hform, if_pos hform]
    simp only [scalesOf, hdamps]
    grind
  by_cases hlinguistic : t.signalName = "urgency_score" ∨ t.signalName = "financial_coercion_score"
  · -- rule C
    have hdamps : Damps s' t ↔ 1 / 2 ≤ s'.normalizedScore ∧
        s.signalName = "is_display_name_spoofed" := by
      simp [Damps, hspf, hform, hlinguistic, hname]
    rw [if_neg hspf, if_neg hspf, if_neg hform, if_neg hform, if_pos hlinguistic,
      if_pos hlinguistic]
    simp only [scalesOf, hdamps]
    grind
  · have hno : ¬Damps s' t := by
      rintro ⟨-, ⟨-, heq, -⟩ | ⟨-, heq, -⟩ | ⟨-, heq⟩⟩
      · exact hspf heq
      · exact hform heq
      · exact hlinguistic heq
    simp [hspf, hform, hlinguistic, hno]

/-- The points of a signal that stays, before and after. -/
theorem signalPts_on (h : TurnsOn s s')
    (hnodup : ((l₁ ++ s :: l₂).map NormalizedSignal.signalName).Nodup) (ht : t ∈ l₁ ++ l₂) :
    signalPts (scalesOf (l₁ ++ s' :: l₂)) t =
      signalPts (scalesOf (l₁ ++ s :: l₂)) t - takenFrom s' t := by
  rw [signalPts, signalPts, takenFrom, scaleFactor_on h hnodup ht]
  split_ifs <;> ring

/-- **What turning a signal on does to a domain**: it brings its points to its own, and takes
from every domain what it damps. -/
theorem domainRawPts_on (h : TurnsOn s s')
    (hnodup : ((l₁ ++ s :: l₂).map NormalizedSignal.signalName).Nodup) (d : SignalDomain) :
    domainRawPts (scalesOf (l₁ ++ s' :: l₂)) (l₁ ++ s' :: l₂) d =
      domainRawPts (scalesOf (l₁ ++ s :: l₂)) (l₁ ++ s :: l₂) d +
        (if s.domain = d then signalPts (scalesOf (l₁ ++ s' :: l₂)) s' else 0) -
          takenPts s' (l₁ ++ l₂) d := by
  have hoff : ¬(s.domain = d ∧ s.status = .evaluatedPositive) := by simp [h.wasNegative]
  have hrest : ∀ l : List NormalizedSignal, (∀ t ∈ l, t ∈ l₁ ++ l₂) →
      domainRawPts (scalesOf (l₁ ++ s' :: l₂)) l d + takenPts s' l d =
        domainRawPts (scalesOf (l₁ ++ s :: l₂)) l d := by
    intro l hl
    rw [domainRawPts, takenPts, domainRawPts, ← List.sum_map_add]
    refine congrArg List.sum (List.map_congr_left fun t ht => ?_)
    rw [signalPts_on h hnodup (hl t (List.mem_of_mem_filter ht)), sub_add_cancel]
  have hkept := hrest (l₁ ++ l₂) fun _ ht => ht
  simp only [domainRawPts_append, domainRawPts_cons, if_neg hoff, h.sameDomain, h.isPositive,
    and_true] at hkept ⊢
  linarith

theorem totalPts_on (h : TurnsOn s s')
    (hnodup : ((l₁ ++ s :: l₂).map NormalizedSignal.signalName).Nodup) :
    totalPts (l₁ ++ s' :: l₂) =
      totalPts (l₁ ++ s :: l₂) + pointsAdded l₁ l₂ s s' - pointsTaken l₁ l₂ s s' := by
  have htaken : ((SignalDomain.all.filter (· ≠ s.domain)).map
        (domainFinalPts (scalesOf (l₁ ++ s' :: l₂)) (l₁ ++ s' :: l₂))).sum +
      pointsTaken l₁ l₂ s s' = ((SignalDomain.all.filter (· ≠ s.domain)).map
        (domainFinalPts (scalesOf (l₁ ++ s :: l₂)) (l₁ ++ s :: l₂))).sum := by
    rw [pointsTaken, ← List.sum_map_add]
    refine congrArg List.sum (List.map_congr_left fun d hd => ?_)
    have hne : s.domain ≠ d := fun heq => by simp [heq] at hd
    rw [domainFinalPts, domainFinalPts, domainRawPts_on h hnodup, if_neg hne, add_zero]
    ring
  have hadded : domainFinalPts (scalesOf (l₁ ++ s' :: l₂)) (l₁ ++ s' :: l₂) s.domain =
      domainFinalPts (scalesOf (l₁ ++ s :: l₂)) (l₁ ++ s :: l₂) s.domain +
        pointsAdded l₁ l₂ s s' := by
    rw [pointsAdded, domainFinalPts, domainFinalPts, domainRawPts_on h hnodup, if_pos rfl]
    ring
  rw [totalPts, totalPts, sum_domains _ s.domain, sum_domains _ s.domain, hadded, ← htaken]
  ring

/-- A signal that damps nothing adds points, and takes none. -/
theorem pointsTaken_le_of_not_damps
    (hfree : ∀ t ∈ l₁ ++ l₂, t.status = .evaluatedPositive → ¬Damps s' t) :
    pointsTaken l₁ l₂ s s' ≤ pointsAdded l₁ l₂ s s' := by
  have hzero : ∀ d, takenPts s' (l₁ ++ l₂) d = 0 := by
    intro d
    refine List.sum_eq_zero fun q hq => ?_
    obtain ⟨t, ht, rfl⟩ := List.mem_map.1 hq
    obtain ⟨hmem, hdomain⟩ := List.mem_filter.1 ht
    exact if_neg (hfree t hmem (of_decide_eq_true hdomain).2)
  have hadded : 0 ≤ pointsAdded l₁ l₂ s s' := by
    rw [pointsAdded, hzero, sub_zero]
    exact sub_nonneg.2 (cappedPts_mono _ (le_add_of_nonneg_right (signalPts_nonneg _ _)))
  have htaken : pointsTaken l₁ l₂ s s' = 0 := by simp [pointsTaken, hzero]
  rw [htaken]
  exact hadded

end TurnsOn

/-- **Evidence monotonicity, up to damping.**  Turning one signal on does not
lower the final score exactly if the points that it still adds under the ceiling
of its domain are at least the points that damping takes away in the others, or
the points come to `100` all the same; so it never does if it damps no positive
signal. -/
theorem score_le_iff (l₁ l₂ : List NormalizedSignal) (s s' : NormalizedSignal) (h : TurnsOn s s')
    (hnodup : ((l₁ ++ s :: l₂).map NormalizedSignal.signalName).Nodup) :
    ((calculateMultimodalScore (l₁ ++ s :: l₂)).1 ≤
        (calculateMultimodalScore (l₁ ++ s' :: l₂)).1 ↔
      pointsTaken l₁ l₂ s s' ≤ pointsAdded l₁ l₂ s s' ∨
        100 ≤ totalPts (l₁ ++ s :: l₂) + pointsAdded l₁ l₂ s s' - pointsTaken l₁ l₂ s s') ∧
    ((∀ t ∈ l₁ ++ l₂, t.status = .evaluatedPositive → ¬Damps s' t) →
      (calculateMultimodalScore (l₁ ++ s :: l₂)).1 ≤
        (calculateMultimodalScore (l₁ ++ s' :: l₂)).1) := by
  have hiff : (calculateMultimodalScore (l₁ ++ s :: l₂)).1 ≤
        (calculateMultimodalScore (l₁ ++ s' :: l₂)).1 ↔
      pointsTaken l₁ l₂ s s' ≤ pointsAdded l₁ l₂ s s' ∨
        100 ≤ totalPts (l₁ ++ s :: l₂) + pointsAdded l₁ l₂ s s' - pointsTaken l₁ l₂ s s' := by
    have hbefore := totalPts_nonneg (l₁ ++ s :: l₂)
    have hafter := totalPts_nonneg (l₁ ++ s' :: l₂)
    have htotal := totalPts_on h hnodup
    show min 100 (max 0 (totalPts (l₁ ++ s :: l₂))) ≤ min 100 (max 0 (totalPts (l₁ ++ s' :: l₂))) ↔ _
    omega
  exact ⟨hiff, fun hfree => hiff.2 (.inl (pointsTaken_le_of_not_damps hfree))⟩

/-! ### The exception -/

/-- A signal of full confidence. -/
def sampleSignal (domain : SignalDomain) (name : String) (on : Bool) : NormalizedSignal where
  domain := domain
  signalName := name
  normalizedScore := if on then 1 else 0
  confidence := 1
  weight := 1
  status := if on then .evaluatedPositive else .evaluatedNegative
  explanation := ""
  score_mem := by split_ifs <;> norm_num
  confidence_mem := by norm_num
  weight_nonneg := zero_le_one

/-- A spoofed display name on top of an urgent text: `15` becomes `48`, seven of the `40` points it
brings being taken from the content. -/
theorem score_le_of_spoof_on :
    (calculateMultimodalScore
      [sampleSignal .content "urgency_score" true,
        sampleSignal .transmission "is_display_name_spoofed" false]).1 ≤
    (calculateMultimodalScore
      [sampleSignal .content "urgency_score" true,
        sampleSignal .transmission "is_display_name_spoofed" true]).1 := by
  refine (score_le_iff [sampleSignal .content "urgency_score" true] []
    (sampleSignal .transmission "is_display_name_spoofed" false)
    (sampleSignal .transmission "is_display_name_spoofed" true) ?_ ?_).1.2 (.inl ?_)
  · exact ⟨by decide, rfl, by decide +kernel, rfl, rfl, rfl, rfl⟩
  · decide
  · decide +kernel

/-- Five signals, the display name spoofed or not. -/
def saturated (spoofed : Bool) : List NormalizedSignal :=
  [sampleSignal .transmission "is_display_name_spoofed" spoofed,
    sampleSignal .transmission "is_reply_to_mismatched" true,
    sampleSignal .transmission "is_thread_hijack_suspect" true,
    sampleSignal .content "urgency_score" true,
    sampleSignal .content "financial_coercion_score" true]

/-- **Damping can win.**  The transmission domain is already at its ceiling, so a
spoofed display name brings no points there, and rule C takes seven away from
the content domain: `65` becomes `58`. -/
theorem spoof_lowers_score :
    TurnsOn (sampleSignal .transmission "is_display_name_spoofed" false)
      (sampleSignal .transmission "is_display_name_spoofed" true) ∧
    ((saturated false).map NormalizedSignal.signalName).Nodup ∧
    (calculateMultimodalScore (saturated true)).1 < (calculateMultimodalScore (saturated false)).1 := by
  refine ⟨?_, ?_, ?_⟩
  · exact ⟨by decide, rfl, by decide +kernel, rfl, rfl, rfl, rfl⟩
  · decide
  · decide +kernel

end ScamOn.Risk
