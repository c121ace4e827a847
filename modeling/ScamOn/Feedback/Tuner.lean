import ScamOn.Feedback.Analytics
import ScamOn.Lib.Machine

/-!
# Tuning the sensitivity

`AdaptiveSensitivityTuner` counts the verdicts of a window and recommends a
sensitivity for the tenant: one tier lower where false positives are frequent,
one tier higher where false negatives are, else the one it has.  A recommendation
is a snapshot.  It is filed with the sensitivity that was active when it was made,
and an administrator may apply it at any later time.

* `generateRecommendation`, `applyRecommendation` and `setTenantSensitivity` are
  the operations, `tunerStep` dispatches on a call.
* `Applies` is what applying a recommendation should amount to, and `Fits` when a
  recommendation still fits the tenant's sensitivity.
* `applies_iff_fits`: every recommendation is applied as it should be exactly if
  each one still fits when it is applied.
* `decrease_raises`: a recommendation to decrease that no longer fits raises the
  sensitivity.
-/

namespace ScamOn.Feedback

/-! ## Data -/

/-- `RecommendationDirection`. -/
inductive RecommendationDirection
  | increaseSensitivity | decreaseSensitivity | maintain | insufficientData
  deriving DecidableEq, Repr

/-- `RecommendationStatus`, as far as the tuner sets it. -/
inductive RecommendationStatus
  | pendingReview | applied
  deriving DecidableEq, Repr

/-- `HIGH_FPR_THRESHOLD`. -/
def highFprThreshold : ℚ := 15 / 100

/-- `LOW_FNR_THRESHOLD`. -/
def lowFnrThreshold : ℚ := 5 / 100

/-- `HIGH_FNR_THRESHOLD`. -/
def highFnrThreshold : ℚ := 5 / 100

/-- `LOW_FPR_THRESHOLD`. -/
def lowFprThreshold : ℚ := 10 / 100

/-- `SensitivityRecommendationDTO`.  Times are in seconds. -/
structure SensitivityRecommendation where
  recommendationId : Uuid
  tenantId : Uuid
  generatedAt : ℚ
  windowDays : ℤ
  sampleCount : ℕ
  falsePositiveRate : Option ℚ
  falseNegativeRate : Option ℚ
  currentSensitivity : String
  recommendedSensitivity : String
  direction : RecommendationDirection
  status : RecommendationStatus
  reason : String
  explanation : String
  appliedBy : Option String
  appliedAt : Option ℚ

/-- `ApplyRecommendationResponseDTO`. -/
structure ApplyRecommendationResponse where
  recommendationId : Uuid
  tenantId : Uuid
  previousSensitivity : String
  newSensitivity : String
  appliedBy : String
  appliedAt : ℚ
  message : String

/-- What leaves a call that fails. -/
inductive TunerError
  | unauthorized (message : String)
  | recommendationNotFound (message : String)
  | recommendationAlreadyApplied (message : String)
  /-- A DTO does not validate, by the name of the field at fault. -/
  | invalid (field : String)
  | analytics (e : AnalyticsError)
  deriving DecidableEq

/-- `AdaptiveSensitivityTuner`. -/
structure SensitivityTuner where
  minSampleSize : ℕ
  recommendations : Dict Uuid (Dict Uuid SensitivityRecommendation)
  tenantActiveSensitivity : Dict Uuid String

/-- The arguments of `generate_recommendation`, with the records of the storage, the clock, and
the id that is drawn. -/
structure GenerateCall where
  tenantId : Uuid
  windowDays : ℤ
  currentSensitivity : Option String
  referenceTime : Option ℚ
  records : List FeedbackRecord
  now : ℚ
  drawnId : Uuid

/-! ## The operations -/

/-- `step_down_sensitivity`. -/
def stepDownSensitivity (current : String) : String :=
  let curUpper := upper current
  if curUpper ∈ ["AGGRESSIVE", "HIGH"] then "BALANCED"
  else if curUpper ∈ ["BALANCED", "STANDARD"] then "PERMISSIVE"
  else "PERMISSIVE"

/-- `step_up_sensitivity`. -/
def stepUpSensitivity (current : String) : String :=
  let curUpper := upper current
  if curUpper ∈ ["PERMISSIVE", "LOW"] then "BALANCED"
  else if curUpper ∈ ["BALANCED", "STANDARD"] then "AGGRESSIVE"
  else "AGGRESSIVE"

/-- `set_tenant_sensitivity`. -/
def setTenantSensitivity (s : SensitivityTuner) (tenantId : Uuid) (sensitivity : String) :
    SensitivityTuner :=
  { s with tenantActiveSensitivity := s.tenantActiveSensitivity.set tenantId (upper sensitivity) }

/-- `get_tenant_sensitivity`. -/
def getTenantSensitivity (s : SensitivityTuner) (tenantId : Uuid) : String :=
  (s.tenantActiveSensitivity.get? tenantId).getD "BALANCED"

/-- The recommendations on file for a tenant. -/
def SensitivityTuner.recs (s : SensitivityTuner) (tenantId : Uuid) :
    Dict Uuid SensitivityRecommendation :=
  (s.recommendations.get? tenantId).getD ∅

/-- The rule that decides: enough samples, and which error rate is high. -/
def directionOf (minSampleSize : ℕ) (a : RollingWindowAnalyticsDto) : RecommendationDirection :=
  if a.sampleCount < minSampleSize then .insufficientData
  else if (∃ fpr ∈ a.falsePositiveRate, highFprThreshold ≤ fpr) ∧
      ∀ fnr ∈ a.falseNegativeRate, fnr < lowFnrThreshold then .decreaseSensitivity
  else if (∃ fnr ∈ a.falseNegativeRate, highFnrThreshold ≤ fnr) ∧
      ∀ fpr ∈ a.falsePositiveRate, fpr < lowFprThreshold then .increaseSensitivity
  else .maintain

/-- The sensitivity that goes with a direction. -/
def recommendedFor (current : String) : RecommendationDirection → String
  | .increaseSensitivity => stepUpSensitivity current
  | .decreaseSensitivity => stepDownSensitivity current
  | .maintain => current
  | .insufficientData => current

def RecommendationDirection.reason : RecommendationDirection → String
  | .increaseSensitivity => "HIGH_FALSE_NEGATIVE_RATE"
  | .decreaseSensitivity => "HIGH_FALSE_POSITIVE_RATE"
  | .maintain => "POLICY_BALANCED"
  | .insufficientData => "INSUFFICIENT_SAMPLE_SIZE"

section Operations

variable (percent : ℚ → String)

/-- The explanation of a recommendation.  `percent` writes a rate as a percentage with one digit
after the point. -/
def explanationOf (minSampleSize : ℕ) (windowDays : ℤ) (a : RollingWindowAnalyticsDto)
    (current recommended : String) : RecommendationDirection → String
  | .insufficientData =>
    "Rolling " ++ toString windowDays ++ "-day window contains " ++ toString a.sampleCount ++
      " feedback sample(s), which is below the minimum statistical requirement of " ++
      toString minSampleSize ++ ". Policy sensitivity remains at " ++ current ++ "."
  | .decreaseSensitivity =>
    "Observed " ++ toString windowDays ++ "-day False Positive Rate is " ++
      percent (a.falsePositiveRate.getD 0) ++ "% across " ++ toString a.sampleCount ++
      " samples while False Negative Rate remains low (" ++ percent (a.falseNegativeRate.getD 0) ++
      "%). Recommending bounded step down from " ++ current ++ " to " ++ recommended ++
      " to minimize analyst alert fatigue."
  | .increaseSensitivity =>
    "Observed " ++ toString windowDays ++ "-day False Negative Rate is " ++
      percent (a.falseNegativeRate.getD 0) ++ "% across " ++ toString a.sampleCount ++
      " samples (exceeds 5% threshold). Recommending bounded step up from " ++ current ++ " to " ++
      recommended ++ " to enhance threat detection posture."
  | .maintain =>
    "Observed " ++ toString windowDays ++ "-day error rates (FPR " ++
      ((a.falsePositiveRate.map fun r => percent r ++ "%").getD "N/A") ++ ", FNR " ++
      ((a.falseNegativeRate.map fun r => percent r ++ "%").getD "N/A") ++ ") across " ++
      toString a.sampleCount ++ " samples remain within acceptable enterprise operational " ++
      "tolerances. Maintaining " ++ current ++ " policy setting."

/-- The sensitivity a recommendation starts from. -/
def startingSensitivity (s : SensitivityTuner) (c : GenerateCall) : String :=
  upper ((c.currentSensitivity.filter (· ≠ "")).getD (getTenantSensitivity s c.tenantId))

/-- The recommendation that a call makes of the analytics. -/
def recommendation (s : SensitivityTuner) (c : GenerateCall) (a : RollingWindowAnalyticsDto) :
    SensitivityRecommendation :=
  let current := startingSensitivity s c
  let direction := directionOf s.minSampleSize a
  let recommended := recommendedFor current direction
  { recommendationId := c.drawnId
    tenantId := c.tenantId
    generatedAt := c.now
    windowDays := c.windowDays
    sampleCount := a.sampleCount
    falsePositiveRate := a.falsePositiveRate
    falseNegativeRate := a.falseNegativeRate
    currentSensitivity := current
    recommendedSensitivity := recommended
    direction := direction
    status := .pendingReview
    reason := direction.reason
    explanation := explanationOf percent s.minSampleSize c.windowDays a current recommended direction
    appliedBy := none
    appliedAt := none }

/-- A recommendation goes on file for its tenant. -/
def SensitivityTuner.file (s : SensitivityTuner) (tenantId : Uuid) (r : SensitivityRecommendation) :
    SensitivityTuner :=
  { s with
    recommendations :=
      s.recommendations.set tenantId ((s.recs tenantId).set r.recommendationId r) }

/-- `generate_recommendation`. -/
def generateRecommendation (s : SensitivityTuner) (c : GenerateCall) :
    SensitivityTuner × Except TunerError SensitivityRecommendation :=
  match windowAnalytics c.records c.tenantId c.windowDays c.referenceTime c.now with
  | .error e => (s, .error (.analytics e))
  | .ok a =>
    let r := recommendation percent s c a
    if 2000 < r.explanation.length then (s, .error (.invalid "explanation"))
    else (s.file c.tenantId r, .ok r)

/-- The recommendation once it is applied. -/
def SensitivityRecommendation.markApplied (r : SensitivityRecommendation) (analystId : String)
    (now : ℚ) : SensitivityRecommendation :=
  { r with status := .applied, appliedBy := some analystId, appliedAt := some now }

/-- `apply_recommendation`. -/
def applyRecommendation (s : SensitivityTuner) (tenantId recommendationId : Uuid)
    (adminCaller : AuthenticatedAnalyst) (now : ℚ) :
    SensitivityTuner × Except TunerError ApplyRecommendationResponse :=
  if isAdminRole adminCaller.role = false then
    (s, .error (.unauthorized "Only administrative roles can apply sensitivity recommendations"))
  else if adminCaller.tenantId ≠ tenantId then
    (s, .error (.unauthorized "Caller cannot apply recommendations outside their tenant boundary"))
  else
    match (s.recs tenantId).get? recommendationId with
    | none =>
      (s, .error (.recommendationNotFound ("Recommendation " ++ recommendationId.str ++
        " not found for tenant " ++ tenantId.str)))
    | some r =>
      if r.status = .applied then
        (s, .error (.recommendationAlreadyApplied ("Recommendation " ++ recommendationId.str ++
          " has already been applied")))
      else
        let updated := (s.recs tenantId).set recommendationId (r.markApplied adminCaller.analystId now)
        (setTenantSensitivity
            { s with recommendations := s.recommendations.set tenantId updated } tenantId
            r.recommendedSensitivity,
          .ok {
            recommendationId := recommendationId
            tenantId := tenantId
            previousSensitivity := getTenantSensitivity s tenantId
            newSensitivity := r.recommendedSensitivity
            appliedBy := adminCaller.analystId
            appliedAt := now
            message := "Recommendation successfully applied: tenant sensitivity updated to " ++
              r.recommendedSensitivity })

end Operations

/-! ## Runs -/

/-- A call to the tuner. -/
inductive TunerCall
  | generate (c : GenerateCall)
  | apply (tenantId recommendationId : Uuid) (adminCaller : AuthenticatedAnalyst) (now : ℚ)
  | set (tenantId : Uuid) (sensitivity : String)

/-- What a call returns or raises. -/
inductive TunerReply
  | generated (r : Except TunerError SensitivityRecommendation)
  | applied (r : Except TunerError ApplyRecommendationResponse)
  | done

def tunerStep (percent : ℚ → String) (s : SensitivityTuner) : TunerCall → SensitivityTuner × TunerReply
  | .generate c =>
    ((generateRecommendation percent s c).1, .generated (generateRecommendation percent s c).2)
  | .apply t i caller now =>
    ((applyRecommendation s t i caller now).1, .applied (applyRecommendation s t i caller now).2)
  | .set t sensitivity => (setTenantSensitivity s t sensitivity, .done)

/-- A tuner that has not been used. -/
def SensitivityTuner.init (minSampleSize : ℕ) : SensitivityTuner := ⟨minSampleSize, ∅, ∅⟩

/-! ## What applying a recommendation should amount to -/

/-- The tiers, lowest first. -/
def tiers : List String := ["PERMISSIVE", "BALANCED", "AGGRESSIVE"]

/-- The number of a tier. -/
def tier (sensitivity : String) : ℕ := tiers.idxOf sensitivity

/-- From `before` to `after` is at most one tier, and none against the direction. -/
def MovesAsStated (before after : String) : RecommendationDirection → Prop
  | .decreaseSensitivity => tier after ≤ tier before ∧ tier before ≤ tier after + 1
  | .increaseSensitivity => tier before ≤ tier after ∧ tier after ≤ tier before + 1
  | .maintain => tier after = tier before
  | .insufficientData => tier after = tier before

instance (before after : String) : ∀ d, Decidable (MovesAsStated before after d)
  | .decreaseSensitivity | .increaseSensitivity => inferInstanceAs (Decidable (_ ∧ _))
  | .maintain | .insufficientData => inferInstanceAs (Decidable (_ = _))

/-- A recommendation that is applied is applied by an administrator of the tenant, moves the
tenant's sensitivity as it says, and nobody else's. -/
def Applies (s : SensitivityTuner) : TunerCall → Prop
  | .apply t i caller now =>
    ∀ res, (applyRecommendation s t i caller now).2 = .ok res →
      (isAdminRole caller.role = true ∧ caller.tenantId = t) ∧
      (∀ t', t' ≠ t → getTenantSensitivity (applyRecommendation s t i caller now).1 t' =
        getTenantSensitivity s t') ∧
      ∃ r, (s.recs t).get? i = some r ∧
        MovesAsStated (getTenantSensitivity s t)
          (getTenantSensitivity (applyRecommendation s t i caller now).1 t) r.direction
  | _ => True

/-- The tenant and the recommendation that a reply reports as applied. -/
def TunerReply.appliedTo : TunerReply → Option (Uuid × Uuid)
  | .applied (.ok res) => some (res.tenantId, res.recommendationId)
  | _ => none

/-- The recommendation that a call would apply. -/
def applicable (s : SensitivityTuner) (tenantId recommendationId : Uuid)
    (adminCaller : AuthenticatedAnalyst) : Option SensitivityRecommendation :=
  if isAdminRole adminCaller.role = true ∧ adminCaller.tenantId = tenantId then
    ((s.recs tenantId).get? recommendationId).filter (·.status ≠ .applied)
  else none

/-- The sensitivity is the one the recommendation was made for, or already the recommended one;
or the recommendation asked for a tier beyond the last, and the middle one is active. -/
def SensitivityRecommendation.FitsAt (r : SensitivityRecommendation) (active : String) : Prop :=
  active = r.currentSensitivity ∨ active = r.recommendedSensitivity ∨
    active = "BALANCED" ∧ r.currentSensitivity = r.recommendedSensitivity ∧
      r.direction ∈ [.decreaseSensitivity, .increaseSensitivity]

instance (r : SensitivityRecommendation) (active : String) : Decidable (r.FitsAt active) :=
  inferInstanceAs (Decidable (_ ∨ _ ∨ _))

/-- A recommendation that is applied still fits. -/
def Fits (s : SensitivityTuner) : TunerCall → Prop
  | .apply t i caller _ => ∀ r ∈ applicable s t i caller, r.FitsAt (getTenantSensitivity s t)
  | _ => True

instance (s : SensitivityTuner) : ∀ c, Decidable (Fits s c)
  | .apply t i caller _ =>
    inferInstanceAs (Decidable (∀ r ∈ applicable s t i caller, r.FitsAt (getTenantSensitivity s t)))
  | .generate _ | .set _ _ => isTrue trivial

/-- Sensitivities are set to a tier, and recommendations are made for the active one. -/
def TunerCall.Ordinary : TunerCall → Prop
  | .generate c => c.currentSensitivity = none
  | .apply _ _ _ _ => True
  | .set _ sensitivity => sensitivity ∈ tiers

instance : ∀ c : TunerCall, Decidable c.Ordinary
  | .generate c => inferInstanceAs (Decidable (c.currentSensitivity = none))
  | .apply _ _ _ _ => isTrue trivial
  | .set _ sensitivity => inferInstanceAs (Decidable (sensitivity ∈ tiers))

/-- The id that a call draws. -/
def TunerCall.drawn : TunerCall → Option Uuid
  | .generate c => some c.drawnId
  | _ => none

/-! ## What the operations do -/

theorem recs_set (s : SensitivityTuner) (t t' : Uuid) (d : Dict Uuid SensitivityRecommendation) :
    ({ s with recommendations := s.recommendations.set t d } : SensitivityTuner).recs t' =
      if t' = t then d else s.recs t' := by
  unfold SensitivityTuner.recs
  rw [Dict.get?_set]
  split_ifs
  · rfl
  · rfl

theorem get?_recs_set (s : SensitivityTuner) (t i t' i' : Uuid) (r : SensitivityRecommendation) :
    (({ s with recommendations := s.recommendations.set t ((s.recs t).set i r) } :
      SensitivityTuner).recs t').get? i' =
      if t' = t ∧ i' = i then some r else (s.recs t').get? i' := by
  rw [recs_set]
  by_cases ht : t' = t
  · simp [ht, Dict.get?_set]
  · simp [ht]

@[simp] theorem recs_setTenantSensitivity (s : SensitivityTuner) (t t' : Uuid) (sensitivity : String) :
    (setTenantSensitivity s t sensitivity).recs t' = s.recs t' := rfl

theorem getTenantSensitivity_set (s : SensitivityTuner) (t t' : Uuid) (sensitivity : String) :
    getTenantSensitivity (setTenantSensitivity s t sensitivity) t' =
      if t' = t then upper sensitivity else getTenantSensitivity s t' := by
  unfold getTenantSensitivity setTenantSensitivity
  rw [Dict.get?_set]
  split_ifs
  · rfl
  · rfl

@[simp] theorem getTenantSensitivity_recommendations (s : SensitivityTuner) (t : Uuid)
    (d : Dict Uuid (Dict Uuid SensitivityRecommendation)) :
    getTenantSensitivity { s with recommendations := d } t = getTenantSensitivity s t := rfl

/-- **A call that generates** fails and changes nothing, or files its recommendation. -/
theorem generateRecommendation_cases (percent : ℚ → String) (s : SensitivityTuner)
    (c : GenerateCall) :
    (∃ e, generateRecommendation percent s c = (s, .error e)) ∨
      ∃ a, generateRecommendation percent s c =
        (s.file c.tenantId (recommendation percent s c a), .ok (recommendation percent s c a)) := by
  unfold generateRecommendation
  cases windowAnalytics c.records c.tenantId c.windowDays c.referenceTime c.now with
  | error e => exact .inl ⟨_, rfl⟩
  | ok a =>
    dsimp only
    split_ifs
    · exact .inl ⟨_, rfl⟩
    · exact .inr ⟨a, rfl⟩

/-- **A call that applies** fails and changes nothing, or marks the applicable recommendation and
makes its sensitivity the tenant's. -/
theorem applyRecommendation_cases (s : SensitivityTuner) (t i : Uuid) (caller : AuthenticatedAnalyst)
    (now : ℚ) :
    (applicable s t i caller = none ∧ ∃ e, applyRecommendation s t i caller now = (s, .error e)) ∨
      ∃ r res, applicable s t i caller = some r ∧ res.tenantId = t ∧ res.recommendationId = i ∧
        applyRecommendation s t i caller now =
          (setTenantSensitivity
            { s with
              recommendations := s.recommendations.set t
                ((s.recs t).set i (r.markApplied caller.analystId now)) }
            t r.recommendedSensitivity, .ok res) := by
  unfold applyRecommendation applicable
  by_cases hrole : isAdminRole caller.role = false
  · left
    simp [hrole]
  by_cases htenant : caller.tenantId ≠ t
  · left
    simp [hrole, htenant]
  rw [if_neg hrole, if_neg htenant,
    if_pos ⟨Bool.not_eq_false _ ▸ hrole, not_not.1 htenant⟩]
  cases hget : (s.recs t).get? i with
  | none => exact .inl ⟨rfl, _, rfl⟩
  | some r =>
    dsimp only
    by_cases happlied : r.status = .applied
    · rw [if_pos happlied]
      exact .inl ⟨by simp [happlied], _, rfl⟩
    · rw [if_neg happlied]
      exact .inr ⟨r, _, by simp [happlied], rfl, rfl, rfl⟩

theorem applicable_eq_some {s : SensitivityTuner} {t i : Uuid} {caller : AuthenticatedAnalyst}
    {r : SensitivityRecommendation} (h : applicable s t i caller = some r) :
    (isAdminRole caller.role = true ∧ caller.tenantId = t) ∧ (s.recs t).get? i = some r ∧
      r.status ≠ .applied := by
  unfold applicable at h
  split_ifs at h with hauth
  rw [Option.filter_eq_some_iff] at h
  exact ⟨hauth, h.1, by simpa using h.2⟩

/-! ## The tiers of a run -/

theorem upper_of_mem_tiers : ∀ s ∈ tiers, upper s = s := by decide +kernel

theorem recommendedFor_mem_tiers {current : String} (h : current ∈ tiers)
    (d : RecommendationDirection) : recommendedFor current d ∈ tiers := by
  have hall : ∀ c ∈ tiers, stepUpSensitivity c ∈ tiers ∧ stepDownSensitivity c ∈ tiers ∧ c ∈ tiers := by
    decide +kernel
  obtain ⟨hup, hdown, hsame⟩ := hall current h
  cases d with
  | increaseSensitivity => exact hup
  | decreaseSensitivity => exact hdown
  | maintain => exact hsame
  | insufficientData => exact hsame

/-- Every active sensitivity is a tier, and so is the one that each recommendation starts from;
what it recommends follows from that and its direction. -/
structure SensitivityTuner.InOrder (s : SensitivityTuner) : Prop where
  active_mem : ∀ t, getTenantSensitivity s t ∈ tiers
  current_mem : ∀ t i r, (s.recs t).get? i = some r → r.currentSensitivity ∈ tiers
  recommended : ∀ t i r, (s.recs t).get? i = some r →
    r.recommendedSensitivity = recommendedFor r.currentSensitivity r.direction

theorem inOrder_init (n : ℕ) : (SensitivityTuner.init n).InOrder where
  active_mem t := by
    show "BALANCED" ∈ tiers
    decide
  current_mem t i r h := by cases h
  recommended t i r h := by cases h

theorem SensitivityTuner.InOrder.set {s : SensitivityTuner} (h : s.InOrder) (t : Uuid)
    {sensitivity : String} (hmem : sensitivity ∈ tiers) :
    (setTenantSensitivity s t sensitivity).InOrder where
  active_mem t' := by
    rw [getTenantSensitivity_set]
    split_ifs
    · rw [upper_of_mem_tiers _ hmem]
      exact hmem
    · exact h.active_mem t'
  current_mem := h.current_mem
  recommended := h.recommended

/-- A recommendation in order goes on file. -/
theorem SensitivityTuner.InOrder.put {s : SensitivityTuner} (h : s.InOrder) (t i : Uuid)
    {r : SensitivityRecommendation} (hcurrent : r.currentSensitivity ∈ tiers)
    (hrecommended : r.recommendedSensitivity = recommendedFor r.currentSensitivity r.direction) :
    ({ s with recommendations := s.recommendations.set t ((s.recs t).set i r) } :
      SensitivityTuner).InOrder where
  active_mem := h.active_mem
  current_mem t' i' r' hr' := by
    rw [get?_recs_set] at hr'
    split_ifs at hr'
    · cases hr'
      exact hcurrent
    · exact h.current_mem t' i' r' hr'
  recommended t' i' r' hr' := by
    rw [get?_recs_set] at hr'
    split_ifs at hr'
    · cases hr'
      exact hrecommended
    · exact h.recommended t' i' r' hr'

theorem startingSensitivity_of_ordinary {s : SensitivityTuner} (h : s.InOrder) {c : GenerateCall}
    (hc : c.currentSensitivity = none) :
    startingSensitivity s c = getTenantSensitivity s c.tenantId := by
  unfold startingSensitivity
  rw [hc]
  exact upper_of_mem_tiers _ (h.active_mem c.tenantId)

theorem SensitivityTuner.InOrder.step {percent : ℚ → String} {s : SensitivityTuner} (h : s.InOrder)
    {c : TunerCall} (hc : c.Ordinary) : (tunerStep percent s c).1.InOrder := by
  cases c with
  | generate c =>
    rcases generateRecommendation_cases percent s c with ⟨e, hfail⟩ | ⟨a, hok⟩
    · simp only [tunerStep, hfail]
      exact h
    · simp only [tunerStep, hok]
      apply h.put c.tenantId
      · show startingSensitivity s c ∈ tiers
        rw [startingSensitivity_of_ordinary h hc]
        exact h.active_mem c.tenantId
      · rfl
  | apply t i caller now =>
    rcases applyRecommendation_cases s t i caller now with
      ⟨-, e, hfail⟩ | ⟨r, res, hr, -, -, hok⟩
    · simp only [tunerStep, hfail]
      exact h
    · obtain ⟨-, hget, -⟩ := applicable_eq_some hr
      have hcurrent := h.current_mem t i r hget
      have hrecommended := h.recommended t i r hget
      simp only [tunerStep, hok]
      apply SensitivityTuner.InOrder.set
      · exact h.put t i hcurrent hrecommended
      · rw [hrecommended]
        exact recommendedFor_mem_tiers hcurrent r.direction
  | set t sensitivity => exact h.set t hc

/-- Going to the recommended tier is a move as stated exactly if the recommendation still fits. -/
theorem movesAsStated_iff_fitsAt {r : SensitivityRecommendation} {active : String}
    (hcurrent : r.currentSensitivity ∈ tiers) (hactive : active ∈ tiers)
    (hrecommended : r.recommendedSensitivity = recommendedFor r.currentSensitivity r.direction) :
    MovesAsStated active r.recommendedSensitivity r.direction ↔ r.FitsAt active := by
  have hall : ∀ c ∈ tiers, ∀ a ∈ tiers,
      ∀ d ∈ [RecommendationDirection.increaseSensitivity, .decreaseSensitivity, .maintain,
        .insufficientData],
        (MovesAsStated a (recommendedFor c d) d ↔
          a = c ∨ a = recommendedFor c d ∨
            a = "BALANCED" ∧ c = recommendedFor c d ∧
              d ∈ [RecommendationDirection.decreaseSensitivity, .increaseSensitivity]) := by
    decide +kernel
  unfold SensitivityRecommendation.FitsAt
  rw [hrecommended]
  apply hall _ hcurrent _ hactive
  cases r.direction with
  | _ => simp

/-- A call applies as it should exactly if what it applies still fits. -/
theorem applies_iff {s : SensitivityTuner} (h : s.InOrder) (c : TunerCall) :
    Applies s c ↔ Fits s c := by
  cases c with
  | generate c => exact Iff.rfl
  | set t sensitivity => exact Iff.rfl
  | apply t i caller now =>
    unfold Applies Fits
    rcases applyRecommendation_cases s t i caller now with
      ⟨hnone, e, hfail⟩ | ⟨r, res, hr, -, -, hok⟩
    · simp [hnone, hfail]
    · obtain ⟨hauth, hget, -⟩ := applicable_eq_some hr
      have hcurrent := h.current_mem t i r hget
      have hrecommended := h.recommended t i r hget
      have hmem : r.recommendedSensitivity ∈ tiers := by
        rw [hrecommended]
        exact recommendedFor_mem_tiers hcurrent r.direction
      have hothers : ∀ t', t' ≠ t →
          getTenantSensitivity (applyRecommendation s t i caller now).1 t' =
            getTenantSensitivity s t' := by
        intro t' ht'
        rw [hok, getTenantSensitivity_set, if_neg ht', getTenantSensitivity_recommendations]
      have hnew : getTenantSensitivity (applyRecommendation s t i caller now).1 t =
          r.recommendedSensitivity := by
        rw [hok, getTenantSensitivity_set, if_pos rfl, upper_of_mem_tiers _ hmem]
      have hmoves := movesAsStated_iff_fitsAt hcurrent (h.active_mem t) hrecommended
      constructor
      · intro happlies r' hr'
        rw [hr] at hr'
        cases hr'
        obtain ⟨-, -, r', hr', hmove⟩ := happlies res (by rw [hok])
        rw [hget] at hr'
        cases hr'
        rw [hnew] at hmove
        exact hmoves.1 hmove
      · intro hfits res' _
        refine ⟨hauth, hothers, r, hget, ?_⟩
        rw [hnew]
        exact hmoves.2 (hfits r hr)

/-! ## Applied at most once -/

/-- The recommendation is on file as applied. -/
def SensitivityTuner.IsApplied (s : SensitivityTuner) (p : Uuid × Uuid) : Prop :=
  ∃ r, (s.recs p.1).get? p.2 = some r ∧ r.status = .applied

/-- The ids on file were drawn before those that calls are still to draw. -/
def SensitivityTuner.Before (s : SensitivityTuner) (cs : List TunerCall) : Prop :=
  ∀ id ∈ cs.filterMap TunerCall.drawn, ∀ t, (s.recs t).get? id = none

theorem SensitivityTuner.Before.tail {s : SensitivityTuner} {c : TunerCall} {cs : List TunerCall}
    (h : s.Before (c :: cs)) : s.Before cs := by
  intro id hid
  obtain ⟨c', hc', hdrawn⟩ := List.mem_filterMap.1 hid
  exact h id (List.mem_filterMap.2 ⟨c', List.mem_cons_of_mem _ hc', hdrawn⟩)

/-- A new recommendation leaves those that are on file. -/
theorem SensitivityTuner.IsApplied.file {s : SensitivityTuner} {t : Uuid}
    {r : SensitivityRecommendation} (hnew : ∀ t, (s.recs t).get? r.recommendationId = none)
    {p : Uuid × Uuid} (hp : s.IsApplied p) : (s.file t r).IsApplied p := by
  obtain ⟨r', hr', happlied⟩ := hp
  refine ⟨r', ?_, happlied⟩
  have hne : p.2 ≠ r.recommendationId := by
    intro heq
    rw [heq, hnew] at hr'
    cases hr'
  rw [SensitivityTuner.file, get?_recs_set, if_neg fun hboth => hne hboth.2]
  exact hr'

/-- A recommendation that is not on file as applied is applied. -/
theorem applied_apply {s : SensitivityTuner} {cs : List TunerCall} (hbefore : s.Before cs)
    {t i : Uuid} {r : SensitivityRecommendation} (hget : (s.recs t).get? i = some r)
    (analystId : String) (now : ℚ) (sensitivity : String) :
    let s' := setTenantSensitivity
      { s with
        recommendations := s.recommendations.set t ((s.recs t).set i (r.markApplied analystId now)) }
      t sensitivity
    s'.Before cs ∧ (∀ p, s.IsApplied p → s'.IsApplied p) ∧ s'.IsApplied (t, i) := by
  refine ⟨?_, ?_, r.markApplied analystId now, ?_, rfl⟩
  · intro id hid t'
    have hnone := hbefore id hid
    rw [recs_setTenantSensitivity, get?_recs_set]
    split_ifs with hboth
    · rw [← hboth.2, hnone] at hget
      cases hget
    · exact hnone t'
  · rintro ⟨t', i'⟩ ⟨r', hr', happlied⟩
    unfold SensitivityTuner.IsApplied
    simp only [recs_setTenantSensitivity, get?_recs_set]
    split_ifs
    · exact ⟨_, rfl, rfl⟩
    · exact ⟨r', hr', happlied⟩
  · rw [recs_setTenantSensitivity, get?_recs_set, if_pos ⟨rfl, rfl⟩]

theorem applied_step (percent : ℚ → String) {s : SensitivityTuner} {c : TunerCall}
    {cs : List TunerCall} (hbefore : s.Before (c :: cs))
    (hids : ((c :: cs).filterMap TunerCall.drawn).Nodup) :
    (tunerStep percent s c).1.Before cs ∧
      (∀ p, s.IsApplied p → (tunerStep percent s c).1.IsApplied p) ∧
      ∀ p ∈ (tunerStep percent s c).2.appliedTo,
        ¬s.IsApplied p ∧ (tunerStep percent s c).1.IsApplied p := by
  have hrest : s.Before cs := hbefore.tail
  cases c with
  | set t sensitivity => exact ⟨hrest, fun p hp => hp, fun p hp => by cases hp⟩
  | generate c =>
    have hdrawn : (TunerCall.generate c).drawn = some c.drawnId := rfl
    rw [List.filterMap_cons_some hdrawn, List.nodup_cons] at hids
    have hnew : ∀ t, (s.recs t).get? c.drawnId = none :=
      hbefore c.drawnId (List.mem_filterMap.2 ⟨_, List.mem_cons_self .., rfl⟩)
    rcases generateRecommendation_cases percent s c with ⟨e, hfail⟩ | ⟨a, hok⟩
    · simp only [tunerStep, hfail]
      exact ⟨hrest, fun p hp => hp, fun p hp => by cases hp⟩
    · simp only [tunerStep, hok]
      refine ⟨?_, fun p hp => hp.file hnew, fun p hp => by cases hp⟩
      intro id hid t
      have hne : id ≠ c.drawnId := fun heq => hids.1 (heq ▸ hid)
      rw [SensitivityTuner.file, get?_recs_set, if_neg fun hboth => hne hboth.2]
      exact hrest id hid t
  | apply t i caller now =>
    rcases applyRecommendation_cases s t i caller now with
      ⟨-, e, hfail⟩ | ⟨r, res, hr, htenant, hid, hok⟩
    · simp only [tunerStep, hfail]
      exact ⟨hrest, fun p hp => hp, fun p hp => by cases hp⟩
    · obtain ⟨-, hget, hpending⟩ := applicable_eq_some hr
      obtain ⟨hbefore', hkept, happlies⟩ :=
        applied_apply hrest hget caller.analystId now r.recommendedSensitivity
      simp only [tunerStep, hok]
      refine ⟨hbefore', hkept, fun p hp => ?_⟩
      have heq : p = (t, i) := by
        simpa [TunerReply.appliedTo, htenant, hid] using hp.symm
      subst heq
      refine ⟨?_, happlies⟩
      rintro ⟨r', hr', happlied⟩
      rw [hget] at hr'
      cases hr'
      exact hpending happlied

/-- **No recommendation is applied twice**, and none that was on file as applied. -/
theorem applied_once (percent : ℚ → String) (cs : List TunerCall) {s : SensitivityTuner}
    (hbefore : s.Before cs) (hids : (cs.filterMap TunerCall.drawn).Nodup) :
    ((Machine.outputs (tunerStep percent) s cs).filterMap TunerReply.appliedTo).Nodup ∧
      ∀ p ∈ (Machine.outputs (tunerStep percent) s cs).filterMap TunerReply.appliedTo,
        ¬s.IsApplied p := by
  induction cs generalizing s with
  | nil => exact ⟨List.nodup_nil, fun p hp => by cases hp⟩
  | cons c cs ih =>
    obtain ⟨hnext, hkeep, hnew⟩ := applied_step percent hbefore hids
    have hrestIds : (cs.filterMap TunerCall.drawn).Nodup :=
      ((List.sublist_cons_self c cs).filterMap _).nodup hids
    obtain ⟨hnodup, hnone⟩ := ih hnext hrestIds
    rw [Machine.outputs]
    cases happlied : (tunerStep percent s c).2.appliedTo with
    | none =>
      rw [List.filterMap_cons_none happlied]
      exact ⟨hnodup, fun p hp hold => hnone p hp (hkeep p hold)⟩
    | some q =>
      obtain ⟨hq, hqnow⟩ := hnew q happlied
      rw [List.filterMap_cons_some happlied, List.nodup_cons]
      refine ⟨⟨fun hmem => hnone q hmem hqnow, hnodup⟩, ?_⟩
      intro p hp
      rcases List.mem_cons.1 hp with rfl | hrest
      · exact hq
      · exact fun hold => hnone p hrest (hkeep p hold)

/-- **Applying is a single bounded step** exactly if each recommendation still fits when it is
applied.  No recommendation is ever applied twice. -/
theorem applies_iff_fits (percent : ℚ → String) (minSampleSize : ℕ) (cs : List TunerCall)
    (hordinary : ∀ c ∈ cs, c.Ordinary) (hids : (cs.filterMap TunerCall.drawn).Nodup) :
    ((Machine.outputs (tunerStep percent) (.init minSampleSize) cs).filterMap
        TunerReply.appliedTo).Nodup ∧
      Machine.Always (tunerStep percent) Applies (.init minSampleSize) cs ↔
    Machine.Always (tunerStep percent) Fits (.init minSampleSize) cs := by
  have honce := (applied_once percent cs (s := .init minSampleSize) (fun _ _ _ => rfl) hids).1
  have hrun : Machine.Always (tunerStep percent) (fun _ c => c.Ordinary) (.init minSampleSize) cs :=
    Machine.always_congr (fun _ _ => by simp) _ _ |>.1 <|
      (Machine.always_of_forall (P := fun _ _ => True) (fun _ _ => trivial) _ _).and_of_mem hordinary
  have hsteps := Machine.always_congr_of_inv (I := SensitivityTuner.InOrder)
    (fun s c hs hc => hs.step hc) (fun s c hs _ => applies_iff hs c)
    (inOrder_init minSampleSize) hrun
  rw [hsteps]
  exact and_iff_right honce

/-! ### A recommendation that waits -/

/-- Ten verdicts of one window, all of them false positives. -/
def sampleVerdicts : List FeedbackRecord :=
  (List.range 10).map fun n => {
    feedbackId := Uuid.ofNat (100 + n)
    tenantId := Uuid.ofNat 1
    accountId := Uuid.ofNat 2
    incidentId := Uuid.ofNat (200 + n)
    messageId := "msg"
    originalRiskScore := 60
    originalCalibratedProb := 1 / 2
    originalVerdict := .suspicious
    originalAction := .quarantined
    correctedVerdict := .falsePositive
    reasonCategory := .other
    analystId := "ana"
    analystTrustLevel := .juniorAnalyst
    analystNotes := ""
    convergenceApplied := false
    convergenceWeight := 1 / 2
    createdAt := 0 }

/-- A recommendation for the tenant. -/
def sampleGenerate (id : ℕ) : TunerCall :=
  .generate ⟨Uuid.ofNat 1, 30, none, none, sampleVerdicts, 60, Uuid.ofNat id⟩

/-- The administrator applies it. -/
def sampleApply (id : ℕ) : TunerCall :=
  .apply (Uuid.ofNat 1) (Uuid.ofNat id) ⟨"root", Uuid.ofNat 1, "admin"⟩ 90

/-- Two recommendations in turn: from the top tier to the bottom one, a tier at a time. -/
theorem applies_twice_down :
    Machine.Always (tunerStep fun _ => "100.0") Applies (.init 10)
      [.set (Uuid.ofNat 1) "AGGRESSIVE", sampleGenerate 31, sampleApply 31, sampleGenerate 32,
        sampleApply 32] :=
  ((applies_iff_fits (fun _ => "100.0") 10 _ (by decide +kernel) (by decide +kernel)).2
    (by decide +kernel)).2

/-- The recommendation is made when the top tier is active, and applied when the tenant has been
set to the bottom one. -/
def sampleOverride : List TunerCall :=
  [.set (Uuid.ofNat 1) "AGGRESSIVE", sampleGenerate 31, .set (Uuid.ofNat 1) "PERMISSIVE",
    sampleApply 31]

/-- **A recommendation to decrease raises the sensitivity**, from the bottom tier to the middle
one. -/
theorem decrease_raises :
    ¬Machine.Always (tunerStep fun _ => "100.0") Applies (.init 10) sampleOverride ∧
    (∃ r, ((Machine.run (tunerStep fun _ => "100.0") (.init 10) sampleOverride).recs
        (Uuid.ofNat 1)).get? (Uuid.ofNat 31) = some r ∧ r.direction = .decreaseSensitivity) ∧
    getTenantSensitivity (Machine.run (tunerStep fun _ => "100.0") (.init 10)
      (sampleOverride.take 3)) (Uuid.ofNat 1) = "PERMISSIVE" ∧
    getTenantSensitivity (Machine.run (tunerStep fun _ => "100.0") (.init 10) sampleOverride)
      (Uuid.ofNat 1) = "BALANCED" := by
  have hinOrder : (Machine.run (tunerStep fun _ => "100.0") (.init 10)
      (sampleOverride.take 3)).InOrder :=
    Machine.inv_run (C := fun _ c => c.Ordinary) (fun _ _ hs hc => hs.step hc) (inOrder_init 10)
      ⟨by decide, rfl, by decide, trivial⟩
  obtain ⟨hfits, hdirection, hbefore, hafter⟩ :
      ¬Fits (Machine.run (tunerStep fun _ => "100.0") (.init 10) (sampleOverride.take 3))
        (sampleApply 31) ∧
      (((Machine.run (tunerStep fun _ => "100.0") (.init 10) sampleOverride).recs
        (Uuid.ofNat 1)).get? (Uuid.ofNat 31)).map (·.direction) = some .decreaseSensitivity ∧
      getTenantSensitivity (Machine.run (tunerStep fun _ => "100.0") (.init 10)
        (sampleOverride.take 3)) (Uuid.ofNat 1) = "PERMISSIVE" ∧
      getTenantSensitivity (Machine.run (tunerStep fun _ => "100.0") (.init 10) sampleOverride)
        (Uuid.ofNat 1) = "BALANCED" := by
    decide +kernel
  refine ⟨?_, by simpa using hdirection, hbefore, hafter⟩
  rintro ⟨-, -, -, happlies, -⟩
  exact hfits ((applies_iff hinOrder (sampleApply 31)).1 happlies)

end ScamOn.Feedback
