import Mathlib.Data.List.Dedup
import Mathlib.Data.List.Sort
import Mathlib.Data.String.Basic
import ScamOn.Feedback.Service
import ScamOn.Risk.Fusion

/-!
# Risk assessment

`RiskAssessmentPipeline.assess_risk` scores an e-mail in one of two ways: if there is a result
about its content, its URLs or its correlation with others, with the multimodal score of the
fused signals, else with the legacy score of a few features.

* `legacyRules` and `calculateLegacyScore` are the legacy score, `assessRisk` the assessment.
* `extras_never_lower`: among the assessments that have such a result, more results do not
  lower the score.  The legacy score is below all of them exactly if it is below the multimodal
  score of the signals that are always there.
* `extras_lower_score`: which it need not be.
-/

namespace ScamOn.Risk

open Feedback (Verdict)
open Remediation (ActionTaken)

/-! ## Data -/

/-- `RiskPolicyConfig`: the weights, with their defaults. -/
structure RiskPolicyConfig where
  weightDisplayNameSpoof : ℤ := 40
  weightMaliciousIoc : ℤ := 35
  weightDmarcFail : ℤ := 30
  weightReplyToMismatch : ℤ := 25
  weightThreadHijack : ℤ := 25
  weightSpfFail : ℤ := 20
  weightDkimFail : ℤ := 15
  weightLowHeaderIntegrity : ℤ := 15
  weightFreeWebmailReplyTo : ℤ := 15
  weightReturnPathMismatch : ℤ := 10

/-- The weights, in the order of the rules that add them. -/
def RiskPolicyConfig.weights (config : RiskPolicyConfig) : List ℤ :=
  [config.weightDisplayNameSpoof, config.weightMaliciousIoc, config.weightDmarcFail,
    config.weightReplyToMismatch, config.weightThreadHijack, config.weightSpfFail,
    config.weightDkimFail, config.weightLowHeaderIntegrity, config.weightFreeWebmailReplyTo,
    config.weightReturnPathMismatch]

/-- The features that the legacy score reads. -/
structure Features where
  isDisplayNameSpoofed : Bool
  isReplyToMismatched : Bool
  isReplyToFreeWebmail : Bool
  isReturnPathMismatched : Bool
  isThreadHijackSuspect : Bool
  headerIntegrityScore : ℚ
  spfResult : String
  dkimResult : String
  dmarcResult : String
  maliciousIocCount : ℤ
  intelConfidence : ℚ

/-- `TenantRiskProfile`: what decides about the verdict, with the defaults. -/
structure TenantRiskProfile where
  thresholdCleanMax : ℤ := 29
  thresholdSuspiciousMax : ℤ := 69
  thresholdMaliciousQuarantineMax : ℤ := 89
  enforceQuarantineOnSuspicious : Bool := false

/-- `RiskAssessment`: the score and what is decided by it. -/
structure RiskAssessment where
  riskScore : ℤ
  verdict : Verdict
  recommendedAction : ActionTaken
  riskEvidence : List RiskEvidence
  threatCategories : List String

/-! ## The legacy score -/

/-- `extract_all_features`, with the registry's own providers. -/
def extractAllFeatures (transmission : TransmissionAnalysis) (auth : AuthenticationVerification)
    (intel : ThreatIntelEnrichment) : Features where
  isDisplayNameSpoofed := transmission.senderIdentity.isDisplayNameSpoofed
  isReplyToMismatched := transmission.senderIdentity.isReplyToMismatched
  isReplyToFreeWebmail := transmission.senderIdentity.isReplyToFreeWebmail
  isReturnPathMismatched := transmission.senderIdentity.isReturnPathMismatched
  isThreadHijackSuspect := transmission.isThreadHijackSuspect
  headerIntegrityScore := transmission.headerIntegrityScore
  spfResult := auth.spf.result
  dkimResult := auth.dkimOverallResult
  dmarcResult := auth.dmarc.result
  maliciousIocCount := intel.maliciousIocCount
  intelConfidence := intel.overallConfidence

/-- A rule of the legacy score: whether it applies, and what it adds. -/
structure LegacyRule where
  applies : Bool
  evidence : RiskEvidence
  category : Option String

/-- The rules, in order. -/
def legacyRules (config : RiskPolicyConfig) (f : Features) : List LegacyRule :=
  [ ⟨f.isDisplayNameSpoofed,
      ⟨"transmission", "is_display_name_spoofed", config.weightDisplayNameSpoof, 1,
        "Executive display name spoofing detected (BEC attempt)"⟩, some "BEC"⟩,
    ⟨0 < f.maliciousIocCount,
      ⟨"threat_intel", "malicious_ioc_count", config.weightMaliciousIoc, f.intelConfidence,
        toString f.maliciousIocCount ++ " malicious indicator(s) matched threat intelligence feeds"⟩,
      some "PHISHING"⟩,
    ⟨f.dmarcResult = "FAIL",
      ⟨"authentication", "dmarc_result", config.weightDmarcFail, 1,
        "DMARC authentication failed (Domain alignment or validation failure)"⟩, none⟩,
    ⟨f.isReplyToMismatched,
      ⟨"transmission", "is_reply_to_mismatched", config.weightReplyToMismatch, 1,
        "Reply-To address does not match From address"⟩, some "CREDENTIAL_HARVESTING"⟩,
    ⟨f.isThreadHijackSuspect,
      ⟨"transmission", "is_thread_hijack_suspect", config.weightThreadHijack, 85 / 100,
        "Thread hijacking suspect (fake Re: prefix without parent headers)"⟩, some "BEC"⟩,
    ⟨["FAIL", "SOFTFAIL"].contains f.spfResult,
      ⟨"authentication", "spf_result", config.weightSpfFail, 9 / 10,
        "SPF evaluation resulted in " ++ f.spfResult⟩, none⟩,
    ⟨f.dkimResult = "FAIL",
      ⟨"authentication", "dkim_result", config.weightDkimFail, 9 / 10,
        "DKIM signature verification failed"⟩, none⟩,
    ⟨f.headerIntegrityScore < 6 / 10,
      ⟨"transmission", "header_integrity_score", config.weightLowHeaderIntegrity, 8 / 10,
        "Header integrity score is low (" ++ fixed2 f.headerIntegrityScore ++ ")"⟩, none⟩,
    ⟨f.isReplyToFreeWebmail,
      ⟨"transmission", "is_reply_to_free_webmail", config.weightFreeWebmailReplyTo, 8 / 10,
        "Reply-To target is a free webmail account"⟩, none⟩,
    ⟨f.isReturnPathMismatched,
      ⟨"transmission", "is_return_path_mismatched", config.weightReturnPathMismatch, 7 / 10,
        "Return-Path domain differs from From domain"⟩, none⟩ ]

/-- `_calculate_legacy_score`: the score, the evidence in the order of the rules, and the sorted
categories. -/
def calculateLegacyScore (config : RiskPolicyConfig) (f : Features) :
    ℤ × List RiskEvidence × List String :=
  let applied := (legacyRules config f).filter (·.applies)
  (min 100 (applied.map (·.evidence.appliedWeight)).sum,
    applied.map (·.evidence),
    ["BEC", "CREDENTIAL_HARVESTING", "PHISHING"].filter fun cat =>
      applied.any fun rule => rule.category = some cat)

/-- The legacy score is negative only if a weight is. -/
theorem legacyScore_nonneg {config : RiskPolicyConfig} (h : ∀ w ∈ config.weights, 0 ≤ w)
    (f : Features) : 0 ≤ (calculateLegacyScore config f).1 := by
  have hweights : (legacyRules config f).map (·.evidence.appliedWeight) = config.weights := rfl
  refine le_min (by decide) (List.sum_nonneg fun w hw => h w ?_)
  obtain ⟨rule, hrule, rfl⟩ := List.mem_map.1 hw
  rw [← hweights]
  exact List.mem_map_of_mem (List.mem_filter.1 hrule).1

/-! ## The assessment -/

/-- `evaluate_policy`. -/
def TenantRiskProfile.evaluatePolicy (profile : TenantRiskProfile) (riskScore : ℤ) :
    Verdict × ActionTaken :=
  if riskScore ≤ profile.thresholdCleanMax then (.clean, .delivered)
  else if riskScore ≤ profile.thresholdSuspiciousMax then
    (.suspicious,
      if profile.enforceQuarantineOnSuspicious then .quarantined else .bannerInjected)
  else if riskScore ≤ profile.thresholdMaliciousQuarantineMax then (.malicious, .quarantined)
  else (.malicious, .blocked)

/-- `has_multimodal_inputs`. -/
def Extras.hasMultimodalInputs (e : Extras) : Bool :=
  e.contentRes.isSome || e.urlRes.isSome || e.correlationRes.isSome

/-- No result. -/
def Extras.omitted : Extras := ⟨none, none, none⟩

section Assess

variable (lower upper : String → String) (config : RiskPolicyConfig) (profile : TenantRiskProfile)
  (transmission : TransmissionAnalysis) (auth : AuthenticationVerification)
  (intel : ThreatIntelEnrichment)

/-- `calculate_multimodal_score` or `calculate_score`, with their input. -/
def calculateScore (extras : Extras) : Option (ℤ × List RiskEvidence × List String) :=
  if extras.hasMultimodalInputs then
    (fuseSignals lower upper transmission auth intel extras).map calculateMultimodalScore
  else some (calculateLegacyScore config (extractAllFeatures transmission auth intel))

/-- `assess_risk`; `none` is the error of a signal out of bounds. -/
def assessRisk (extras : Extras) : Option RiskAssessment :=
  (calculateScore lower upper config transmission auth intel extras).map
    fun (riskScore, evidence, categories) => {
      riskScore := riskScore
      verdict := (profile.evaluatePolicy riskScore).1
      recommendedAction := (profile.evaluatePolicy riskScore).2
      riskEvidence := evidence
      threatCategories := (categories ++ intel.threatCategories).dedup.insertionSort (· ≤ ·) }

/-- The multimodal score of the signals that are always there. -/
def ownScore : Option ℤ :=
  (baseSignals upper transmission auth intel).map fun base => (calculateMultimodalScore base).1

end Assess

/-! ## More results -/

section Score

variable {lower upper : String → String} {config : RiskPolicyConfig} {profile : TenantRiskProfile}
  {transmission : TransmissionAnalysis} {auth : AuthenticationVerification}
  {intel : ThreatIntelEnrichment} {e e' : Extras} {a : RiskAssessment}

/-- **What the score is**, if there is a result. -/
theorem riskScore_of_inputs (he : e.hasMultimodalInputs = true)
    (ha : assessRisk lower upper config profile transmission auth intel e = some a) :
    ∃ base, baseSignals upper transmission auth intel = some base ∧
      base.map NormalizedSignal.signalName = baseNames ∧
      a.riskScore = (calculateMultimodalScore (base ++ extraSignals lower e)).1 := by
  unfold assessRisk calculateScore fuseSignals at ha
  rw [if_pos he] at ha
  cases hbase : baseSignals upper transmission auth intel with
  | none => simp [hbase] at ha
  | some base =>
    simp only [hbase, Option.map_some, Option.some.injEq] at ha
    exact ⟨base, rfl, names_base hbase, by rw [← ha]⟩

variable (lower config profile e) in
/-- An assessment of these signals is made. -/
theorem exists_assessRisk {base : List NormalizedSignal} (he : e.hasMultimodalInputs = true)
    (hbase : baseSignals upper transmission auth intel = some base) :
    ∃ a, assessRisk lower upper config profile transmission auth intel e = some a ∧
      a.riskScore = (calculateMultimodalScore (base ++ extraSignals lower e)).1 := by
  unfold assessRisk calculateScore fuseSignals
  rw [if_pos he, hbase]
  exact ⟨_, rfl, rfl⟩

theorem riskScore_omitted
    (ha : assessRisk lower upper config profile transmission auth intel .omitted = some a) :
    a.riskScore = (calculateLegacyScore config (extractAllFeatures transmission auth intel)).1 := by
  cases ha
  rfl

/-- Results without a positive signal, and without a form, leave the score to the others. -/
theorem fusedScore_of_quiet {base : List NormalizedSignal}
    (hbase : base.map NormalizedSignal.signalName = baseNames)
    (hquiet : ∀ s ∈ extraSignals lower e, s.status ≠ .evaluatedPositive)
    (hform : elevated (normalizeUrlSignals e.urlRes) "has_credential_form" = false) :
    (calculateMultimodalScore (base ++ extraSignals lower e)).1 =
      (calculateMultimodalScore base).1 := by
  have hscales : scalesOf (base ++ extraSignals lower e) = scalesOf base := by
    have hnone : elevated base "has_credential_form" = false := by
      unfold elevated
      rw [signalNamed_eq_none (by rw [hbase]; decide)]
    rw [scalesOf_fused hbase, hform]
    unfold scalesOf
    simp only [hnone]
  have hpts : ∀ d, domainRawPts (scalesOf base) (extraSignals lower e) d = 0 := by
    intro d
    have hnil : domainSignals (extraSignals lower e) d = [] :=
      List.filter_eq_nil_iff.2 fun s hs h => hquiet s hs (of_decide_eq_true h).2
    unfold domainRawPts
    rw [hnil]
    rfl
  show scoreWith _ _ = scoreWith _ _
  unfold scoreWith domainFinalPts
  simp only [hscales, domainRawPts_append, hpts, add_zero]

/-- The result of a call that found no URL to speak of. -/
def quiet : Extras := ⟨none, some ⟨none, none, none⟩, none⟩

theorem fusedScore_quiet {base : List NormalizedSignal}
    (hbase : base.map NormalizedSignal.signalName = baseNames) :
    (calculateMultimodalScore (base ++ extraSignals lower quiet)).1 =
      (calculateMultimodalScore base).1 := by
  refine fusedScore_of_quiet hbase ?_ (by decide +kernel)
  show ∀ s ∈ extraSignals id quiet, s.status ≠ .evaluatedPositive
  decide

/-- The signals that are always there do not score more without the others. -/
theorem ownScore_le {base : List NormalizedSignal}
    (hbase : base.map NormalizedSignal.signalName = baseNames) (e : Extras) :
    (calculateMultimodalScore base).1 ≤ (calculateMultimodalScore (base ++ extraSignals lower e)).1 := by
  have homitted : (calculateMultimodalScore (base ++ extraSignals lower .omitted)).1 =
      (calculateMultimodalScore base).1 := by
    refine fusedScore_of_quiet hbase ?_ (by decide +kernel)
    show ∀ s ∈ extraSignals id .omitted, s.status ≠ .evaluatedPositive
    decide
  rw [← homitted]
  exact fusedScore_mono hbase ⟨.inl rfl, .inl rfl, .inl rfl⟩

theorem hasMultimodalInputs_of_extendedBy (h : e.ExtendedBy e')
    (he : e.hasMultimodalInputs = true) : e'.hasMultimodalInputs = true := by
  have hsome : ∀ {ρ : Type} {r r' : Option ρ}, r = none ∨ r' = r → r.isSome = true →
      r'.isSome = true := by
    rintro ρ r r' (rfl | rfl) hr
    · cases hr
    · exact hr
  unfold Extras.hasMultimodalInputs at he ⊢
  simp only [Bool.or_eq_true] at he ⊢
  exact he.imp (Or.imp (hsome h.content) (hsome h.url)) (hsome h.correlation)

end Score

/-- **Extra results do not lower the score** below that of an assessment with some of them, nor
below the multimodal score of the signals that are always there.  They do not lower it below the
score of the assessment without any exactly if the legacy score is at most that. -/
theorem extras_never_lower (lower upper : String → String) (profile : TenantRiskProfile)
    (transmission : TransmissionAnalysis) (auth : AuthenticationVerification)
    (intel : ThreatIntelEnrichment) :
    (∀ e e' a a', e.hasMultimodalInputs = true → e.ExtendedBy e' →
      assessRisk lower upper {} profile transmission auth intel e = some a →
      assessRisk lower upper {} profile transmission auth intel e' = some a' →
      a.riskScore ≤ a'.riskScore) ∧
    (∀ e a, e.hasMultimodalInputs = true →
      assessRisk lower upper {} profile transmission auth intel e = some a →
      ∃ own, ownScore upper transmission auth intel = some own ∧ own ≤ a.riskScore) ∧
    ((∀ e a a₀, e.hasMultimodalInputs = true →
      assessRisk lower upper {} profile transmission auth intel e = some a →
      assessRisk lower upper {} profile transmission auth intel .omitted = some a₀ →
      a₀.riskScore ≤ a.riskScore) ↔
      ∀ own, ownScore upper transmission auth intel = some own →
        (calculateLegacyScore {} (extractAllFeatures transmission auth intel)).1 ≤ own) := by
  have hown : ∀ e a, e.hasMultimodalInputs = true →
      assessRisk lower upper {} profile transmission auth intel e = some a →
      ∃ own, ownScore upper transmission auth intel = some own ∧ own ≤ a.riskScore := by
    intro e a he ha
    obtain ⟨base, hbase, hnames, hscore⟩ := riskScore_of_inputs he ha
    exact ⟨_, by rw [ownScore, hbase]; rfl, by rw [hscore]; exact ownScore_le hnames e⟩
  refine ⟨?_, hown, ?_, ?_⟩
  · intro e e' a a' he hext ha ha'
    obtain ⟨base, hbase, hnames, hscore⟩ := riskScore_of_inputs he ha
    obtain ⟨base', hbase', -, hscore'⟩ :=
      riskScore_of_inputs (hasMultimodalInputs_of_extendedBy hext he) ha'
    cases hbase.symm.trans hbase'
    rw [hscore, hscore']
    exact fusedScore_mono hnames hext
  · intro h own hscore
    obtain ⟨base, hbase, rfl⟩ := Option.map_eq_some_iff.1 hscore
    obtain ⟨a, ha, hquiet⟩ := exists_assessRisk lower {} profile quiet rfl hbase
    have hle := h quiet a _ rfl ha rfl
    rw [hquiet, fusedScore_quiet (names_base hbase)] at hle
    exact hle
  · intro h e a a₀ he ha ha₀
    obtain ⟨own, hscore, hle⟩ := hown e a he ha
    rw [riskScore_omitted ha₀]
    exact (h own hscore).trans hle

/-! ### The two scores of one e-mail -/

/-- A transmission with nothing suspicious. -/
def cleanTransmission : TransmissionAnalysis :=
  ⟨⟨"a@corp.test", "A", none, false, false, false, false⟩, false, 1⟩

/-- An authentication with these results, and nothing else. -/
def authResults (dmarc spf : String) : AuthenticationVerification :=
  ⟨⟨dmarc, "corp.test", "none"⟩, ⟨spf, "corp.test", some "192.0.2.1"⟩, "PASS", ⟨false, 0⟩⟩

/-- Threat feeds that know nothing. -/
def cleanIntel : ThreatIntelEnrichment := ⟨0, 0, [], [], []⟩

/-- A failed DMARC check weighs the same either way. -/
theorem extras_never_lower_dmarc :
    ∃ a a₀,
      assessRisk id Text.asciiUpper {} {} cleanTransmission (authResults "FAIL" "PASS") cleanIntel
        quiet = some a ∧
      assessRisk id Text.asciiUpper {} {} cleanTransmission (authResults "FAIL" "PASS") cleanIntel
        .omitted = some a₀ ∧
      a₀.riskScore ≤ a.riskScore := by
  obtain ⟨base, hbase⟩ : ∃ base, baseSignals Text.asciiUpper cleanTransmission
      (authResults "FAIL" "PASS") cleanIntel = some base :=
    Option.isSome_iff_exists.1 (by decide +kernel)
  obtain ⟨a, ha, -⟩ := exists_assessRisk id {} {} quiet rfl hbase
  have hscore : ownScore Text.asciiUpper cleanTransmission (authResults "FAIL" "PASS") cleanIntel =
      some 30 := by
    decide +kernel
  have hlegacy : (calculateLegacyScore {} (extractAllFeatures cleanTransmission
      (authResults "FAIL" "PASS") cleanIntel)).1 = 30 := by
    decide +kernel
  refine ⟨a, _, ha, rfl, ?_⟩
  refine (extras_never_lower id Text.asciiUpper {} cleanTransmission (authResults "FAIL" "PASS")
    cleanIntel).2.2.2 (fun own hown => ?_) quiet a _ rfl ha rfl
  cases hscore.symm.trans hown
  exact hlegacy.le

/-- **The ceiling shows.**  Failed DMARC and SPF checks score `50`.  With the result of an
analysis that found no URL, they score `30`, the most that authentication can. -/
theorem extras_lower_score :
    (assessRisk id Text.asciiUpper {} {} cleanTransmission (authResults "FAIL" "FAIL") cleanIntel
      .omitted).map (·.riskScore) = some 50 ∧
    (assessRisk id Text.asciiUpper {} {} cleanTransmission (authResults "FAIL" "FAIL") cleanIntel
      quiet).map (·.riskScore) = some 30 := by
  refine ⟨?_, ?_⟩
  · decide +kernel
  · decide +kernel

end ScamOn.Risk
