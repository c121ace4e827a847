import ScamOn.Orchestrator.Pipeline
import ScamOn.Risk.FeatureVector
import ScamOn.ThreatIntel.Enrichment

/-!
# The engine around the pipeline

`OrchestratorEngine.analyze_email` runs the pipeline and publishes how it starts and how it ends.
The risk engine that it comes with is the one of the module `Risk`.

* `analyzeEmail` is the function; its trace is what is published.
* `assess` is `RiskAssessmentPipeline.assess_risk` with the confidence, the summary and the
  recommendations of its result, and `assess_valid` says that a degraded plan can always be made of
  it.
* `analyzeEmail_completes_iff`: an e-mail that can be parsed is analysed, unless the signals are
  fused and the threat feeds are not sound, or they are not and the legacy score is negative.
* `analyzeEmail_of_bounded_feeds`: neither can be, if no weight is negative and all the providers
  report confidences within bounds and finite ages.
* `blackout_delivers`: if none of the six analyses gets through, every e-mail scores `0`, and is
  published as clean with full confidence.
-/

namespace ScamOn.Orchestrator

open Traced
open Feedback (Verdict)
open Remediation (ActionTaken)

/-! ## Publishing -/

/-- The events of the engine. -/
inductive PipelineEvent
  | started (tenantId rawEmailId : Uuid) (messageId : String)
  | completed (tenantId analysisId : Uuid) (messageId : String) (verdict : Verdict) (riskScore : ℤ)
    (totalTimeMs : ℚ) (slaBreached : Bool)
  | failed (tenantId rawEmailId : Uuid) (messageId failedStage errorMessage : String)

/-- The text of an error. -/
def PipelineError.text : PipelineError → String
  | .stageFailure message => message
  | .pipelineCancelled => "Pipeline execution was cancelled"
  | .validation text => text
  | .taskCancelled => ""

/-- `_publish_event`, if there is a publisher: an exception is logged, a cancellation is not
caught. -/
def publishEvent (publisher : Option (PipelineEvent → Except Failure Unit)) (event : PipelineEvent) :
    Traced PipelineEvent PipelineError Unit :=
  match publisher with
  | none => done ()
  | some publish => do
    emit event
    match publish event with
    | .error .cancelled => fail .taskCancelled
    | _ => return ()

/-- `analyze_email`. -/
def analyzeEmail (x : Engines) (env : Environment)
    (publisher : Option (PipelineEvent → Except Failure Unit)) (rawEmail : RawEmail)
    (analysisId : Uuid) : Traced PipelineEvent PipelineError EmailAnalysisResult := do
  let messageId := if rawEmail.messageId = "" then "unknown" else rawEmail.messageId
  publishEvent publisher (.started rawEmail.tenantId rawEmail.id messageId)
  match (executePipeline x env rawEmail analysisId).result with
  | .ok result =>
    publishEvent publisher (.completed result.tenantId result.analysisId result.messageId
      result.riskAssessment.assessment.verdict result.riskAssessment.assessment.riskScore
      result.totalExecutionTimeMs result.slaBreached)
    return result
  | .error .taskCancelled => fail .taskCancelled
  | .error e =>
    publishEvent publisher (.failed rawEmail.tenantId rawEmail.id messageId "pipeline_execution"
      e.text)
    fail e

/-! ## The risk engine -/

/-- What the risk engine is configured with, and what it leaves to others. -/
structure RiskSetting where
  lower : String → String
  upper : String → String
  config : Risk.RiskPolicyConfig
  /-- `get_profile`. -/
  profileOf : Uuid → Risk.TenantRiskProfile
  /-- The order in which a set hands over its members. -/
  setOrder : List String → List String
  setOrder_perm : ∀ l, (setOrder l).Perm l
  assessmentId : Uuid
  /-- The text of the error of signals that cannot be fused. -/
  boundsText : String

/-- `feature_completeness`, before it is rounded. -/
def featureCompleteness (parsed : ParsedEmail) (transmission : TransmissionAnalysis)
    (auth : AuthenticationVerification) : ℚ :=
  max (1 / 2) (1 - (if parsed.messageId = "" ∨ parsed.senderAddress = "" then 1 / 10 else 0) -
    (if transmission.findings.headerIntegrityScore < 3 / 10 then 1 / 10 else 0) -
    (if auth.findings.spf.result = "UNKNOWN" then 1 / 10 else 0))

/-- `evidence_quality`, before it is rounded. -/
def evidenceQuality (evidence : List Risk.RiskEvidence) : ℚ :=
  if evidence = [] then 1
  else max (6 / 10) ((evidence.map (·.confidence)).sum / evidence.length)

/-- `provider_agreement`, before it is rounded. -/
def providerAgreement (matchedFeeds : List String) : ℚ :=
  if matchedFeeds = [] then 1 else min 1 (7 / 10 + matchedFeeds.length * (1 / 10))

/-- `fuse_confidence`, the overall confidence. -/
def fuseConfidence (parsed : ParsedEmail) (transmission : TransmissionAnalysis)
    (auth : AuthenticationVerification) (intel : ThreatIntelEnrichmentResult)
    (evidence : List Risk.RiskEvidence) : ℚ :=
  roundDigits 2 (min 1 (featureCompleteness parsed transmission auth * (4 / 10) +
    evidenceQuality evidence * (4 / 10) + providerAgreement intel.findings.matchedFeeds * (2 / 10)))

/-- `generate_summary`. -/
def generateSummary (riskScore : ℤ) (verdict : Verdict) (action : ActionTaken)
    (evidence : List Risk.RiskEvidence) : String :=
  let head := "Incident assessed as " ++ verdict.value ++ " (Risk Score: " ++ toString riskScore ++
    "/100). Recommended Action: " ++ action.value ++ "."
  if evidence = [] ∨ verdict = .clean then head ++ " Zero malicious risk indicators detected."
  else
    let top := (evidence.insertionSort fun e e' => e'.appliedWeight ≤ e.appliedWeight).take 3
    head ++ " Top risk factors: " ++ "; ".intercalate
      (top.map fun e => e.explanation ++ " (+" ++ toString e.appliedWeight ++ " pts)") ++ "."

/-- What `enrich_risk_profile` recommends, by the two tactics it is told of. -/
def socRecommendationTexts (impersonation harvesting : Bool) : List String :=
  let found :=
    (if impersonation then
      ["Alert the accounting department to block related wire instructions.",
        "Initiate out-of-band communication check with the vendor/sender."] else []) ++
    (if harvesting then
      ["Force account password reset on active identity.",
        "Verify active login logs in Azure AD / Okta.",
        "Enable MFA protection enforcement rules."] else [])
  if found = [] then ["Monitor email traffic for visual typosquatting indicators."] else found

/-- The `RiskAssessment` of an e-mail with this assessment. -/
def assessed (s : RiskSetting) (parsed : ParsedEmail) (transmission : TransmissionAnalysis)
    (auth : AuthenticationVerification) (intel : ThreatIntelEnrichmentResult)
    (a : Risk.RiskAssessment) : RiskAssessment :=
  {
    assessmentId := s.assessmentId
    parsedId := parsed.parsedId
    tenantId := parsed.tenantId
    messageId := parsed.messageId
    assessment := a
    overallConfidence := fuseConfidence parsed transmission auth intel a.riskEvidence
    explainabilitySummary :=
      generateSummary a.riskScore a.verdict a.recommendedAction a.riskEvidence
    socRecommendations := s.setOrder (socRecommendationTexts
      transmission.findings.senderIdentity.isDisplayNameSpoofed
      transmission.findings.senderIdentity.isReplyToMismatched) }

/-- `RiskAssessmentEngine.assess_risk`, with the check that `calibrate` makes of the score. -/
def assess (s : RiskSetting) (parsed : ParsedEmail) (transmission : TransmissionAnalysis)
    (auth : AuthenticationVerification) (intel : ThreatIntelEnrichmentResult)
    (extras : Risk.Extras) : Except Failure RiskAssessment :=
  match Risk.assessRisk s.lower s.upper s.config (s.profileOf parsed.tenantId)
      transmission.findings auth.findings intel.findings extras with
  | none => .error (.exception s.boundsText)
  | some a =>
    if a.riskScore < 0 ∨ 100 < a.riskScore then
      .error (.exception ("Risk score must be in range [0, 100], got " ++ toString a.riskScore))
    else .ok (assessed s parsed transmission auth intel a)

section Assess

variable (s : RiskSetting) (parsed : ParsedEmail) (transmission : TransmissionAnalysis)
  (auth : AuthenticationVerification) (intel : ThreatIntelEnrichmentResult) (extras : Risk.Extras)

/-- What is between `0` and `1` stays there when it is rounded. -/
theorem roundDigits_mem {q : ℚ} (h : 0 ≤ q ∧ q ≤ 1) : 0 ≤ roundDigits 2 q ∧ roundDigits 2 q ≤ 1 := by
  constructor
  · rw [← roundDigits_zero (K := ℚ) 2]
    exact roundDigits_mono 2 h.1
  · have habs : |q| ≤ (1 : ℕ) := by rw [abs_of_nonneg h.1]; exact_mod_cast h.2
    have hround : |roundDigits 2 q| ≤ (1 : ℕ) := abs_roundDigits_le 1 habs
    simpa using (le_abs_self _).trans hround

theorem fuseConfidence_mem (evidence : List Risk.RiskEvidence) :
    0 ≤ fuseConfidence parsed transmission auth intel evidence ∧
      fuseConfidence parsed transmission auth intel evidence ≤ 1 := by
  have hcomplete : 0 ≤ featureCompleteness parsed transmission auth :=
    le_max_of_le_left (by norm_num)
  have hquality : 0 ≤ evidenceQuality evidence := by
    unfold evidenceQuality
    split_ifs
    · norm_num
    · exact le_max_of_le_left (by norm_num)
  have hagree : 0 ≤ providerAgreement intel.findings.matchedFeeds := by
    unfold providerAgreement
    split_ifs
    · norm_num
    · positivity
  exact roundDigits_mem ⟨le_min zero_le_one (by positivity), min_le_left _ _⟩

theorem assess_eq_ok_iff {risk : RiskAssessment} :
    assess s parsed transmission auth intel extras = .ok risk ↔
      ∃ a, Risk.assessRisk s.lower s.upper s.config (s.profileOf parsed.tenantId)
        transmission.findings auth.findings intel.findings extras = some a ∧
      (0 ≤ a.riskScore ∧ a.riskScore ≤ 100) ∧ risk = assessed s parsed transmission auth intel a := by
  unfold assess
  cases Risk.assessRisk s.lower s.upper s.config (s.profileOf parsed.tenantId)
      transmission.findings auth.findings intel.findings extras with
  | none => simp
  | some a =>
    dsimp only
    split_ifs with hscore
    · simp only [Option.some.injEq, exists_eq_left', false_iff]
      rintro ⟨hbounds, -⟩
      omega
    · simp only [Except.ok.injEq, Option.some.injEq, exists_eq_left']
      have hbounds : 0 ≤ a.riskScore ∧ a.riskScore ≤ 100 := by omega
      simp [hbounds, eq_comm]

/-- **A degraded plan can be made of every assessment.** -/
theorem assess_valid {risk : RiskAssessment}
    (h : assess s parsed transmission auth intel extras = .ok risk) : ValidConfidence risk := by
  obtain ⟨a, -, -, rfl⟩ := (assess_eq_ok_iff ..).1 h
  exact fuseConfidence_mem parsed transmission auth intel _

/-- **What the risk engine takes**: sound results of the threat feeds, if the signals are fused, and
else a legacy score that is not negative. -/
structure Assessable (config : Risk.RiskPolicyConfig) (transmission : Risk.TransmissionAnalysis)
    (auth : Risk.AuthenticationVerification) (intel : Risk.ThreatIntelEnrichment)
    (extras : Risk.Extras) : Prop where
  sound : extras.hasMultimodalInputs = true → Risk.SoundIntel intel
  score : extras.hasMultimodalInputs = false →
    0 ≤ (Risk.calculateLegacyScore config (Risk.extractAllFeatures transmission auth intel)).1

/-- **When an assessment is made.** -/
theorem exists_assess_iff :
    (∃ risk, assess s parsed transmission auth intel extras = .ok risk) ↔
      Assessable s.config transmission.findings auth.findings intel.findings extras := by
  have hexists : (∃ risk, assess s parsed transmission auth intel extras = .ok risk) ↔
      ∃ scored, Risk.calculateScore s.lower s.upper s.config transmission.findings auth.findings
        intel.findings extras = some scored ∧ 0 ≤ scored.1 ∧ scored.1 ≤ 100 := by
    simp only [assess_eq_ok_iff, Risk.assessRisk, Option.map_eq_some_iff]
    constructor
    · rintro ⟨risk, a, ⟨scored, hscored, rfl⟩, hbounds, -⟩
      exact ⟨scored, hscored, hbounds⟩
    · rintro ⟨scored, hscored, hbounds⟩
      exact ⟨_, _, ⟨scored, hscored, rfl⟩, hbounds, rfl⟩
  rw [hexists]
  unfold Risk.calculateScore
  cases hinputs : extras.hasMultimodalInputs with
  | false =>
    simp only [Bool.false_eq_true, if_false, Option.some.injEq, exists_eq_left']
    constructor
    · exact fun h => ⟨fun hfused => (by simp [hinputs] at hfused), fun _ => h.1⟩
    · exact fun h => ⟨h.score hinputs, min_le_left _ _⟩
  | true =>
    simp only [if_true, Option.map_eq_some_iff]
    constructor
    · rintro ⟨-, ⟨signals, hsignals, -⟩, -⟩
      exact ⟨fun _ => (Risk.exists_fuseSignals_iff ..).1 ⟨signals, hsignals⟩,
        fun hlegacy => by simp [hinputs] at hlegacy⟩
    · intro h
      obtain ⟨signals, hsignals⟩ := (Risk.exists_fuseSignals_iff s.lower s.upper
        transmission.findings auth.findings intel.findings extras).2 (h.sound hinputs)
      exact ⟨_, ⟨signals, hsignals, rfl⟩, le_min (by decide) (le_max_left _ _), min_le_left _ _⟩

end Assess

/-! ## What is published -/

section Published

variable {x : Engines} {env : Environment} {publish : PipelineEvent → Except Failure Unit}
  {publisher : Option (PipelineEvent → Except Failure Unit)} {rawEmail : RawEmail}
  {analysisId : Uuid} {event : PipelineEvent}

/-- The publisher returns, or raises an `Exception`. -/
def Reliable (publisher : Option (PipelineEvent → Except Failure Unit)) : Prop :=
  ∀ publish ∈ publisher, ∀ event, Answers (publish event)

theorem publishEvent_eq (h : Reliable publisher) :
    publishEvent publisher event = ⟨if publisher.isSome then [event] else [], .ok ()⟩ := by
  cases publisher with
  | none => rfl
  | some publish =>
    have hanswers := h publish rfl event
    unfold publishEvent
    rcases hevent : publish event with (text | _) | _
    · simp [bind_of_ok (result_emit event), hevent]
    · exact absurd hevent hanswers
    · simp [bind_of_ok (result_emit event), hevent]

/-- The event that says how a run ended, if its task was not cancelled. -/
def closingEvent (rawEmail : RawEmail) : Except PipelineError EmailAnalysisResult → Option PipelineEvent
  | .ok result => some (.completed result.tenantId result.analysisId result.messageId
      result.riskAssessment.assessment.verdict result.riskAssessment.assessment.riskScore
      result.totalExecutionTimeMs result.slaBreached)
  | .error .taskCancelled => none
  | .error e => some (.failed rawEmail.tenantId rawEmail.id
      (if rawEmail.messageId = "" then "unknown" else rawEmail.messageId) "pipeline_execution" e.text)

/-- **What a publisher does is of no consequence**, be it that it fails: the engine ends as the
pipeline does, and what it tries to publish is the start and the one event that says how it ended. -/
theorem analyzeEmail_eq (h : Reliable publisher) :
    analyzeEmail x env publisher rawEmail analysisId =
      ⟨if publisher.isSome then
          .started rawEmail.tenantId rawEmail.id
              (if rawEmail.messageId = "" then "unknown" else rawEmail.messageId) ::
            (closingEvent rawEmail (executePipeline x env rawEmail analysisId).result).toList
        else [],
        (executePipeline x env rawEmail analysisId).result⟩ := by
  unfold analyzeEmail
  rw [bind_of_ok (by rw [publishEvent_eq h])]
  rcases (executePipeline x env rawEmail analysisId).result with (message | _ | text | _) | result
  all_goals
    cases hsome : publisher.isSome with
    | true => simp [publishEvent_eq h, hsome, closingEvent, bind_of_ok]
    | false => simp [publishEvent_eq h, hsome, bind_of_ok]

end Published

/-! ## The engine as it comes -/

/-- Nothing is cancelled, whatever the e-mail. -/
def Calm (x : Engines) (env : Environment) : Prop :=
  ∀ parsed risk, Undisturbed x env parsed risk

/-- An e-mail that can be parsed and assessed is analysed. -/
theorem exists_result_of_bounds {s : RiskSetting} {x : Engines} (hx : x.assessRisk = assess s)
    {env : Environment} (hcalm : Calm x env)
    {publisher : Option (PipelineEvent → Except Failure Unit)} (hpub : Reliable publisher)
    {rawEmail : RawEmail} (analysisId : Uuid) {parsed : ParsedEmail}
    (hparse : parseRawEmail x rawEmail = .ok parsed)
    (hbounds : Assessable s.config (transmissionOf x env parsed).findings
      (authOf x env parsed).findings (intelOf x env parsed).findings (extrasOf x env parsed)) :
    ∃ r, (analyzeEmail x env publisher rawEmail analysisId).result = .ok r := by
  obtain ⟨risk, hrisk⟩ := (exists_assess_iff s parsed (transmissionOf x env parsed)
    (authOf x env parsed) _ _).2 hbounds
  rw [analyzeEmail_eq hpub]
  refine ⟨_, (executePipeline_eq_ok_iff ..).2 ⟨parsed, risk, hparse, ?_, hcalm parsed risk,
    fun _ => assess_valid _ _ _ _ _ _ hrisk, rfl⟩⟩
  rw [askedRisk, hx]
  exact hrisk

/-- **An e-mail that can be parsed is analysed**, whatever the optional engines and the publisher do,
exactly if the risk engine takes what they found out. -/
theorem analyzeEmail_completes_iff (s : RiskSetting) (x : Engines) (hx : x.assessRisk = assess s)
    (env : Environment) (hcalm : Calm x env)
    (publisher : Option (PipelineEvent → Except Failure Unit)) (hpub : Reliable publisher)
    (rawEmail : RawEmail) (analysisId : Uuid) :
    (∃ r, (analyzeEmail x env publisher rawEmail analysisId).result = .ok r) ↔
      ∃ parsed, parseRawEmail x rawEmail = .ok parsed ∧
        Assessable s.config (transmissionOf x env parsed).findings
          (authOf x env parsed).findings (intelOf x env parsed).findings
          (extrasOf x env parsed) := by
  constructor
  · rintro ⟨r, hr⟩
    rw [analyzeEmail_eq hpub] at hr
    obtain ⟨parsed, risk, hparse, hrisk, -⟩ := (executePipeline_eq_ok_iff ..).1 hr
    rw [askedRisk, hx] at hrisk
    exact ⟨parsed, hparse, (exists_assess_iff ..).1 ⟨risk, hrisk⟩⟩
  · rintro ⟨parsed, hparse, hbounds⟩
    exact exists_result_of_bounds hx hcalm hpub analysisId hparse hbounds

/-- A setting with the defaults. -/
def someSetting : RiskSetting where
  lower := Text.asciiLower
  upper := Text.asciiUpper
  config := {}
  profileOf _ := {}
  setOrder := id
  setOrder_perm _ := .refl _
  assessmentId := .ofNat 6
  boundsText := "out of bounds"

/-- A publisher that always fails. -/
def failing (_ : PipelineEvent) : Except Failure Unit := .error (.exception "down")

theorem reliable_failing : Reliable (some failing) := by
  rintro publish ⟨⟩ event h
  cases h

/-- Nothing but the two critical engines works, and the e-mail is analysed. -/
theorem analyzeEmail_completes_outage :
    ∃ r, (analyzeEmail (outage (assess someSetting)) (steady 20) (some failing) someEmail
      (.ofNat 7)).result = .ok r := by
  refine (analyzeEmail_completes_iff someSetting (outage (assess someSetting)) rfl (steady 20)
    (undisturbed_outage) (some failing) reliable_failing someEmail (.ofNat 7)).2 ?_
  refine ⟨someParsed, rfl, fun h => ?_, fun _ => Risk.legacyScore_nonneg (by decide) _⟩
  cases h

/-- The ages that the risk engine reads of the targets of an enrichment. -/
def agesOf (targets : List ThreatIntel.IocTarget) : List (List (Option PyValue)) :=
  targets.map fun t => t.observations.map (·.domainAgeDays)

/-- Finite ages can be read. -/
theorem not_readsInfiniteAge {targets : List ThreatIntel.IocTarget}
    (h : ∀ t ∈ targets, ∀ o ∈ t.observations, o.InBounds) :
    ∀ target ∈ agesOf targets, ¬Risk.ReadsInfiniteAge target := by
  rintro target htarget ⟨before, x, after, heq, hx, -⟩
  obtain ⟨t, ht, rfl⟩ := List.mem_map.1 htarget
  have hmem : some (.float x) ∈ t.observations.map (·.domainAgeDays) := heq ▸ by simp
  obtain ⟨o, ho, hage⟩ := List.mem_map.1 hmem
  rcases hx with rfl | rfl
  · exact (h t ht o ho).age.1 hage
  · exact (h t ht o ho).age.2 hage

/-- **Feeds within bounds keep the analysis going**: whatever e-mails the threat-intelligence engine
has enriched before, an e-mail that can be parsed is analysed, if no weight of the risk engine is
negative, all confidences that the providers report are between `0` and `1`, and all ages finite. -/
theorem analyzeEmail_of_bounded_feeds (s : RiskSetting) (hweights : ∀ w ∈ s.config.weights, 0 ≤ w)
    (x : Engines) (hx : x.assessRisk = assess s)
    (env : Environment) (hcalm : Calm x env)
    (publisher : Option (PipelineEvent → Except Failure Unit)) (hpub : Reliable publisher)
    (rawEmail : RawEmail) (analysisId : Uuid) (parsed : ParsedEmail)
    (hparse : parseRawEmail x rawEmail = .ok parsed) {lower : String → String}
    (upper : String → String) (m : ThreatIntel.Manager lower ThreatIntel.Observation)
    (hm : m.Knows ThreatIntel.Observation.InBounds) (calls : List ThreatIntel.EnrichCall)
    (hcalls : ∀ c ∈ calls, c.Tells ThreatIntel.Observation.InBounds)
    (hintel : ∀ i, askedIntel x env parsed = .ok i →
      ∃ r, some r ∈ Machine.outputs (ThreatIntel.enrich upper) m calls ∧
        i.findings.maliciousIocCount = r.maliciousIocCount ∧
        i.findings.overallConfidence = r.overallConfidence.confidence ∧
        i.findings.enrichedTargets = agesOf r.enrichedTargets) :
    ∃ r, (analyzeEmail x env publisher rawEmail analysisId).result = .ok r := by
  refine exists_result_of_bounds hx hcalm hpub analysisId hparse
    ⟨fun _ => ?_, fun _ => Risk.legacyScore_nonneg hweights _⟩
  unfold intelOf
  cases hasked : askedIntel x env parsed with
  | error e => exact ⟨le_refl 0, ⟨le_refl 0, zero_le_one⟩, nofun⟩
  | ok i =>
    obtain ⟨r, hr, hcount, hconfidence, hages⟩ := hintel i hasked
    obtain ⟨hmem, hbounded⟩ := ThreatIntel.bounded_of_mem_outputs hm hcalls hr
    refine ⟨?_, ?_, ?_⟩
    · show 0 ≤ i.findings.maliciousIocCount
      rw [hcount]
      exact Int.natCast_nonneg _
    · show 0 ≤ i.findings.overallConfidence ∧ i.findings.overallConfidence ≤ 1
      rw [hconfidence]
      exact hmem
    · show ∀ target ∈ i.findings.enrichedTargets, ¬Risk.ReadsInfiniteAge target
      rw [hages]
      exact not_readsInfiniteAge hbounded

/-- Engines whose threat feeds work. -/
def withFeeds (r : ThreatIntel.EnrichmentResult) : Engines :=
  { outage (assess someSetting) with
    enrichThreatIntelligence := fun parsed transmission auth => .ok {
      enrichmentId := .ofNat 8
      parsedId := parsed.parsedId
      transmissionId := transmission.analysisId
      authVerificationId := auth.verificationId
      accountId := parsed.accountId
      tenantId := parsed.tenantId
      messageId := parsed.messageId
      findings := ⟨r.maliciousIocCount, r.overallConfidence.confidence, r.matchedFeeds,
        agesOf r.enrichedTargets, r.threatCategories⟩ } }

theorem calm_withFeeds (r : ThreatIntel.EnrichmentResult) {ms : ℚ} :
    Calm (withFeeds r) (steady ms) := fun _ _ =>
  { token := fun _ => rfl
    parallel := rfl
    intel := by rintro ⟨⟩
    content := by rintro ⟨⟩
    urls := by rintro ⟨⟩
    correlation := by rintro ⟨⟩
    plan := by rintro ⟨⟩
    remediation := by rintro ⟨⟩
    analytics := by rintro ⟨⟩ }

/-- A feed that flags an address with confidence `0.9`. -/
theorem analyzeEmail_of_bounded_feeds_flagged :
    ∃ x : Engines, ∃ r, (analyzeEmail x (steady 20) none someEmail (.ofNat 7)).result = .ok r := by
  obtain ⟨found, hfound, -⟩ := ThreatIntel.exists_result
  refine ⟨withFeeds found, analyzeEmail_of_bounded_feeds someSetting (by decide) (withFeeds found)
    rfl (steady 20) (calm_withFeeds found) none (by rintro _ ⟨⟩) someEmail (.ofNat 7) someParsed rfl
    Text.asciiUpper ThreatIntel.someManager ThreatIntel.knows_someManager [ThreatIntel.someCall] ?_ ?_⟩
  · intro c hc
    rw [List.mem_singleton.1 hc]
    refine ThreatIntel.someCall_tells ⟨?_, by decide, by decide⟩
    rintro q ⟨⟩
    norm_num
  · rintro i ⟨⟩
    exact ⟨found, hfound, rfl, rfl, rfl⟩

/-- None of the six analyses gets through. -/
structure Blackout (x : Engines) (env : Environment) (parsed : ParsedEmail) : Prop where
  transmission : (x.analyzeTransmission parsed).toOption = none
  auth : (x.verifyAuthentication parsed
    (defaultTransmission (env.fresh .temporaryTransmission) parsed)).toOption = none
  intel : (askedIntel x env parsed).toOption = none
  content : (x.analyzeContent parsed).toOption = none
  urls : (askedUrls x parsed).toOption = none
  correlation : (askedCorrelation x env parsed).toOption = none

/-- The defaults score nothing. -/
theorem legacyScore_default (config : Risk.RiskPolicyConfig) (i j k : Uuid) (parsed : ParsedEmail) :
    Risk.calculateLegacyScore config (Risk.extractAllFeatures (defaultTransmission i parsed).findings
      (defaultAuth j parsed (defaultTransmission i parsed)).findings
      (defaultIntel k parsed (defaultTransmission i parsed)
        (defaultAuth j parsed (defaultTransmission i parsed))).findings) = (0, [], []) := by
  have hrules : (Risk.legacyRules config (Risk.extractAllFeatures
      (defaultTransmission i parsed).findings
      (defaultAuth j parsed (defaultTransmission i parsed)).findings
      (defaultIntel k parsed (defaultTransmission i parsed)
        (defaultAuth j parsed (defaultTransmission i parsed))).findings)).filter (·.applies) = [] := by
    simp [Risk.legacyRules, Risk.extractAllFeatures, defaultTransmission, defaultAuth, defaultIntel]
    norm_num
  unfold Risk.calculateLegacyScore
  rw [hrules]
  rfl

/-- The confidence in the defaults. -/
theorem fuseConfidence_default (i j k : Uuid) (parsed : ParsedEmail) :
    fuseConfidence parsed (defaultTransmission i parsed)
        (defaultAuth j parsed (defaultTransmission i parsed))
        (defaultIntel k parsed (defaultTransmission i parsed)
          (defaultAuth j parsed (defaultTransmission i parsed))) [] =
      if parsed.messageId = "" ∨ parsed.senderAddress = "" then 96 / 100 else 1 := by
  have hcomplete : featureCompleteness parsed (defaultTransmission i parsed)
      (defaultAuth j parsed (defaultTransmission i parsed)) =
        if parsed.messageId = "" ∨ parsed.senderAddress = "" then 9 / 10 else 1 := by
    have hintegrity : ¬(defaultTransmission i parsed).findings.headerIntegrityScore < 3 / 10 := by
      show ¬(1 : ℚ) < 3 / 10
      norm_num
    have hspf : (defaultAuth j parsed (defaultTransmission i parsed)).findings.spf.result ≠
        "UNKNOWN" := by
      show "NONE" ≠ "UNKNOWN"
      decide
    rw [featureCompleteness, if_neg hintegrity, if_neg hspf]
    split_ifs
    · norm_num
    · norm_num
  unfold fuseConfidence
  rw [hcomplete]
  split_ifs
  · show roundDigits 2 (min 1 ((9 : ℚ) / 10 * (4 / 10) + 1 * (4 / 10) + 1 * (2 / 10))) = 96 / 100
    decide +kernel
  · show roundDigits 2 (min 1 ((1 : ℚ) * (4 / 10) + 1 * (4 / 10) + 1 * (2 / 10))) = 1
    decide +kernel

/-- What is made of an e-mail that nothing is known of. -/
theorem blackout_risk (s : RiskSetting) (x : Engines) (hx : x.assessRisk = assess s)
    (env : Environment) (parsed : ParsedEmail) (hblack : Blackout x env parsed)
    (hclean : 0 ≤ (s.profileOf parsed.tenantId).thresholdCleanMax) :
    ∃ risk, askedRisk x env parsed = .ok risk ∧ ValidConfidence risk ∧
      risk.assessment = ⟨0, .clean, .delivered, [], []⟩ ∧
      risk.overallConfidence =
        (if parsed.messageId = "" ∨ parsed.senderAddress = "" then 96 / 100 else 1) := by
  have htrans : transmissionOf x env parsed = defaultTransmission (env.fresh .transmission) parsed := by
    rw [transmissionOf, hblack.transmission]
    rfl
  have hauth : authOf x env parsed = defaultAuth (env.fresh .verification) parsed
      (defaultTransmission (env.fresh .transmission) parsed) := by
    rw [authOf, hblack.auth, htrans]
    rfl
  have hintel : intelOf x env parsed = defaultIntel (env.fresh .enrichment) parsed
      (defaultTransmission (env.fresh .transmission) parsed)
      (defaultAuth (env.fresh .verification) parsed
        (defaultTransmission (env.fresh .transmission) parsed)) := by
    rw [intelOf, hblack.intel, htrans, hauth]
    rfl
  have hextras : extrasOf x env parsed = .omitted := by
    rw [extrasOf, hblack.content, hblack.urls, hblack.correlation]
    rfl
  have hscore := legacyScore_default s.config (env.fresh .transmission) (env.fresh .verification)
    (env.fresh .enrichment) parsed
  have hassessed : Risk.assessRisk s.lower s.upper s.config (s.profileOf parsed.tenantId)
      (transmissionOf x env parsed).findings (authOf x env parsed).findings
      (intelOf x env parsed).findings (extrasOf x env parsed) =
        some ⟨0, .clean, .delivered, [], []⟩ := by
    rw [hextras, htrans, hauth, hintel]
    unfold Risk.assessRisk Risk.calculateScore
    rw [if_neg (by decide), hscore, Option.map_some]
    simp only [Risk.TenantRiskProfile.evaluatePolicy, if_pos hclean]
    rfl
  obtain ⟨risk, hrisk, hassessment, hconfidence⟩ : ∃ risk, askedRisk x env parsed = .ok risk ∧
      risk.assessment = ⟨0, .clean, .delivered, [], []⟩ ∧
      risk.overallConfidence =
        (if parsed.messageId = "" ∨ parsed.senderAddress = "" then 96 / 100 else 1) := by
    rw [askedRisk, hx]
    refine ⟨_, (assess_eq_ok_iff ..).2 ⟨_, hassessed, ⟨le_rfl, by decide⟩, rfl⟩, rfl, ?_⟩
    rw [htrans, hauth, hintel]
    exact fuseConfidence_default ..
  have hvalid : ValidConfidence risk := by
    have hassess := hrisk
    rw [askedRisk, hx] at hassess
    exact assess_valid s parsed _ _ _ _ hassess
  exact ⟨risk, hrisk, hvalid, hassessment, hconfidence⟩

/-- **An outage delivers everything.**  If none of the six analyses gets through, an e-mail that can
be parsed is analysed all the same: it scores `0` without any evidence, is clean and delivered under
every profile, with full confidence if it names its sender and has an identifier, and this is what
is published. -/
theorem blackout_delivers (s : RiskSetting) (x : Engines) (hx : x.assessRisk = assess s)
    (env : Environment) (hcalm : Calm x env) (publish : PipelineEvent → Except Failure Unit)
    (hpub : Reliable (some publish)) (rawEmail : RawEmail) (analysisId : Uuid) (parsed : ParsedEmail)
    (hparse : parseRawEmail x rawEmail = .ok parsed) (hblack : Blackout x env parsed)
    (hclean : 0 ≤ (s.profileOf parsed.tenantId).thresholdCleanMax) :
    ∃ r, (analyzeEmail x env (some publish) rawEmail analysisId).result = .ok r ∧
      r.riskAssessment.assessment = ⟨0, .clean, .delivered, [], []⟩ ∧
      r.riskAssessment.overallConfidence =
        (if parsed.messageId = "" ∨ parsed.senderAddress = "" then 96 / 100 else 1) ∧
      (analyzeEmail x env (some publish) rawEmail analysisId).trace =
        [.started rawEmail.tenantId rawEmail.id
            (if rawEmail.messageId = "" then "unknown" else rawEmail.messageId),
          .completed rawEmail.tenantId analysisId parsed.messageId .clean 0 env.total
            r.slaBreached] := by
  obtain ⟨risk, hrisk, hvalid, hassessment, hconfidence⟩ :=
    blackout_risk s x hx env parsed hblack hclean
  have hresult := (executePipeline_eq_ok_iff x env rawEmail analysisId _).2
    ⟨parsed, risk, hparse, hrisk, hcalm parsed risk, fun _ => hvalid, rfl⟩
  rw [analyzeEmail_eq hpub]
  refine ⟨_, hresult, hassessment, hconfidence, ?_⟩
  rw [hresult]
  simp [closingEvent, resultOf, hassessment]

/-- It happens. -/
theorem blackout_delivers_outage :
    ∃ r, (analyzeEmail (outage (assess someSetting)) (steady 20) (some failing) someEmail
        (.ofNat 7)).result = .ok r ∧
      r.riskAssessment.assessment.verdict = .clean ∧ r.riskAssessment.overallConfidence = 1 := by
  obtain ⟨r, hr, hassessment, hconfidence, -⟩ := blackout_delivers someSetting
    (outage (assess someSetting)) rfl (steady 20) undisturbed_outage failing reliable_failing
    someEmail (.ofNat 7) someParsed rfl ⟨rfl, rfl, rfl, rfl, rfl, rfl⟩ (by decide)
  refine ⟨r, hr, by rw [hassessment], ?_⟩
  rw [hconfidence, if_neg (by decide)]

end ScamOn.Orchestrator
