import Mathlib.Algebra.Order.Field.Rat
import Mathlib.Tactic.Linarith
import ScamOn.Lib.Traced
import ScamOn.Risk.Assessment
import ScamOn.ThreatCorrelation.GraphBuilder

/-!
# The analysis pipeline

`EmailSecurityPipelineOrchestrator.execute_pipeline` takes an e-mail through the engines of all
modules.  Two stages are critical: if the e-mail cannot be parsed, or its risk cannot be assessed,
the pipeline fails.  The others are optional: what they would have found out is replaced by a
default, and the pipeline goes on in degraded mode.

* `executePipeline` is the function, over the engines and over what else happens in a run: when the
  cancellation token is set, how long the stages take, which identifiers are drawn.  Its trace is
  what the lifecycle hooks are called with.
* `executePipeline_eq_ok_iff`: a run has a result exactly if it is not cancelled and its critical
  stages succeed, on whatever the optional ones found or left to a default.
* `hooks_follow_stages`: the stages are started in their order, and each one is closed at once by
  a success or an error.  The parallel stage is not: its two parts report their errors, and
  nothing closes it.
* `evaluateSla_mono`: whatever is blamed for being late is blamed too when everything takes longer;
  `deadlines_of_runs` is what that means for the results of runs.
-/

namespace ScamOn.Orchestrator

open Traced
open ThreatCorrelation (domainOf)

/-! ## Data -/

/-- What an engine may raise: an `Exception` with its text, or the cancellation of the task. -/
inductive Failure
  | exception (text : String)
  | cancelled
  deriving DecidableEq

/-- What `execute_pipeline` raises. -/
inductive PipelineError
  /-- `StageFailureError`, with its message. -/
  | stageFailure (message : String)
  /-- `PipelineCancelledError`: the cancellation token is set. -/
  | pipelineCancelled
  /-- The error of a degraded plan that does not validate. -/
  | validation (text : String)
  /-- The cancellation of the task, which is not an `Exception`. -/
  | taskCancelled
  deriving DecidableEq

/-- `StageStatus`. -/
inductive StageStatus
  | success | degraded | failed
  deriving DecidableEq

/-- The calls of the `PipelineLifecycleHooks`, without the context that all of them get. -/
inductive HookEvent
  | beforeStage (stage : String)
  | afterStage (stage : String) (status : StageStatus) (executionTimeMs : ℚ)
  | onStageError (stage text : String)
  deriving DecidableEq

/-- `RawEmail`, as far as it is read. -/
structure RawEmail where
  id : Uuid
  accountId : Uuid
  tenantId : Uuid
  messageId : String
  internetMessageId : String
  rawEmlData : ByteArray

/-- `ParsedEmail`, as far as it is read. -/
structure ParsedEmail where
  parsedId : Uuid
  rawEmailId : Uuid
  accountId : Uuid
  tenantId : Uuid
  messageId : String
  internetMessageId : String
  senderAddress : String

/-- `TransmissionAnalysis`: the identifiers, and what the risk engine reads. -/
structure TransmissionAnalysis where
  analysisId : Uuid
  parsedId : Uuid
  rawEmailId : Uuid
  accountId : Uuid
  tenantId : Uuid
  messageId : String
  internetMessageId : String
  fromDomain : String
  findings : Risk.TransmissionAnalysis

/-- `AuthenticationVerification`: the identifiers, and what the risk engine reads. -/
structure AuthenticationVerification where
  verificationId : Uuid
  parsedId : Uuid
  transmissionId : Uuid
  accountId : Uuid
  tenantId : Uuid
  messageId : String
  internetMessageId : String
  findings : Risk.AuthenticationVerification

/-- `ThreatIntelEnrichmentResult`: the identifiers, and what the risk engine reads. -/
structure ThreatIntelEnrichmentResult where
  enrichmentId : Uuid
  parsedId : Uuid
  transmissionId : Uuid
  authVerificationId : Uuid
  accountId : Uuid
  tenantId : Uuid
  messageId : String
  findings : Risk.ThreatIntelEnrichment

/-- `RiskAssessment`: the identifiers, the assessment, and what a degraded plan copies. -/
structure RiskAssessment where
  assessmentId : Uuid
  parsedId : Uuid
  tenantId : Uuid
  messageId : String
  assessment : Risk.RiskAssessment
  overallConfidence : ℚ
  explainabilitySummary : String
  socRecommendations : List String

/-- `DecisionPlan`, as far as it is written. -/
structure DecisionPlan where
  planId : Uuid
  assessmentId : Uuid
  tenantId : Uuid
  messageId : String
  executiveSummary : String
  technicalSummary : String
  analystExplanation : String
  attackSummary : String
  businessImpact : String
  recommendedActions : List String
  riskConfidence : ℚ
  aiDecisionConfidence : ℚ
  deriving DecidableEq

/-- The arguments of `execute_remediation`. -/
structure RemediationRequest where
  tenantId : Uuid
  incidentId : Uuid
  assessment : RiskAssessment
  decisionPlan : DecisionPlan
  requestedAction : Remediation.ActionTaken
  isDryRun : Bool

/-- `EmailAnalysisResult`. -/
structure EmailAnalysisResult where
  analysisId : Uuid
  rawEmailId : Uuid
  accountId : Uuid
  tenantId : Uuid
  messageId : String
  pipelineVersion : String
  executionMode : String
  schemaVersion : String
  parsedEmail : ParsedEmail
  transmissionAnalysis : TransmissionAnalysis
  authVerification : AuthenticationVerification
  threatIntel : ThreatIntelEnrichmentResult
  riskAssessment : RiskAssessment
  decisionPlan : DecisionPlan
  slaMetrics : List (String × ℚ)
  slaBreached : Bool
  breachedStages : List String
  totalExecutionTimeMs : ℚ

/-- The engines.  What `execute_remediation` and `aggregate_tenant_analytics` return is not used. -/
structure Engines where
  parseEmail : ByteArray → Uuid → Uuid → Uuid → String → String → Except Failure ParsedEmail
  analyzeTransmission : ParsedEmail → Except Failure TransmissionAnalysis
  verifyAuthentication : ParsedEmail → TransmissionAnalysis →
    Except Failure AuthenticationVerification
  enrichThreatIntelligence : ParsedEmail → TransmissionAnalysis → AuthenticationVerification →
    Except Failure ThreatIntelEnrichmentResult
  analyzeContent : ParsedEmail → Except Failure Risk.ContentAnalysisResult
  analyzeUrls : ParsedEmail → Option Risk.ContentAnalysisResult → Except Failure Risk.UrlResult
  correlateThreats : ParsedEmail → TransmissionAnalysis → AuthenticationVerification →
    ThreatIntelEnrichmentResult → Option Risk.ContentAnalysisResult → Option Risk.UrlResult →
    Except Failure Risk.ThreatCorrelation
  assessRisk : ParsedEmail → TransmissionAnalysis → AuthenticationVerification →
    ThreatIntelEnrichmentResult → Risk.Extras → Except Failure RiskAssessment
  generateDecisionPlan : RiskAssessment → Except Failure DecisionPlan
  executeRemediation : RemediationRequest → Except Failure Unit
  aggregateTenantAnalytics : Uuid → Except Failure Unit

/-- Where the cancellation token is looked at. -/
inductive Checkpoint
  | atStart | afterParsing | afterParallel | beforeRisk | afterRisk
  deriving DecidableEq

/-- Which identifiers are drawn. -/
inductive Draw
  | temporaryTransmission | transmission | verification | enrichment | plan
  deriving DecidableEq

/-- What else happens in a run. -/
structure Environment where
  /-- Whether the cancellation token is set. -/
  cancellation : Checkpoint → Bool
  /-- Whether the task is cancelled while it waits for the two parts of the parallel stage. -/
  interrupted : Bool
  /-- How long a stage takes. -/
  took : String → ℚ
  /-- How long all of it takes. -/
  total : ℚ
  fresh : Draw → Uuid
  /-- The text of the error of a plan with this confidence. -/
  validationText : ℚ → String

/-! ## Deadlines -/

/-- `STAGE_SLA_BUDGETS_MS`. -/
def stageSlaBudgetsMs : List (String × ℚ) :=
  [("mime_parsing", 250), ("transmission_analysis", 50), ("auth_verification", 500),
    ("threat_intel", 80), ("risk_assessment", 100), ("standard_pipeline", 2000),
    ("llm_pipeline", 7000)]

/-- Whether the stage took longer than its budget, if it has one that is not zero. -/
def exceedsBudget (stage : String) (duration : ℚ) : Bool :=
  match stageSlaBudgetsMs.lookup stage with
  | some budget => budget ≠ 0 && budget < duration
  | none => false

/-- `evaluate_sla`. -/
def evaluateSla (stageDurationsMs : List (String × ℚ)) (totalTimeMs : ℚ) : Bool × List String :=
  let late := (stageDurationsMs.filter fun s => exceedsBudget s.1 s.2).map Prod.fst
  let breachedStages := if 7000 < totalTimeMs then late ++ ["total_pipeline"] else late
  (decide (0 < breachedStages.length), breachedStages)

/-! ## Defaults -/

/-- The analysis that stands in for one that failed. -/
def defaultTransmission (analysisId : Uuid) (parsed : ParsedEmail) : TransmissionAnalysis where
  analysisId := analysisId
  parsedId := parsed.parsedId
  rawEmailId := parsed.rawEmailId
  accountId := parsed.accountId
  tenantId := parsed.tenantId
  messageId := parsed.messageId
  internetMessageId := parsed.internetMessageId
  fromDomain := domainOf parsed.senderAddress
  findings :=
    { senderIdentity :=
        { fromAddress := parsed.senderAddress
          fromDisplayName := ""
          replyToAddress := none
          isDisplayNameSpoofed := false
          isReplyToMismatched := false
          isReplyToFreeWebmail := false
          isReturnPathMismatched := false }
      isThreadHijackSuspect := false
      headerIntegrityScore := 1 }

/-- The verification that stands in for one that failed. -/
def defaultAuth (verificationId : Uuid) (parsed : ParsedEmail) (transmission : TransmissionAnalysis) :
    AuthenticationVerification where
  verificationId := verificationId
  parsedId := parsed.parsedId
  transmissionId := transmission.analysisId
  accountId := parsed.accountId
  tenantId := parsed.tenantId
  messageId := parsed.messageId
  internetMessageId := parsed.internetMessageId
  findings :=
    { dmarc := ⟨"NONE", transmission.fromDomain, "none"⟩
      spf := ⟨"NONE", transmission.fromDomain, none⟩
      dkimOverallResult := "NONE"
      arc := ⟨false, 0⟩ }

/-- The enrichment that stands in for one that failed. -/
def defaultIntel (enrichmentId : Uuid) (parsed : ParsedEmail) (transmission : TransmissionAnalysis)
    (auth : AuthenticationVerification) : ThreatIntelEnrichmentResult where
  enrichmentId := enrichmentId
  parsedId := parsed.parsedId
  transmissionId := transmission.analysisId
  authVerificationId := auth.verificationId
  accountId := parsed.accountId
  tenantId := parsed.tenantId
  messageId := parsed.messageId
  findings :=
    { maliciousIocCount := 0
      overallConfidence := 0
      matchedFeeds := []
      enrichedTargets := []
      threatCategories := [] }

/-- The plan that stands in for one that failed. -/
def defaultPlan (planId : Uuid) (risk : RiskAssessment) : DecisionPlan where
  planId := planId
  assessmentId := risk.assessmentId
  tenantId := risk.tenantId
  messageId := risk.messageId
  executiveSummary :=
    "Incident risk assessment completed. AI decision planning operating in degraded mode."
  technicalSummary :=
    "Header, authentication, threat intelligence, and risk scoring telemetry completed."
  analystExplanation := risk.explainabilitySummary
  attackSummary := "Threat analysis completed."
  businessImpact := "Refer to risk score recommendations."
  recommendedActions := risk.socRecommendations
  riskConfidence := risk.overallConfidence
  aiDecisionConfidence := 1 / 2

/-- Whether a plan with this confidence validates. -/
def ValidConfidence (risk : RiskAssessment) : Prop :=
  0 ≤ risk.overallConfidence ∧ risk.overallConfidence ≤ 1

instance (risk : RiskAssessment) : Decidable (ValidConfidence risk) :=
  inferInstanceAs (Decidable (_ ∧ _))

/-! ## The pipeline -/

/-- A run of the pipeline: the calls of the hooks, and a value or an error. -/
abbrev Run (α : Type) := Traced HookEvent PipelineError α

/-- `_check_cancellation`. -/
def checkCancellation (env : Environment) (at' : Checkpoint) : Run Unit :=
  if env.cancellation at' then fail .pipelineCancelled else done ()

/-- A critical stage, on what its engine returns or raises. -/
def criticalStage {α : Type} (env : Environment) (stage : String) (outcome : Except Failure α) :
    Run α := do
  emit (.beforeStage stage)
  match outcome with
  | .ok dto =>
    emit (.afterStage stage .success (env.took stage))
    return dto
  | .error (.exception text) =>
    emit (.onStageError stage text)
    fail (.stageFailure ("[" ++ stage ++ "] " ++ text))
  | .error .cancelled => fail .taskCancelled

/-- An optional stage, on what its engine returns or raises. -/
def optionalStage {α : Type} (env : Environment) (stage : String) (outcome : Except Failure α) :
    Run (Option α) := do
  emit (.beforeStage stage)
  match outcome with
  | .ok dto =>
    emit (.afterStage stage .success (env.took stage))
    return some dto
  | .error (.exception text) =>
    emit (.onStageError stage text)
    return none
  | .error .cancelled => fail .taskCancelled

/-- A part of the parallel stage, once both have ended: `gather` hands over what each of them raised,
be it a cancellation. -/
def gathered {α : Type} (part : String) : Except Failure α → Run (Option α)
  | .ok dto => return some dto
  | .error (.exception text) => do
    emit (.onStageError part text)
    return none
  | .error .cancelled => do
    emit (.onStageError part "Failed")
    return none

/-- Stage 2: the two analyses that run in parallel. -/
def parallelStage (x : Engines) (env : Environment) (parsed : ParsedEmail) :
    Run (TransmissionAnalysis × AuthenticationVerification) := do
  emit (.beforeStage "stage2_parallel")
  if env.interrupted then fail .taskCancelled
  else
    let transRes ← gathered "transmission_analysis" (x.analyzeTransmission parsed)
    let transmission := transRes.getD (defaultTransmission (env.fresh .transmission) parsed)
    let authRes ← gathered "auth_verification" (x.verifyAuthentication parsed
      (defaultTransmission (env.fresh .temporaryTransmission) parsed))
    return (transmission,
      authRes.getD (defaultAuth (env.fresh .verification) parsed transmission))

/-- Stage 5: the plan. -/
def decisionStage (x : Engines) (env : Environment) (risk : RiskAssessment) : Run DecisionPlan := do
  let planned ← optionalStage env "ai_decision" (x.generateDecisionPlan risk)
  match planned with
  | some decision => return decision
  | none =>
    if ValidConfidence risk then return defaultPlan (env.fresh .plan) risk
    else fail (.validation (env.validationText risk.overallConfidence))

/-- What `stage_durations` holds in the end. -/
def stageDurations (env : Environment) : List (String × ℚ) :=
  [("mime_parsing", env.took "mime_parsing"),
    ("transmission_analysis", env.took "stage2_parallel" / 2),
    ("auth_verification", env.took "stage2_parallel" / 2),
    ("threat_intel", env.took "threat_intel"),
    ("content_intelligence", env.took "content_intelligence"),
    ("url_intelligence", env.took "url_intelligence"),
    ("threat_correlation", env.took "threat_correlation"),
    ("risk_assessment", env.took "risk_assessment"),
    ("ai_decision", env.took "ai_decision"),
    ("remediation", env.took "remediation"),
    ("analytics", env.took "analytics")]

/-- The call of the parser, with what stands in for an empty `message_id`. -/
def parseRawEmail (x : Engines) (rawEmail : RawEmail) : Except Failure ParsedEmail :=
  x.parseEmail rawEmail.rawEmlData rawEmail.id rawEmail.accountId rawEmail.tenantId
    (if rawEmail.messageId = "" then "unknown" else rawEmail.messageId) rawEmail.internetMessageId

/-- The result of a run, with the evaluation of its deadlines. -/
def resultOf (env : Environment) (rawEmail : RawEmail) (analysisId : Uuid) (parsed : ParsedEmail)
    (transmission : TransmissionAnalysis) (auth : AuthenticationVerification)
    (intel : ThreatIntelEnrichmentResult) (risk : RiskAssessment) (decision : DecisionPlan) :
    EmailAnalysisResult where
  analysisId := analysisId
  rawEmailId := rawEmail.id
  accountId := rawEmail.accountId
  tenantId := rawEmail.tenantId
  messageId := parsed.messageId
  pipelineVersion := "1.0.0"
  executionMode := "PARALLEL"
  schemaVersion := "1.0.0"
  parsedEmail := parsed
  transmissionAnalysis := transmission
  authVerification := auth
  threatIntel := intel
  riskAssessment := risk
  decisionPlan := decision
  slaMetrics := stageDurations env
  slaBreached := (evaluateSla (stageDurations env) env.total).1
  breachedStages := (evaluateSla (stageDurations env) env.total).2
  totalExecutionTimeMs := env.total

/-- The dry run that the pipeline asks for. -/
def dryRun (risk : RiskAssessment) (decision : DecisionPlan) : RemediationRequest where
  tenantId := risk.tenantId
  incidentId := risk.parsedId
  assessment := risk
  decisionPlan := decision
  requestedAction := risk.assessment.recommendedAction
  isDryRun := true

/-- `execute_pipeline`. -/
def executePipeline (x : Engines) (env : Environment) (rawEmail : RawEmail) (analysisId : Uuid) :
    Run EmailAnalysisResult := do
  checkCancellation env .atStart
  let parsed ← criticalStage env "mime_parsing" (parseRawEmail x rawEmail)
  checkCancellation env .afterParsing
  let (transmission, auth) ← parallelStage x env parsed
  checkCancellation env .afterParallel
  let intelRes ← optionalStage env "threat_intel"
    (x.enrichThreatIntelligence parsed transmission auth)
  let intel := intelRes.getD (defaultIntel (env.fresh .enrichment) parsed transmission auth)
  let contentRes ← optionalStage env "content_intelligence" (x.analyzeContent parsed)
  let urlRes ← optionalStage env "url_intelligence" (x.analyzeUrls parsed contentRes)
  let correlationRes ← optionalStage env "threat_correlation"
    (x.correlateThreats parsed transmission auth intel contentRes urlRes)
  checkCancellation env .beforeRisk
  let risk ← criticalStage env "risk_assessment"
    (x.assessRisk parsed transmission auth intel ⟨contentRes, urlRes, correlationRes⟩)
  checkCancellation env .afterRisk
  let decision ← decisionStage x env risk
  let _ ← optionalStage env "remediation" (x.executeRemediation (dryRun risk decision))
  let _ ← optionalStage env "analytics" (x.aggregateTenantAnalytics risk.tenantId)
  return resultOf env rawEmail analysisId parsed transmission auth intel risk decision

/-! ## What a run works with -/

section Outcomes

variable {α : Type} {x : Engines} {env : Environment} {stage : String} {outcome : Except Failure α}

/-- The transmission analysis of a run. -/
def transmissionOf (x : Engines) (env : Environment) (parsed : ParsedEmail) : TransmissionAnalysis :=
  (x.analyzeTransmission parsed).toOption.getD (defaultTransmission (env.fresh .transmission) parsed)

/-- The verification of a run. -/
def authOf (x : Engines) (env : Environment) (parsed : ParsedEmail) : AuthenticationVerification :=
  (x.verifyAuthentication parsed
    (defaultTransmission (env.fresh .temporaryTransmission) parsed)).toOption.getD
      (defaultAuth (env.fresh .verification) parsed (transmissionOf x env parsed))

/-- What the threat feeds are asked in a run, and answer. -/
def askedIntel (x : Engines) (env : Environment) (parsed : ParsedEmail) :
    Except Failure ThreatIntelEnrichmentResult :=
  x.enrichThreatIntelligence parsed (transmissionOf x env parsed) (authOf x env parsed)

/-- The enrichment of a run. -/
def intelOf (x : Engines) (env : Environment) (parsed : ParsedEmail) : ThreatIntelEnrichmentResult :=
  (askedIntel x env parsed).toOption.getD (defaultIntel (env.fresh .enrichment) parsed
    (transmissionOf x env parsed) (authOf x env parsed))

/-- What the analysis of the URLs answers in a run. -/
def askedUrls (x : Engines) (parsed : ParsedEmail) : Except Failure Risk.UrlResult :=
  x.analyzeUrls parsed (x.analyzeContent parsed).toOption

/-- What the correlation answers in a run. -/
def askedCorrelation (x : Engines) (env : Environment) (parsed : ParsedEmail) :
    Except Failure Risk.ThreatCorrelation :=
  x.correlateThreats parsed (transmissionOf x env parsed) (authOf x env parsed)
    (intelOf x env parsed) (x.analyzeContent parsed).toOption (askedUrls x parsed).toOption

/-- The results of a run that it may have or not. -/
def extrasOf (x : Engines) (env : Environment) (parsed : ParsedEmail) : Risk.Extras :=
  ⟨(x.analyzeContent parsed).toOption, (askedUrls x parsed).toOption,
    (askedCorrelation x env parsed).toOption⟩

/-- What the assessment of the risk answers in a run. -/
def askedRisk (x : Engines) (env : Environment) (parsed : ParsedEmail) :
    Except Failure RiskAssessment :=
  x.assessRisk parsed (transmissionOf x env parsed) (authOf x env parsed) (intelOf x env parsed)
    (extrasOf x env parsed)

/-- The plan of a run. -/
def planOf (x : Engines) (env : Environment) (risk : RiskAssessment) : DecisionPlan :=
  (x.generateDecisionPlan risk).toOption.getD (defaultPlan (env.fresh .plan) risk)

/-- The task is not cancelled during the call. -/
def Answers (outcome : Except Failure α) : Prop := outcome ≠ .error .cancelled

instance (outcome : Except Failure α) : Decidable (Answers outcome) :=
  match outcome with
  | .ok a => isTrue (by simp [Answers])
  | .error .cancelled => isFalse (by simp [Answers])
  | .error (.exception text) => isTrue (by simp [Answers])

/-! ### One stage -/

@[simp] theorem checkCancellation_eq_ok {at' : Checkpoint} {u : Unit} :
    (checkCancellation env at').result = .ok u ↔ env.cancellation at' = false := by
  unfold checkCancellation
  cases env.cancellation at' with
  | true => simp
  | false => simp [done]

@[simp] theorem criticalStage_eq_ok {a : α} :
    (criticalStage env stage outcome).result = .ok a ↔ outcome = .ok a := by
  unfold criticalStage
  rcases outcome with (text | _) | b <;> simp [bind_eq_ok]

@[simp] theorem optionalStage_eq_ok {v : Option α} :
    (optionalStage env stage outcome).result = .ok v ↔ Answers outcome ∧ outcome.toOption = v := by
  unfold optionalStage
  rcases outcome with (text | _) | b <;> simp [bind_eq_ok, Answers, Except.toOption]

@[simp] theorem gathered_eq_ok {v : Option α} :
    (gathered stage outcome).result = .ok v ↔ outcome.toOption = v := by
  rcases outcome with (text | _) | b <;> simp [gathered, bind_eq_ok, Except.toOption]

theorem parallelStage_eq_ok {parsed : ParsedEmail}
    {v : TransmissionAnalysis × AuthenticationVerification} :
    (parallelStage x env parsed).result = .ok v ↔
      env.interrupted = false ∧ (transmissionOf x env parsed, authOf x env parsed) = v := by
  unfold parallelStage
  cases env.interrupted with
  | true => simp [bind_eq_ok]
  | false => simp [bind_eq_ok, transmissionOf, authOf]

theorem decisionStage_eq_ok {risk : RiskAssessment} {plan : DecisionPlan} :
    (decisionStage x env risk).result = .ok plan ↔
      Answers (x.generateDecisionPlan risk) ∧
        ((x.generateDecisionPlan risk).toOption = none → ValidConfidence risk) ∧
        planOf x env risk = plan := by
  unfold decisionStage planOf
  cases hplan : (x.generateDecisionPlan risk).toOption with
  | some decision => simp [bind_eq_ok, hplan]
  | none =>
    by_cases hvalid : ValidConfidence risk
    · simp [bind_eq_ok, hplan, hvalid]
    · simp [bind_eq_ok, hplan, hvalid]

end Outcomes

/-! ## When a run has a result -/

/-- Nothing cancels the run: neither the token, nor the task. -/
structure Undisturbed (x : Engines) (env : Environment) (parsed : ParsedEmail)
    (risk : RiskAssessment) : Prop where
  token : ∀ c, env.cancellation c = false
  parallel : env.interrupted = false
  intel : Answers (askedIntel x env parsed)
  content : Answers (x.analyzeContent parsed)
  urls : Answers (askedUrls x parsed)
  correlation : Answers (askedCorrelation x env parsed)
  plan : Answers (x.generateDecisionPlan risk)
  remediation : Answers (x.executeRemediation (dryRun risk (planOf x env risk)))
  analytics : Answers (x.aggregateTenantAnalytics risk.tenantId)

/-- **A run has a result** exactly if nothing cancels it, the e-mail can be parsed, the risk can be
assessed, and a plan is made or its default validates.  Each part of the result is then what its
engine returned, or the default. -/
theorem executePipeline_eq_ok_iff (x : Engines) (env : Environment) (rawEmail : RawEmail)
    (analysisId : Uuid) (r : EmailAnalysisResult) :
    (executePipeline x env rawEmail analysisId).result = .ok r ↔
      ∃ parsed risk, parseRawEmail x rawEmail = .ok parsed ∧ askedRisk x env parsed = .ok risk ∧
        Undisturbed x env parsed risk ∧
        ((x.generateDecisionPlan risk).toOption = none → ValidConfidence risk) ∧
        r = resultOf env rawEmail analysisId parsed (transmissionOf x env parsed)
          (authOf x env parsed) (intelOf x env parsed) risk (planOf x env risk) := by
  unfold executePipeline
  simp only [bind_eq_ok, checkCancellation_eq_ok, criticalStage_eq_ok, optionalStage_eq_ok,
    parallelStage_eq_ok, decisionStage_eq_ok, result_pure]
  constructor
  · rintro ⟨-, hstart, parsed, hparse, -, hparsed, -, ⟨hparallel, rfl⟩, -, hafter, -, ⟨hintel, rfl⟩, -,
      ⟨hcontent, rfl⟩, -, ⟨hurls, rfl⟩, -, ⟨hcorrelation, rfl⟩, -, hbefore, risk, hrisk, -, hassessed,
      -, ⟨hplan, hvalid, rfl⟩, -, ⟨hremediation, rfl⟩, -, ⟨hanalytics, rfl⟩, hresult⟩
    refine ⟨parsed, risk, hparse, hrisk, ?_, hvalid, (Except.ok.inj hresult).symm⟩
    refine ⟨fun c => ?_, hparallel, hintel, hcontent, hurls, hcorrelation, hplan, hremediation,
      hanalytics⟩
    cases c with
    | atStart => exact hstart
    | afterParsing => exact hparsed
    | afterParallel => exact hafter
    | beforeRisk => exact hbefore
    | afterRisk => exact hassessed
  · rintro ⟨parsed, risk, hparse, hrisk, h, hvalid, rfl⟩
    exact ⟨(), h.token _, parsed, hparse, (), h.token _, _, ⟨h.parallel, rfl⟩, (), h.token _, _,
      ⟨h.intel, rfl⟩, _, ⟨h.content, rfl⟩, _, ⟨h.urls, rfl⟩, _, ⟨h.correlation, rfl⟩, (), h.token _,
      risk, hrisk, (), h.token _, _, ⟨h.plan, hvalid, rfl⟩, _, ⟨h.remediation, rfl⟩, _,
      ⟨h.analytics, rfl⟩, rfl⟩

/-! ## What the hooks see -/

/-- The stages, in order. -/
def stageOrder : List String :=
  ["mime_parsing", "stage2_parallel", "threat_intel", "content_intelligence", "url_intelligence",
    "threat_correlation", "risk_assessment", "ai_decision", "remediation", "analytics"]

/-- The stages without which there is no result. -/
def criticalStages : List String := ["mime_parsing", "risk_assessment"]

/-- The errors that a part of the parallel stage may report: one, or none. -/
def PartErrors (part : String) (t : List HookEvent) : Prop :=
  t = [] ∨ ∃ text, t = [.onStageError part text]

/-- What the hooks are called with in a stage that is passed. -/
inductive Passed : String → List HookEvent → Prop
  | success {stage : String} {ms : ℚ} (h : stage ≠ "stage2_parallel") :
    Passed stage [.beforeStage stage, .afterStage stage .success ms]
  | degraded {stage text : String} (h : stage ≠ "stage2_parallel") (hopt : stage ∉ criticalStages) :
    Passed stage [.beforeStage stage, .onStageError stage text]
  | parallel {t t' : List HookEvent} (h : PartErrors "transmission_analysis" t)
    (h' : PartErrors "auth_verification" t') :
    Passed "stage2_parallel" (.beforeStage "stage2_parallel" :: (t ++ t'))

/-- What the hooks are called with in a stage that a run ends in, and the error it ends with. -/
inductive Broken : PipelineError → String → List HookEvent → Prop
  | cancelled {stage : String} : Broken .pipelineCancelled stage []
  | taskCancelled {stage : String} : Broken .taskCancelled stage [.beforeStage stage]
  | failed {stage text : String} (h : stage ∈ criticalStages) :
    Broken (.stageFailure ("[" ++ stage ++ "] " ++ text)) stage
      [.beforeStage stage, .onStageError stage text]
  | invalid {text why : String} :
    Broken (.validation why) "ai_decision"
      [.beforeStage "ai_decision", .onStageError "ai_decision" text]

/-- The stage that a call says is started. -/
def HookEvent.started? : HookEvent → Option String
  | .beforeStage stage => some stage
  | _ => none

theorem PartErrors.started {part : String} {t : List HookEvent} (h : PartErrors part t) :
    t.filterMap HookEvent.started? = [] := by
  rcases h with rfl | ⟨text, rfl⟩
  · rfl
  · rfl

/-- The stages as the hooks see them. -/
def hookStages : Stages String HookEvent PipelineError where
  Passed := Passed
  Broken := Broken
  start? := HookEvent.started?
  started_passed := by
    rintro n t (_ | _ | ⟨h, h'⟩)
    · rfl
    · rfl
    · simp [HookEvent.started?, h.started, h'.started]
  started_broken := by
    rintro e n t (_ | _ | _ | _)
    · exact List.nil_prefix
    · exact List.prefix_refl _
    · exact List.prefix_refl _
    · exact List.prefix_refl _

section Hooks

variable {α β : Type} {x : Engines} {env : Environment} {stage : String}
  {outcome : Except Failure α} {more : List String}

theorem follows_check {at' : Checkpoint} {f : Unit → Run β}
    (hf : ∀ u, Follows hookStages (stage :: more) (f u)) :
    Follows hookStages (stage :: more) (checkCancellation env at' >>= f) := by
  refine Follows.silent_bind ?_ (fun e he => ?_) hf
  · unfold checkCancellation
    split <;> rfl
  · unfold checkCancellation at he
    split at he
    · cases he
      exact .cancelled
    · cases he

theorem follows_critical (h : stage ≠ "stage2_parallel") (hcrit : stage ∈ criticalStages) :
    Follows hookStages [stage] (criticalStage env stage outcome) := by
  rcases outcome with (text | _) | a
  · exact ⟨fun _ hv => (by cases hv), fun e he => (by cases he; exact .single (.failed hcrit))⟩
  · exact ⟨fun _ hv => (by cases hv), fun e he => (by cases he; exact .single .taskCancelled)⟩
  · exact ⟨fun _ _ => .single (.success h), fun _ he => (by cases he)⟩

theorem follows_optional (h : stage ≠ "stage2_parallel") (hopt : stage ∉ criticalStages) :
    Follows hookStages [stage] (optionalStage env stage outcome) := by
  rcases outcome with (text | _) | a
  · exact ⟨fun _ _ => .single (.degraded h hopt), fun _ he => (by cases he)⟩
  · exact ⟨fun _ hv => (by cases hv), fun e he => (by cases he; exact .single .taskCancelled)⟩
  · exact ⟨fun _ _ => .single (.success h), fun _ he => (by cases he)⟩

theorem partErrors_gathered (part : String) (outcome : Except Failure α) :
    PartErrors part (gathered part outcome).trace := by
  rcases outcome with (text | _) | a
  · exact .inr ⟨_, rfl⟩
  · exact .inr ⟨_, rfl⟩
  · exact .inl rfl

theorem follows_parallel {parsed : ParsedEmail} :
    Follows hookStages ["stage2_parallel"] (parallelStage x env parsed) := by
  unfold parallelStage
  cases env.interrupted with
  | true => exact ⟨fun _ hv => (by cases hv), fun e he => (by cases he; exact .single .taskCancelled)⟩
  | false =>
    have htrans : (gathered "transmission_analysis" (x.analyzeTransmission parsed)).result =
        .ok (x.analyzeTransmission parsed).toOption := gathered_eq_ok.2 rfl
    have hauth : (gathered "auth_verification" (x.verifyAuthentication parsed
        (defaultTransmission (env.fresh .temporaryTransmission) parsed))).result = .ok _ :=
      gathered_eq_ok.2 rfl
    rw [bind_of_ok (result_emit _), if_neg Bool.false_ne_true, bind_of_ok htrans, bind_of_ok hauth]
    refine ⟨fun _ _ => ?_, fun _ he => (by cases he)⟩
    have hpassed := Passed.parallel (partErrors_gathered _ (x.analyzeTransmission parsed))
      (partErrors_gathered _ (x.verifyAuthentication parsed
        (defaultTransmission (env.fresh .temporaryTransmission) parsed)))
    simpa using Stages.Passes.single (S := hookStages) hpassed

theorem follows_decision {risk : RiskAssessment} :
    Follows hookStages ["ai_decision"] (decisionStage x env risk) := by
  have hplan : "ai_decision" ∉ criticalStages := by decide
  unfold decisionStage
  rcases x.generateDecisionPlan risk with (text | _) | decision
  · by_cases hvalid : ValidConfidence risk
    · rw [bind_of_ok (a := none) rfl]
      simp only [if_pos hvalid]
      exact ⟨fun _ _ => .single (.degraded (by decide) hplan), fun _ he => (by cases he)⟩
    · rw [bind_of_ok (a := none) rfl]
      simp only [if_neg hvalid]
      exact ⟨fun _ hv => (by cases hv), fun e he => (by cases he; exact .single .invalid)⟩
  · exact ⟨fun _ hv => (by cases hv), fun e he => (by cases he; exact .single .taskCancelled)⟩
  · exact ⟨fun _ _ => .single (.success (by decide)), fun _ he => (by cases he)⟩

end Hooks

/-- A run goes through the stages as the hooks see them. -/
theorem follows_stageOrder (x : Engines) (env : Environment) (rawEmail : RawEmail)
    (analysisId : Uuid) :
    Follows hookStages stageOrder (executePipeline x env rawEmail analysisId) := by
  have hcritical : ∀ {α : Type} {stage : String} {outcome : Except Failure α},
      stage = "mime_parsing" ∨ stage = "risk_assessment" →
      Follows hookStages [stage] (criticalStage env stage outcome) := by
    rintro α stage outcome (rfl | rfl)
    · exact follows_critical (by decide) (by decide)
    · exact follows_critical (by decide) (by decide)
  have hoptional : ∀ {α : Type} (stage : String) {outcome : Except Failure α},
      stage ∈ ["threat_intel", "content_intelligence", "url_intelligence", "threat_correlation",
        "remediation", "analytics"] →
      Follows hookStages [stage] (optionalStage env stage outcome) := by
    intro α stage outcome hmem
    refine follows_optional ?_ ?_
    · rintro rfl
      revert hmem
      decide
    · intro hcrit
      revert hmem
      rcases List.mem_pair.1 hcrit with rfl | rfl
      · decide
      · decide
  unfold executePipeline
  refine follows_check fun _ => (hcritical (.inl rfl)).bind fun parsed => ?_
  refine follows_check fun _ => follows_parallel.bind fun both => ?_
  refine follows_check fun _ => (hoptional "threat_intel" (by decide)).bind fun intelRes => ?_
  refine (hoptional "content_intelligence" (by decide)).bind fun contentRes => ?_
  refine (hoptional "url_intelligence" (by decide)).bind fun urlRes => ?_
  refine (hoptional "threat_correlation" (by decide)).bind fun correlationRes => ?_
  refine follows_check fun _ => (hcritical (.inr rfl)).bind fun risk => ?_
  refine follows_check fun _ => follows_decision.bind fun decision => ?_
  refine (hoptional "remediation" (by decide)).bind fun _ => ?_
  exact (hoptional "analytics" (by decide)).bind fun _ => Follows.pure _

/-- The stage that a call closes. -/
def HookEvent.closed? : HookEvent → Option String
  | .beforeStage _ => none
  | .afterStage stage _ _ => some stage
  | .onStageError stage _ => some stage

/-- **The hooks follow the stages.**  The stages are started in their order, all of them if there is
a result; each is closed at once, by its success, or by its error if it is optional; and the error
of a run is that of the stage it ends in.  The parallel stage is never closed. -/
theorem hooks_follow_stages (x : Engines) (env : Environment) (rawEmail : RawEmail)
    (analysisId : Uuid) :
    Follows hookStages stageOrder (executePipeline x env rawEmail analysisId) ∧
      (executePipeline x env rawEmail analysisId).trace.filterMap HookEvent.started? <+: stageOrder ∧
      ((∃ r, (executePipeline x env rawEmail analysisId).result = .ok r) →
        (executePipeline x env rawEmail analysisId).trace.filterMap HookEvent.started? =
          stageOrder) ∧
      ∀ event ∈ (executePipeline x env rawEmail analysisId).trace,
        event.closed? ≠ some "stage2_parallel" := by
  have hfollows := follows_stageOrder x env rawEmail analysisId
  have hpart : ∀ {part : String} {t : List HookEvent}, part ≠ "stage2_parallel" →
      PartErrors part t → ∀ event ∈ t, event.closed? ≠ some "stage2_parallel" := by
    rintro part t hpart (rfl | ⟨text, rfl⟩)
    · simp
    · simpa [HookEvent.closed?] using hpart
  refine ⟨hfollows, hfollows.started.1, hfollows.started.2, hfollows.forall_mem ?_ ?_⟩
  · rintro n t (hne | ⟨hne, -⟩ | ⟨h, h'⟩)
    · simpa [HookEvent.closed?] using hne
    · simpa [HookEvent.closed?] using hne
    · intro event hevent
      rcases List.mem_cons.1 hevent with rfl | hparts
      · simp [HookEvent.closed?]
      · rcases List.mem_append.1 hparts with htrans | hauth
        · exact hpart (by decide) h event htrans
        · exact hpart (by decide) h' event hauth
  · rintro e n t (_ | _ | hcrit | _)
    · simp
    · simp [HookEvent.closed?]
    · have hne : n ≠ "stage2_parallel" := by
        rintro rfl
        revert hcrit
        decide
      simpa [HookEvent.closed?] using hne
    · simp [HookEvent.closed?]

/-! ## Deadlines of a result -/

theorem exceedsBudget_iff {stage : String} {duration : ℚ} :
    exceedsBudget stage duration = true ↔
      ∃ budget, stageSlaBudgetsMs.lookup stage = some budget ∧ budget ≠ 0 ∧ budget < duration := by
  unfold exceedsBudget
  cases stageSlaBudgetsMs.lookup stage with
  | none => simp
  | some budget => simp

/-- Which stages are late: those above their budget, and all of them together. -/
theorem mem_breachedStages {stage : String} {durations : List (String × ℚ)} {total : ℚ} :
    stage ∈ (evaluateSla durations total).2 ↔
      (∃ ms, (stage, ms) ∈ durations ∧ exceedsBudget stage ms = true) ∨
        7000 < total ∧ stage = "total_pipeline" := by
  unfold evaluateSla
  by_cases htotal : 7000 < total
  · simp [htotal, List.mem_filter]
  · simp [htotal, List.mem_filter]

/-- A stage with a time of its own and with a budget is late if it is above it. -/
theorem mem_breachedStages_of_budget {env : Environment} {stage : String} {ms budget : ℚ}
    (hms : ∀ ms', (stage, ms') ∈ stageDurations env ↔ ms' = ms)
    (hbudget : stageSlaBudgetsMs.lookup stage = some budget) (hpos : budget ≠ 0)
    (htotal : stage ≠ "total_pipeline") :
    stage ∈ (evaluateSla (stageDurations env) env.total).2 ↔ budget < ms := by
  rw [mem_breachedStages]
  simp [hms, exceedsBudget_iff, hbudget, hpos, htotal]

theorem exceedsBudget_mono {stage : String} {ms ms' : ℚ} (hms : ms ≤ ms')
    (h : exceedsBudget stage ms = true) : exceedsBudget stage ms' = true := by
  obtain ⟨budget, hbudget, hpos, hlt⟩ := exceedsBudget_iff.1 h
  exact exceedsBudget_iff.2 ⟨budget, hbudget, hpos, hlt.trans_le hms⟩

/-- **Whatever is blamed is blamed too when everything takes longer**, in the same order. -/
theorem evaluateSla_mono {durations durations' : List (String × ℚ)} {total total' : ℚ}
    (h : List.Forall₂ (fun s s' => s.1 = s'.1 ∧ s.2 ≤ s'.2) durations durations')
    (htotal : total ≤ total') :
    (evaluateSla durations total).2.Sublist (evaluateSla durations' total').2 := by
  have hlate : ((durations.filter fun s => exceedsBudget s.1 s.2).map Prod.fst).Sublist
      ((durations'.filter fun s => exceedsBudget s.1 s.2).map Prod.fst) := by
    induction h with
    | nil => exact .slnil
    | @cons s s' durations durations' hs _ ih =>
      obtain ⟨hname, hms⟩ := hs
      rw [List.filter_cons, List.filter_cons]
      by_cases hlate : exceedsBudget s.1 s.2 = true
      · have hlate' : exceedsBudget s'.1 s'.2 = true := hname ▸ exceedsBudget_mono hms hlate
        rw [if_pos hlate, if_pos hlate', List.map_cons, List.map_cons, hname]
        exact ih.cons_cons s'.1
      · rw [if_neg hlate]
        split_ifs
        · exact ih.cons s'.1
        · exact ih
  unfold evaluateSla
  by_cases hover : 7000 < total
  · simp only [if_pos hover, if_pos (hover.trans_le htotal)]
    exact hlate.append (List.Sublist.refl _)
  · simp only [if_neg hover]
    split_ifs
    · exact hlate.trans (List.sublist_append_left ..)
    · exact hlate

/-- The times of a slower run. -/
theorem stageDurations_mono {env env' : Environment}
    (h : ∀ stage ∈ stageOrder, env.took stage ≤ env'.took stage) :
    List.Forall₂ (fun s s' => s.1 = s'.1 ∧ s.2 ≤ s'.2) (stageDurations env)
      (stageDurations env') := by
  have hhalf : env.took "stage2_parallel" / 2 ≤ env'.took "stage2_parallel" / 2 := by
    have hparallel := h "stage2_parallel" (by decide)
    linarith
  unfold stageDurations
  simp only [List.forall₂_cons, true_and, hhalf, List.Forall₂.nil, and_true]
  simp only [stageOrder, List.forall_mem_cons] at h
  tauto

/-- **The deadlines of runs.**  A run blames whatever a faster run blames, whatever their engines find
out.  The two parts of the parallel stage are charged half of its time each, so that the
verification, with ten times the budget, is not late without the transmission analysis.  And where
only the pipeline as a whole is late, the stages without a budget and what is between the stages
took more than 6470 ms. -/
theorem deadlines_of_runs (x : Engines) (env : Environment) (rawEmail : RawEmail) (analysisId : Uuid)
    (r : EmailAnalysisResult) (h : (executePipeline x env rawEmail analysisId).result = .ok r) :
    (r.slaBreached = true ↔ r.breachedStages ≠ []) ∧
      (∀ x' env' rawEmail' analysisId' r',
        (executePipeline x' env' rawEmail' analysisId').result = .ok r' →
        (∀ stage ∈ stageOrder, env.took stage ≤ env'.took stage) → env.total ≤ env'.total →
        r.breachedStages.Sublist r'.breachedStages) ∧
      ("auth_verification" ∈ r.breachedStages → "transmission_analysis" ∈ r.breachedStages) ∧
      (r.breachedStages = ["total_pipeline"] →
        6470 < env.total - (env.took "mime_parsing" + env.took "stage2_parallel" +
          env.took "threat_intel" + env.took "risk_assessment")) := by
  obtain ⟨parsed, risk, -, -, -, -, rfl⟩ := (executePipeline_eq_ok_iff ..).1 h
  have hmime : "mime_parsing" ∈ (evaluateSla (stageDurations env) env.total).2 ↔
      250 < env.took "mime_parsing" :=
    mem_breachedStages_of_budget (by simp [stageDurations]) rfl (by norm_num) (by decide)
  have htrans : "transmission_analysis" ∈ (evaluateSla (stageDurations env) env.total).2 ↔
      50 < env.took "stage2_parallel" / 2 :=
    mem_breachedStages_of_budget (by simp [stageDurations]) rfl (by norm_num) (by decide)
  have hauth : "auth_verification" ∈ (evaluateSla (stageDurations env) env.total).2 ↔
      500 < env.took "stage2_parallel" / 2 :=
    mem_breachedStages_of_budget (by simp [stageDurations]) rfl (by norm_num) (by decide)
  have hintel : "threat_intel" ∈ (evaluateSla (stageDurations env) env.total).2 ↔
      80 < env.took "threat_intel" :=
    mem_breachedStages_of_budget (by simp [stageDurations]) rfl (by norm_num) (by decide)
  have hrisk : "risk_assessment" ∈ (evaluateSla (stageDurations env) env.total).2 ↔
      100 < env.took "risk_assessment" :=
    mem_breachedStages_of_budget (by simp [stageDurations]) rfl (by norm_num) (by decide)
  have htotal : "total_pipeline" ∈ (evaluateSla (stageDurations env) env.total).2 ↔
      7000 < env.total := by
    rw [mem_breachedStages]
    simp [stageDurations]
  refine ⟨?_, ?_, fun hlate => htrans.2 ?_, fun honly => ?_⟩
  · simp [resultOf, evaluateSla, List.length_pos_iff]
  · intro x' env' rawEmail' analysisId' r' h' hstages hle
    obtain ⟨parsed', risk', -, -, -, -, rfl⟩ := (executePipeline_eq_ok_iff ..).1 h'
    exact evaluateSla_mono (stageDurations_mono hstages) hle
  · have hslow := hauth.1 hlate
    linarith
  · change (evaluateSla (stageDurations env) env.total).2 = _ at honly
    rw [honly] at hmime htrans hintel hrisk htotal
    have hover := htotal.1 (List.mem_singleton.2 rfl)
    have hparse := not_lt.1 (mt hmime.2 (by decide))
    have hparallel := not_lt.1 (mt htrans.2 (by decide))
    have hfeeds := not_lt.1 (mt hintel.2 (by decide))
    have hassess := not_lt.1 (mt hrisk.2 (by decide))
    linarith

/-! ### A run in which only the critical stages succeed -/

/-- An e-mail. -/
def someEmail : RawEmail where
  id := .ofNat 1
  accountId := .ofNat 2
  tenantId := .ofNat 3
  messageId := "m1"
  internetMessageId := "<m1@corp.test>"
  rawEmlData := .empty

/-- What is parsed of it. -/
def someParsed : ParsedEmail where
  parsedId := .ofNat 4
  rawEmailId := .ofNat 1
  accountId := .ofNat 2
  tenantId := .ofNat 3
  messageId := "m1"
  internetMessageId := "<m1@corp.test>"
  senderAddress := "a@corp.test"

/-- Engines of which only the parser and the risk engine work. -/
def outage (assessRisk : ParsedEmail → TransmissionAnalysis → AuthenticationVerification →
    ThreatIntelEnrichmentResult → Risk.Extras → Except Failure RiskAssessment) : Engines where
  parseEmail _ _ _ _ _ _ := .ok someParsed
  analyzeTransmission _ := .error (.exception "down")
  verifyAuthentication _ _ := .error (.exception "down")
  enrichThreatIntelligence _ _ _ := .error (.exception "down")
  analyzeContent _ := .error (.exception "down")
  analyzeUrls _ _ := .error (.exception "down")
  correlateThreats _ _ _ _ _ _ := .error (.exception "down")
  assessRisk := assessRisk
  generateDecisionPlan _ := .error (.exception "down")
  executeRemediation _ := .error (.exception "down")
  aggregateTenantAnalytics _ := .error (.exception "down")

/-- A run that nothing cancels, each of whose stages takes this long. -/
def steady (ms : ℚ) : Environment where
  cancellation _ := false
  interrupted := false
  took _ := ms
  total := 10 * ms
  fresh _ := .ofNat 5
  validationText _ := "invalid"

theorem undisturbed_outage {assessRisk} {ms : ℚ} (parsed : ParsedEmail) (risk : RiskAssessment) :
    Undisturbed (outage assessRisk) (steady ms) parsed risk where
  token _ := rfl
  parallel := rfl
  intel h := by cases h
  content h := by cases h
  urls h := by cases h
  correlation h := by cases h
  plan h := by cases h
  remediation h := by cases h
  analytics h := by cases h

/-- An assessment with full confidence. -/
def someRisk : RiskAssessment where
  assessmentId := .ofNat 6
  parsedId := .ofNat 4
  tenantId := .ofNat 3
  messageId := "m1"
  assessment := ⟨0, .clean, .delivered, [], []⟩
  overallConfidence := 1
  explainabilitySummary := ""
  socRecommendations := []

theorem result_outage (ms : ℚ) : ∃ r, (executePipeline (outage fun _ _ _ _ _ => .ok someRisk)
    (steady ms) someEmail (.ofNat 7)).result = .ok r := by
  have hvalid : ValidConfidence someRisk := by
    constructor
    · exact zero_le_one
    · exact le_refl 1
  exact ⟨_, (executePipeline_eq_ok_iff (outage fun _ _ _ _ _ => .ok someRisk) (steady ms)
    someEmail (.ofNat 7) _).2
      ⟨someParsed, someRisk, rfl, rfl, undisturbed_outage _ _, fun _ => hvalid, rfl⟩⟩

/-- Stages of 0.6 s and of 0.8 s. -/
theorem deadlines_of_runs_outage :
    ∃ r r', (executePipeline (outage fun _ _ _ _ _ => .ok someRisk) (steady 600) someEmail
        (.ofNat 7)).result = .ok r ∧
      (executePipeline (outage fun _ _ _ _ _ => .ok someRisk) (steady 800) someEmail
        (.ofNat 7)).result = .ok r' ∧
      r.breachedStages.Sublist r'.breachedStages := by
  obtain ⟨r, hr⟩ := result_outage 600
  obtain ⟨r', hr'⟩ := result_outage 800
  obtain ⟨-, hslower, -⟩ := deadlines_of_runs _ _ _ _ r hr
  refine ⟨r, r', hr, hr', hslower _ _ _ _ r' hr' (fun stage _ => ?_) ?_⟩
  · show (600 : ℚ) ≤ 800
    norm_num
  · show (10 * 600 : ℚ) ≤ 10 * 800
    norm_num

end ScamOn.Orchestrator
