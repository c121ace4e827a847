import ScamOn.Lib.JsonValue
import ScamOn.Orchestrator.Engine

/-!
# Decision plans

`AIDecisionPipeline.plan_decision` puts an assessment into a prompt, has a language model complete
it, and makes a plan of the completion.  A guardrail looks at the completion first: what it
recommends must not contradict the assessment.

* `executeWithRetry` is the retry strategy; `retryFrom_spec` says which attempt it returns and
  how long it waits.
* `GeminiProvider.generateCompletion` calls the model, and has a completion of its own where that
  fails; `generateCompletion_offline` says which of the two it is.
* `planDecision_eq_ok_iff`: which completions become a plan, and which plan it is.
* `contained_never_delivered`: no completion whatsoever makes a plan that tells to let a contained
  e-mail through in one of the two ways the guardrail knows.
* `offline_plan`: without the model there is a plan for every assessment, and it is the alarming one
  for every e-mail without evidence.
* `blackout_alarms`: so an e-mail that nothing is known of is delivered as clean, with a plan to
  isolate its reader.
-/

namespace ScamOn.AiDecision

open Feedback (Verdict)
open Remediation (ActionTaken)
open Orchestrator (RiskAssessment ValidConfidence socRecommendationTexts)

/-! ## Texts -/

/-- `s.lower()`, on the characters whose small letters are ASCII.  No other character takes part in
an occurrence of one of the words that are looked for. -/
def lower (s : String) : List Char :=
  s.toList.flatMap fun c =>
    if c = '\u212A' then ['k'] else if c = '\u0130' then ['i', '\u0307'] else [c.toLower]

/-- `phrase in s.lower()`. -/
def mentions (phrase s : String) : Bool := decide (phrase.toList <:+: lower s)

/-! ## The prompt -/

/-- A technique of the assessment, as far as the prompt names it. -/
structure MitreTechnique where
  id : String
  name : String
  deriving DecidableEq, Repr

/-- What the context is built with: `s.upper()`, the techniques of an assessment, and the size of
the context. -/
structure ContextSetting where
  upper : String → String
  mitreTechniques : RiskAssessment → List MitreTechnique
  maxEvidenceItems : ℕ := 5

/-- `ContextSizeManager.bound_evidence`. -/
def boundEvidence (maxEvidenceItems : ℕ) (evidence : List Risk.RiskEvidence) :
    List Risk.RiskEvidence :=
  (evidence.insertionSort fun e e' => e'.appliedWeight ≤ e.appliedWeight).take maxEvidenceItems

/-- A line of the evidence. -/
def evidenceLine (upper : String → String) (e : Risk.RiskEvidence) : String :=
  "- [" ++ upper e.sourceModule ++ "] " ++ e.explanation ++ " (+" ++ toString e.appliedWeight ++
    " pts, confidence: " ++ Risk.fixed2 e.confidence ++ ")"

/-- `"\n".join(lines) or default`. -/
def linesOr (separator default : String) (lines : List String) : String :=
  if lines = [] then default else separator.intercalate lines

/-- The template of the prompt, with what `build_context_dict` puts into it. -/
def promptPieces (c : ContextSetting) (risk : RiskAssessment) : List String :=
  ["Evaluate the following Email Risk Assessment and construct an AI Decision Plan:\n\n",
    "[INCIDENT CONTEXT]\nMessage ID: ", risk.messageId,
    "\nConsolidated Risk Score: ", toString risk.assessment.riskScore, " / 100",
    "\nVerdict: ", risk.assessment.verdict.value,
    "\nRecommended Action: ", risk.assessment.recommendedAction.value,
    "\nOverall Confidence: ", Risk.fixed2 risk.overallConfidence,
    "\nThreat Categories: ", linesOr ", " "None" risk.assessment.threatCategories,
    "\n\n[RISK EVIDENCE]\n",
    linesOr "\n" "- Zero malicious risk evidence identified."
      ((boundEvidence c.maxEvidenceItems risk.assessment.riskEvidence).map (evidenceLine c.upper)),
    "\n\n[MITRE ATT&CK TECHNIQUES]\n",
    linesOr ", " "None" ((c.mitreTechniques risk).map fun t => t.id ++ " (" ++ t.name ++ ")"),
    "\n\n[SOC RECOMMENDED MITIGATIONS]\n",
    linesOr "\n" "- Deliver to inbox normally." (risk.socRecommendations.map ("- " ++ ·)),
    "\n\nProduce a JSON object with keys:\n- executive_summary\n- technical_summary\n",
    "- analyst_explanation\n- attack_summary\n- business_impact\n",
    "- recommended_actions (list of strings)\n- automation_candidates (list of strings)\n",
    "- limitations (list of strings)\n"]

/-- The prompt of an assessment. -/
def userPrompt (c : ContextSetting) (risk : RiskAssessment) : String :=
  String.join (promptPieces c risk)

/-- The template of the other prompt. -/
def systemPrompt : String :=
  "You are ScamON Enterprise AI Decision Planner.\nYour task is to generate a structured JSON " ++
  "decision plan evaluating an email security risk assessment.\nYou MUST output strictly valid " ++
  "JSON matching the required schema. Do not include markdown codeblocks or conversational filler.\n"

/-! ## The language model -/

/-- What `json.loads` makes of a completion: a document, or an error with its text. -/
abbrev Completion : Type := Except String (JsonValue ℚ)

/-- `ILLMProvider`. -/
structure LLMProvider where
  providerName : String
  generateCompletion : String → String → Except String Completion

/-- The attempts that are left, from number `n` on: the delays, and the answer. -/
def retryFrom {ε α : Type} (backoffFactor : ℚ) (call : ℕ → Except ε α) :
    ℕ → ℕ → ℚ → List ℚ × Except ε α
  | 0, n, _ => ([], call n)
  | left + 1, n, delay =>
    match call n with
    | .ok a => ([], .ok a)
    | .error _ =>
      let rest := retryFrom backoffFactor call left (n + 1) (delay * backoffFactor)
      (delay :: rest.1, rest.2)

/-- `LLMRetryStrategy.execute_with_retry`: `call n` is what attempt `n` comes to in its time. -/
def executeWithRetry {α : Type} (maxRetries : ℤ) (backoffFactor : ℚ) (call : ℕ → Except String α) :
    List ℚ × Except String α :=
  if maxRetries < 0 then ([], .error "LLM provider retries exhausted")
  else retryFrom backoffFactor call maxRetries.toNat 0 1

/-- The texts of a plan. -/
structure PlanTexts where
  executiveSummary : String
  technicalSummary : String
  analystExplanation : String
  attackSummary : String
  businessImpact : String
  recommendedActions : List String
  automationCandidates : List String
  limitations : List String
  deriving DecidableEq

/-- The document of a completion that names all of them. -/
def document (t : PlanTexts) : JsonValue ℚ :=
  .obj [("executive_summary", .str t.executiveSummary),
    ("technical_summary", .str t.technicalSummary),
    ("analyst_explanation", .str t.analystExplanation),
    ("attack_summary", .str t.attackSummary), ("business_impact", .str t.businessImpact),
    ("recommended_actions", .arr (t.recommendedActions.map .str)),
    ("automation_candidates", .arr (t.automationCandidates.map .str)),
    ("limitations", .arr (t.limitations.map .str))]

/-- What the fallback tells of an e-mail that is taken for malicious. -/
def alarmingSummary : String :=
  "High risk malicious email incident detected. Automated security intervention initiated to " ++
    "block threats and quarantine payload."

/-- And what it recommends. -/
def alarmingActions : List String :=
  ["Isolate recipient endpoint device immediately.",
    "Force account password reset for target user identity.",
    "Block sender domain and originating IP across edge firewalls."]

/-- The fallback for an e-mail that is taken for malicious. -/
def alarmingTexts : PlanTexts where
  executiveSummary := alarmingSummary
  technicalSummary :=
    "Incident flagged multiple critical indicators including identity spoofing, failed " ++
      "authentication, and malicious IOC matches."
  analystExplanation :=
    "Investigation identified severe risk signals. Sender identity failed DMARC/SPF checks and " ++
      "extracted IOCs matched threat intelligence databases."
  attackSummary :=
    "Targeted Spearphishing & BEC campaign attempting unauthorized financial or credential " ++
      "harvesting."
  businessImpact :=
    "HIGH RISK: Potential account compromise, unauthorized wire transfers, and data exfiltration."
  recommendedActions := alarmingActions
  automationCandidates :=
    ["SOAR_QuarantineMailboxMessage", "SOAR_BlockOriginatingIP", "SOAR_RevokeUserSessions"]
  limitations :=
    ["Analysis based on automated header and reputation telemetry.",
      "Live sandbox execution pending for secondary attachment analysis."]

/-- What the fallback tells of every other e-mail. -/
def reassuringSummary : String :=
  "Incident assessed as CLEAN. Normal email delivery confirmed with no security risks detected."

/-- And what it recommends. -/
def reassuringActions : List String := ["Deliver message to recipient inbox normally."]

/-- The fallback for every other e-mail. -/
def reassuringTexts : PlanTexts where
  executiveSummary := reassuringSummary
  technicalSummary :=
    "All authentication protocols (SPF, DKIM, DMARC) passed successfully. Originating IP and " ++
      "links verified clean."
  analystExplanation :=
    "Standard legitimate email transmission. Header integrity is high and zero threat " ++
      "intelligence feeds flagged indicators."
  attackSummary := "No malicious attack vectors detected."
  businessImpact := "NONE: Routine legitimate business communication."
  recommendedActions := reassuringActions
  automationCandidates := ["SOAR_LogCleanTelemetry"]
  limitations := ["Standard static inspection completed."]

/-- The fallback takes the e-mail for malicious. -/
def alarming (prompt : String) : Bool :=
  mentions "malicious" prompt || mentions "quarantined" prompt || mentions "blocked" prompt

/-- `_generate_fallback_json`, read back. -/
def fallbackJson (prompt : String) : JsonValue ℚ :=
  document (if alarming prompt then alarmingTexts else reassuringTexts)

/-- `GeminiLLMProvider`: its key, its model, and what becomes of each attempt to call it. -/
structure GeminiProvider where
  apiKey : Option String
  modelName : String := "gemini-1.5-flash"
  maxRetries : ℤ := 2
  backoffFactor : ℚ := 3 / 2
  callApi : String → String → ℕ → Except String Completion

/-- `generate_completion`: with the model, or without. -/
def GeminiProvider.generateCompletion (g : GeminiProvider) (system user : String) : Completion :=
  if g.apiKey.all (· = "") then .ok (fallbackJson user)
  else
    match (executeWithRetry g.maxRetries g.backoffFactor (g.callApi system user)).2 with
    | .ok completion => completion
    | .error _ => .ok (fallbackJson user)

/-- The provider as the pipeline sees it. -/
def GeminiProvider.toLLMProvider (g : GeminiProvider) : LLMProvider where
  providerName := "Gemini (" ++ g.modelName ++ ")"
  generateCompletion system user := .ok (g.generateCompletion system user)

/-! ## Guardrail and validation -/

/-- What `plan_decision` raises. -/
inductive PlanError
  | provider (text : String)
  | guardrail (message : String)
  | typeError
  | decisionValidation
  deriving DecidableEq, Repr

/-- `str(v)`, which is the text itself for a text. -/
structure Rendering where
  str : JsonValue ℚ → String
  str_str : ∀ s, str (.str s) = s

/-- The fields of a document. -/
abbrev Fields : Type := List (String × JsonValue ℚ)

/-- `[str(a) for a in v]`: an object gives its keys, a text its characters. -/
def strItems (r : Rendering) : JsonValue ℚ → Except PlanError (List String)
  | .arr items => .ok (items.map r.str)
  | .obj fields => .ok (fields.map Prod.fst)
  | .str s => .ok (s.toList.map fun c => String.ofList [c])
  | _ => .error .typeError

/-- The assessment contains the e-mail. -/
def contains (risk : RiskAssessment) : Prop :=
  risk.assessment.recommendedAction = .quarantined ∨ risk.assessment.recommendedAction = .blocked

instance (risk : RiskAssessment) : Decidable (contains risk) :=
  inferInstanceAs (Decidable (_ ∨ _))

/-- A recommendation to let an e-mail through, in the words that the guardrail knows. -/
def lets (action : String) : Bool := mentions "deliver normally" action || mentions "allow" action

/-- The fields that must not be blank. -/
def narrativeFields : List String := ["executive_summary", "technical_summary", "analyst_explanation"]

/-- A narrative field is a text that is not blank. -/
def Told (data : Fields) (field : String) : Prop :=
  match data.lookup field with
  | some (.str s) => Text.strip s ≠ ""
  | _ => False

instance (data : Fields) (field : String) : Decidable (Told data field) := by
  unfold Told
  split <;> infer_instance

/-- `AIGuardrailLayer.verify_completion`. -/
def verifyCompletion (r : Rendering) (completion : Completion) (risk : RiskAssessment) :
    Except PlanError Fields :=
  match completion with
  | .error text => .error (.guardrail ("LLM completion is not valid JSON: " ++ text))
  | .ok (.obj data) =>
    match strItems r ((data.lookup "recommended_actions").getD (.arr [])) with
    | .error e => .error e
    | .ok recActions =>
      if contains risk ∧ recActions.any lets then
        .error (.guardrail ("Generated recommendations contradict RiskAssessment action '" ++
          risk.assessment.recommendedAction.value ++ "'"))
      else
        match narrativeFields.find? fun field => ¬ Told data field with
        | some field =>
          .error (.guardrail ("Required narrative field '" ++ field ++ "' is empty or missing."))
        | none => .ok data
  | .ok _ => .error (.guardrail "LLM completion JSON must be an object dictionary.")

/-- A field that is a text, or left out. -/
def strField (data : Fields) (field default : String) : Option String :=
  match data.lookup field with
  | none => some default
  | some (.str s) => some s
  | some _ => none

/-- The texts of a list of texts. -/
def texts : List (JsonValue ℚ) → Option (List String)
  | [] => some []
  | .str s :: items => (texts items).map (s :: ·)
  | _ :: _ => none

/-- A field that is a list of texts, or left out. -/
def strsField (data : Fields) (field : String) (default : List String) : Option (List String) :=
  match data.lookup field with
  | none => some default
  | some (.arr items) => texts items
  | some _ => none

/-- `ExplainabilityProvenanceDTO`. -/
structure Provenance where
  explanationSentence : String
  sourceModule : String
  supportingFeature : String
  deriving DecidableEq

/-- `DecisionPlan`. -/
structure DecisionPlan extends Orchestrator.DecisionPlan where
  provenanceMappings : List Provenance
  automationCandidates : List String
  limitations : List String
  providerVersion : String
  generationTimeMs : ℚ
  deriving DecidableEq

/-- The texts of a plan. -/
def DecisionPlan.texts (plan : DecisionPlan) : PlanTexts where
  executiveSummary := plan.executiveSummary
  technicalSummary := plan.technicalSummary
  analystExplanation := plan.analystExplanation
  attackSummary := plan.attackSummary
  businessImpact := plan.businessImpact
  recommendedActions := plan.recommendedActions
  automationCandidates := plan.automationCandidates
  limitations := plan.limitations

/-- `DecisionResponseValidator.validate_to_plan`; `none` is a `DecisionValidationError`. -/
def validateToPlan (data : Fields) (risk : RiskAssessment) (providerName : String) (planId : Uuid)
    (elapsedMs : ℚ) : Option DecisionPlan := do
  let executiveSummary ← strField data "executive_summary" ""
  let technicalSummary ← strField data "technical_summary" ""
  let analystExplanation ← strField data "analyst_explanation" ""
  let attackSummary ← strField data "attack_summary" "Email incident threat analysis"
  let businessImpact ← strField data "business_impact" "Potential operational or financial risk"
  let recommendedActions ← strsField data "recommended_actions" risk.socRecommendations
  let automationCandidates ← strsField data "automation_candidates" []
  let limitations ← strsField data "limitations"
    ["Automated AI decision planning based on risk assessment telemetry."]
  guard (ValidConfidence risk)
  return {
    planId := planId
    assessmentId := risk.assessmentId
    tenantId := risk.tenantId
    messageId := risk.messageId
    executiveSummary := executiveSummary
    technicalSummary := technicalSummary
    analystExplanation := analystExplanation
    attackSummary := attackSummary
    businessImpact := businessImpact
    recommendedActions := recommendedActions
    riskConfidence := risk.overallConfidence
    aiDecisionConfidence := risk.overallConfidence
    provenanceMappings := risk.assessment.riskEvidence.map fun e =>
      ⟨e.explanation, e.sourceModule, e.featureName⟩
    automationCandidates := automationCandidates
    limitations := limitations
    providerVersion := providerName
    generationTimeMs := elapsedMs }

/-- What `AIDecisionPipeline` consists of, and what a run takes from outside. -/
structure Planner where
  context : ContextSetting
  rendering : Rendering
  provider : LLMProvider
  planId : Uuid
  elapsedMs : ℚ

/-- `AIDecisionPipeline.plan_decision`. -/
def planDecision (p : Planner) (risk : RiskAssessment) : Except PlanError DecisionPlan :=
  match p.provider.generateCompletion systemPrompt (userPrompt p.context risk) with
  | .error text => .error (.provider text)
  | .ok completion =>
    match verifyCompletion p.rendering completion risk with
    | .error e => .error e
    | .ok data =>
      match validateToPlan data risk p.provider.providerName p.planId p.elapsedMs with
      | none => .error .decisionValidation
      | some plan => .ok plan

/-- `AIDecisionEngine.generate_decision_plan`, for the orchestrator. -/
def generateDecisionPlan (p : Planner) (risk : RiskAssessment) :
    Except Orchestrator.Failure Orchestrator.DecisionPlan :=
  match planDecision p risk with
  | .ok plan => .ok plan.toDecisionPlan
  | .error _ => .error (.exception "")

/-! ## Retries -/

/-- **The retries**: the first attempt that succeeds is returned, or else the last one; before each
attempt but the first there is one delay, and each delay is a fixed multiple of the one before. -/
theorem retryFrom_spec {ε α : Type} (factor : ℚ) (call : ℕ → Except ε α) (left n : ℕ) (delay : ℚ) :
    ∃ k ≤ left, (∀ j < k, ∃ e, call (n + j) = .error e) ∧
      (k < left → ∃ a, call (n + k) = .ok a) ∧
      retryFrom factor call left n delay =
        ((List.range k).map fun i => delay * factor ^ i, call (n + k)) := by
  induction left generalizing n delay with
  | zero => exact ⟨0, le_refl 0, by simp, by simp, rfl⟩
  | succ left ih =>
    cases hn : call n with
    | ok a =>
      refine ⟨0, Nat.zero_le _, by simp, fun _ => ⟨a, hn⟩, ?_⟩
      rw [retryFrom, hn]
      simp [hn]
    | error e =>
      obtain ⟨k, hk, hbefore, hlast, hrest⟩ := ih (n + 1) (delay * factor)
      have hshift : ∀ j, n + 1 + j = n + (j + 1) := fun j => by omega
      refine ⟨k + 1, Nat.succ_le_succ hk, ?_, ?_, ?_⟩
      · intro j hj
        cases j with
        | zero => exact ⟨e, hn⟩
        | succ j =>
          rw [← hshift]
          exact hbefore j (by omega)
      · intro hlt
        rw [← hshift]
        exact hlast (by omega)
      · have hdelays : ∀ i, delay * factor * factor ^ i = delay * factor ^ (i + 1) := fun i => by
          rw [pow_succ]
          ring
        rw [retryFrom, hn]
        simp only [hrest, hshift, hdelays, List.range_succ_eq_map, List.map_cons, List.map_map,
          pow_zero, mul_one]
        rfl

/-- The model cannot be reached: there is no key, or every attempt fails. -/
def GeminiProvider.Offline (g : GeminiProvider) (system user : String) : Prop :=
  g.apiKey.all (· = "") = true ∨ ∀ n : ℕ, n ≤ g.maxRetries → ∃ e, g.callApi system user n = .error e

/-- **Without the model** the completion is the fallback. -/
theorem generateCompletion_offline {g : GeminiProvider} {system user : String}
    (h : g.Offline system user) : g.generateCompletion system user = .ok (fallbackJson user) := by
  unfold GeminiProvider.generateCompletion
  by_cases hkey : g.apiKey.all (· = "") = true
  · rw [if_pos hkey]
  · have hfail := h.resolve_left hkey
    rw [if_neg hkey]
    unfold executeWithRetry
    split_ifs with hneg
    · rfl
    · obtain ⟨k, hk, -, -, hrun⟩ :=
        retryFrom_spec g.backoffFactor (g.callApi system user) g.maxRetries.toNat 0 1
      obtain ⟨e, he⟩ := hfail k (by omega)
      rw [Nat.zero_add, he] at hrun
      rw [hrun]

/-! ## Which completions become a plan -/

variable {p : Planner} {risk : RiskAssessment} {data : Fields} {plan : DecisionPlan}

theorem texts_map_str (l : List String) : texts (l.map .str) = some l := by
  induction l with
  | nil => rfl
  | cons s l ih => simp [texts, ih]

theorem texts_eq_some {items : List (JsonValue ℚ)} {l : List String} (h : texts items = some l) :
    items = l.map .str := by
  induction items generalizing l with
  | nil =>
    cases h
    rfl
  | cons item items ih =>
    cases item with
    | str s =>
      obtain ⟨l', hl', rfl⟩ := Option.map_eq_some_iff.1 h
      rw [List.map_cons, ih hl']
    | null | bool | int | float | arr | obj => cases h

/-- The fields of a plan that a completion may leave out. -/
structure Filled (data : Fields) (risk : RiskAssessment) (plan : DecisionPlan) : Prop where
  executiveSummary : strField data "executive_summary" "" = some plan.executiveSummary
  technicalSummary : strField data "technical_summary" "" = some plan.technicalSummary
  analystExplanation : strField data "analyst_explanation" "" = some plan.analystExplanation
  attackSummary : strField data "attack_summary" "Email incident threat analysis" =
    some plan.attackSummary
  businessImpact : strField data "business_impact"
    "Potential operational or financial risk" = some plan.businessImpact
  recommendedActions : strsField data "recommended_actions" risk.socRecommendations =
    some plan.recommendedActions
  automationCandidates : strsField data "automation_candidates" [] = some plan.automationCandidates
  limitations : strsField data "limitations"
    ["Automated AI decision planning based on risk assessment telemetry."] = some plan.limitations

/-- What a plan takes from the assessment and the run. -/
structure Traces (p : Planner) (risk : RiskAssessment) (plan : DecisionPlan) : Prop where
  planId : plan.planId = p.planId
  assessmentId : plan.assessmentId = risk.assessmentId
  tenantId : plan.tenantId = risk.tenantId
  messageId : plan.messageId = risk.messageId
  riskConfidence : plan.riskConfidence = risk.overallConfidence
  aiDecisionConfidence : plan.aiDecisionConfidence = risk.overallConfidence
  provenanceMappings : plan.provenanceMappings = risk.assessment.riskEvidence.map fun e =>
    ⟨e.explanation, e.sourceModule, e.featureName⟩
  providerVersion : plan.providerVersion = p.provider.providerName
  generationTimeMs : plan.generationTimeMs = p.elapsedMs

theorem validateToPlan_eq_some_iff :
    validateToPlan data risk p.provider.providerName p.planId p.elapsedMs = some plan ↔
      Filled data risk plan ∧ Traces p risk plan ∧ ValidConfidence risk := by
  unfold validateToPlan
  simp only [Option.bind_eq_bind, Option.bind_eq_some_iff, Option.guard_eq_some']
  constructor
  · rintro ⟨_, h₁, _, h₂, _, h₃, _, h₄, _, h₅, _, h₆, _, h₇, _, h₈, _, hvalid, ⟨⟩⟩
    exact ⟨⟨h₁, h₂, h₃, h₄, h₅, h₆, h₇, h₈⟩, ⟨rfl, rfl, rfl, rfl, rfl, rfl, rfl, rfl, rfl⟩, hvalid⟩
  · rintro ⟨⟨h₁, h₂, h₃, h₄, h₅, h₆, h₇, h₈⟩, htraces, hvalid⟩
    refine ⟨_, h₁, _, h₂, _, h₃, _, h₄, _, h₅, _, h₆, _, h₇, _, h₈, (), hvalid, ?_⟩
    obtain ⟨⟨planId, assessmentId, tenantId, messageId, _, _, _, _, _, _, riskConfidence,
      aiDecisionConfidence⟩, provenanceMappings, _, _, providerVersion, generationTimeMs⟩ := plan
    obtain ⟨rfl, rfl, rfl, rfl, rfl, rfl, rfl, rfl, rfl⟩ := htraces
    rfl

/-- The guardrail lets a document pass. -/
theorem verifyCompletion_eq_ok_iff {r : Rendering} {completion : Completion} :
    verifyCompletion r completion risk = .ok data ↔
      completion = .ok (.obj data) ∧
      (∃ actions, strItems r ((data.lookup "recommended_actions").getD (.arr [])) = .ok actions ∧
        (contains risk → ∀ action ∈ actions, lets action = false)) ∧
      ∀ field ∈ narrativeFields, Told data field := by
  unfold verifyCompletion
  cases completion with
  | error text => simp
  | ok value =>
    cases value with
    | null | bool | int | float | str | arr => simp
    | obj found =>
      have hsame : (Except.ok (.obj found) : Completion) = .ok (.obj data) ↔ found = data := by
        rw [Except.ok.injEq, JsonValue.obj.injEq]
      rw [hsame]
      dsimp only
      cases hitems : strItems r ((found.lookup "recommended_actions").getD (.arr [])) with
      | error e =>
        simp only [reduceCtorEq, false_iff]
        rintro ⟨rfl, ⟨actions, hactions, -⟩, -⟩
        rw [hitems] at hactions
        cases hactions
      | ok actions =>
        have hany : (contains risk ∧ actions.any lets = true) ↔
            ¬ (contains risk → ∀ action ∈ actions, lets action = false) := by
          simp
        simp only [hany]
        by_cases hallowed : contains risk → ∀ action ∈ actions, lets action = false
        · rw [if_neg (not_not.2 hallowed)]
          cases hblank : narrativeFields.find? fun field => ¬ Told found field with
          | some field =>
            have hnot : ¬ Told found field := by simpa using List.find?_some hblank
            simp only [reduceCtorEq, false_iff]
            rintro ⟨rfl, -, htold⟩
            exact hnot (htold field (List.mem_of_find?_eq_some hblank))
          | none =>
            have htold : ∀ field ∈ narrativeFields, Told found field := by
              simpa using hblank
            simp only [Except.ok.injEq]
            constructor
            · rintro rfl
              exact ⟨rfl, ⟨actions, hitems, hallowed⟩, htold⟩
            · exact fun h => h.1
        · rw [if_pos hallowed]
          simp only [reduceCtorEq, false_iff]
          rintro ⟨rfl, ⟨actions', hactions, hallowed'⟩, -⟩
          rw [hitems] at hactions
          cases hactions
          exact hallowed hallowed'

/-- **A completion becomes a plan** exactly when it is an object whose narrative fields are told,
whose other fields have their types, and whose recommendations do not contradict the assessment;
and the plan is made of it and of the assessment. -/
theorem planDecision_eq_ok_iff :
    planDecision p risk = .ok plan ↔
      ∃ data, p.provider.generateCompletion systemPrompt (userPrompt p.context risk) =
          .ok (.ok (.obj data)) ∧
        (∃ actions, strItems p.rendering ((data.lookup "recommended_actions").getD (.arr [])) =
          .ok actions ∧ (contains risk → ∀ action ∈ actions, lets action = false)) ∧
        (∀ field ∈ narrativeFields, Told data field) ∧
        Filled data risk plan ∧ Traces p risk plan ∧ ValidConfidence risk := by
  unfold planDecision
  cases hcompletion : p.provider.generateCompletion systemPrompt (userPrompt p.context risk) with
  | error text => simp
  | ok completion =>
    dsimp only
    cases hverify : verifyCompletion p.rendering completion risk with
    | error e =>
      simp only [reduceCtorEq, false_iff]
      rintro ⟨data, hdata, hactions, htold, -⟩
      rw [verifyCompletion_eq_ok_iff.2 ⟨Except.ok.inj hdata, hactions, htold⟩] at hverify
      cases hverify
    | ok data =>
      obtain ⟨hobject, hactions, htold⟩ := verifyCompletion_eq_ok_iff.1 hverify
      dsimp only
      cases hvalidate : validateToPlan data risk p.provider.providerName p.planId p.elapsedMs with
      | none =>
        simp only [reduceCtorEq, false_iff]
        rintro ⟨data', hdata', -, -, hfilled⟩
        rw [Except.ok.injEq, hobject, Except.ok.injEq, JsonValue.obj.injEq] at hdata'
        rw [hdata', validateToPlan_eq_some_iff.2 hfilled] at hvalidate
        cases hvalidate
      | some found =>
        rw [Except.ok.injEq]
        constructor
        · rintro rfl
          exact ⟨data, by rw [hobject], hactions, htold, validateToPlan_eq_some_iff.1 hvalidate⟩
        · rintro ⟨data', hdata', -, -, hfilled⟩
          rw [Except.ok.injEq, hobject, Except.ok.injEq, JsonValue.obj.injEq] at hdata'
          rw [hdata', validateToPlan_eq_some_iff.2 hfilled] at hvalidate
          exact (Option.some.inj hvalidate).symm

/-! ## Contained e-mails -/

/-- The recommendations of an assessment are those of the enrichment, in whatever order a set gives
them. -/
def Enriched (risk : RiskAssessment) : Prop :=
  ∃ impersonation harvesting,
    risk.socRecommendations.Perm (socRecommendationTexts impersonation harvesting)

/-- Those of the risk engine are. -/
theorem enriched_of_assess {s : Orchestrator.RiskSetting} {parsed : Orchestrator.ParsedEmail}
    {transmission : Orchestrator.TransmissionAnalysis}
    {auth : Orchestrator.AuthenticationVerification}
    {intel : Orchestrator.ThreatIntelEnrichmentResult} {extras : Risk.Extras} {risk : RiskAssessment}
    (h : Orchestrator.assess s parsed transmission auth intel extras = .ok risk) : Enriched risk := by
  obtain ⟨a, -, -, rfl⟩ := (Orchestrator.assess_eq_ok_iff ..).1 h
  exact ⟨_, _, s.setOrder_perm _⟩

theorem lets_socRecommendationTexts (impersonation harvesting : Bool) :
    ∀ action ∈ socRecommendationTexts impersonation harvesting, lets action = false := by
  cases impersonation <;> cases harvesting <;> decide +kernel

/-- **No completion lets a contained e-mail through.**  Whatever the model answers, a plan for an
e-mail that is quarantined or blocked has no recommendation with the words `deliver normally` or
`allow`, however they are spelled. -/
theorem contained_never_delivered (p : Planner) {risk : RiskAssessment} (hrisk : Enriched risk)
    (hcontains : contains risk) {plan : DecisionPlan} (h : planDecision p risk = .ok plan) :
    ∀ action ∈ plan.recommendedActions,
      mentions "deliver normally" action = false ∧ mentions "allow" action = false := by
  obtain ⟨data, -, ⟨actions, hactions, hpass⟩, -, hfilled, -⟩ := planDecision_eq_ok_iff.1 h
  have hlisted := hfilled.recommendedActions
  suffices hlets : ∀ action ∈ plan.recommendedActions, lets action = false from fun action hmem =>
    Bool.or_eq_false_iff.1 (hlets action hmem)
  unfold strsField at hlisted
  cases hlookup : data.lookup "recommended_actions" with
  | none =>
    -- the completion leaves the recommendations to the assessment
    rw [hlookup] at hlisted
    obtain ⟨impersonation, harvesting, hperm⟩ := hrisk
    intro action hmem
    rw [← Option.some.inj hlisted] at hmem
    exact lets_socRecommendationTexts impersonation harvesting action (hperm.mem_iff.1 hmem)
  | some value =>
    rw [hlookup] at hlisted hactions
    cases value with
    | null | bool | int | float | str | obj => cases hlisted
    | arr items =>
      have hitems : items = plan.recommendedActions.map .str := texts_eq_some hlisted
      have hsame : actions = plan.recommendedActions := by
        have hstr : p.rendering.str ∘ JsonValue.str = id := funext p.rendering.str_str
        have hok := hactions
        simp only [Option.getD_some, strItems, hitems, List.map_map, hstr, List.map_id,
          Except.ok.injEq] at hok
        exact hok.symm
      rw [← hsame]
      exact hpass hcontains

/-! ## Without the model -/

theorem lower_append (s t : String) : lower (s ++ t) = lower s ++ lower t := by
  simp [lower]

theorem mentions_of_infix {phrase s t : String} (h : mentions phrase s = true)
    (hst : lower s <:+: lower t) : mentions phrase t = true := by
  rw [mentions, decide_eq_true_eq] at h ⊢
  exact h.trans hst

/-- What a piece of a text mentions, the text mentions. -/
theorem mentions_join {phrase piece : String} {pieces : List String} (hmem : piece ∈ pieces)
    (h : mentions phrase piece = true) : mentions phrase (String.join pieces) = true := by
  refine mentions_of_infix h ?_
  have hjoin : ∀ (pieces : List String) (acc : String),
      lower (pieces.foldl (· ++ ·) acc) = lower acc ++ (pieces.map lower).flatten := by
    intro pieces
    induction pieces with
    | nil => intro acc; simp
    | cons piece pieces ih =>
      intro acc
      rw [List.foldl_cons, ih, lower_append, List.map_cons, List.flatten_cons, List.append_assoc]
  show _ <:+: lower (pieces.foldl (· ++ ·) "")
  rw [hjoin]
  exact (List.infix_of_mem_flatten (List.mem_map_of_mem hmem)).trans (List.suffix_append _ _).isInfix

/-- **What raises the alarm**: a malicious verdict, a contained e-mail, and also an e-mail that there
is no evidence about, whose prompt says so with the word that is looked for. -/
theorem alarming_userPrompt (c : ContextSetting) {risk : RiskAssessment}
    (h : risk.assessment.verdict = .malicious ∨ contains risk ∨ risk.assessment.riskEvidence = []) :
    alarming (userPrompt c risk) = true := by
  have hmalicious : ∀ piece ∈ promptPieces c risk, mentions "malicious" piece = true →
      alarming (userPrompt c risk) = true := by
    intro piece hmem hmentions
    rw [alarming, userPrompt, mentions_join hmem hmentions]
    rfl
  rcases h with hverdict | hcontains | hevidence
  · refine hmalicious risk.assessment.verdict.value (by simp [promptPieces]) ?_
    rw [hverdict]
    decide
  · have haction : risk.assessment.recommendedAction.value ∈ promptPieces c risk := by
      simp [promptPieces]
    rcases hcontains with hquarantined | hblocked
    · have hmentions : mentions "quarantined" risk.assessment.recommendedAction.value = true := by
        rw [hquarantined]
        decide
      rw [alarming, userPrompt, mentions_join haction hmentions, Bool.or_true, Bool.true_or]
    · have hmentions : mentions "blocked" risk.assessment.recommendedAction.value = true := by
        rw [hblocked]
        decide
      rw [alarming, userPrompt, mentions_join haction hmentions, Bool.or_true]
  · have hnone : boundEvidence c.maxEvidenceItems risk.assessment.riskEvidence = [] := by
      simp [boundEvidence, hevidence]
    refine hmalicious "- Zero malicious risk evidence identified." ?_ (by decide +kernel)
    simp [promptPieces, hnone, linesOr]

/-- A text with a character that is no blank is not blank. -/
theorem strip_ne_empty {s : String} {c : Char} (hmem : c ∈ s.toList) (hc : Text.isSpace c = false) :
    Text.strip s ≠ "" := by
  intro h
  have hnil : Text.trim Text.isSpace s.toList = [] := by
    simpa [Text.strip] using congrArg String.toList h
  rw [Text.trim, List.reverse_eq_nil_iff, List.dropWhile_eq_nil_iff] at hnil
  have hall : ∀ x ∈ s.toList, Text.isSpace x = true := by
    intro x hx
    rw [← List.takeWhile_append_dropWhile (p := Text.isSpace) (l := s.toList)] at hx
    rcases List.mem_append.1 hx with htake | hdrop
    · exact List.mem_takeWhile_imp htake
    · exact hnil x (List.mem_reverse.2 hdrop)
  rw [hall c hmem] at hc
  cases hc

/-- **A document of texts becomes a plan**, if its narrative is told and its recommendations do not
contradict the assessment. -/
theorem planDecision_document {t : PlanTexts}
    (hcompletion : p.provider.generateCompletion systemPrompt (userPrompt p.context risk) =
      .ok (.ok (document t)))
    (hexecutive : Text.strip t.executiveSummary ≠ "")
    (htechnical : Text.strip t.technicalSummary ≠ "")
    (hanalyst : Text.strip t.analystExplanation ≠ "")
    (hpass : contains risk → ∀ action ∈ t.recommendedActions, lets action = false)
    (hvalid : ValidConfidence risk) :
    ∃ plan, planDecision p risk = .ok plan ∧ plan.texts = t ∧ Traces p risk plan := by
  have hstr : p.rendering.str ∘ JsonValue.str = id := funext p.rendering.str_str
  refine ⟨⟨⟨p.planId, risk.assessmentId, risk.tenantId, risk.messageId, t.executiveSummary,
      t.technicalSummary, t.analystExplanation, t.attackSummary, t.businessImpact,
      t.recommendedActions, risk.overallConfidence, risk.overallConfidence⟩,
    risk.assessment.riskEvidence.map fun e => ⟨e.explanation, e.sourceModule, e.featureName⟩,
    t.automationCandidates, t.limitations, p.provider.providerName, p.elapsedMs⟩,
    planDecision_eq_ok_iff.2 ⟨_, hcompletion, ⟨t.recommendedActions, ?_, hpass⟩, ?_, ?_, ?_, hvalid⟩,
    rfl, ?_⟩
  · show strItems p.rendering (.arr (t.recommendedActions.map .str)) = _
    rw [strItems, List.map_map, hstr, List.map_id]
  · intro field hfield
    simp only [narrativeFields, List.mem_cons, List.not_mem_nil, or_false] at hfield
    rcases hfield with rfl | rfl | rfl
    · exact hexecutive
    · exact htechnical
    · exact hanalyst
  · exact ⟨rfl, rfl, rfl, rfl, rfl, texts_map_str _, texts_map_str _, texts_map_str _⟩
  · exact ⟨rfl, rfl, rfl, rfl, rfl, rfl, rfl, rfl, rfl⟩
  · exact ⟨rfl, rfl, rfl, rfl, rfl, rfl, rfl, rfl, rfl⟩

/-- The plan that is made without the model. -/
theorem exists_offline_plan {g : GeminiProvider} (hp : p.provider = g.toLLMProvider)
    (hoff : g.Offline systemPrompt (userPrompt p.context risk)) (hvalid : ValidConfidence risk) :
    ∃ plan, planDecision p risk = .ok plan ∧
      plan.texts = (if alarming (userPrompt p.context risk) then alarmingTexts
        else reassuringTexts) ∧
      Traces p risk plan := by
  have hcompletion : p.provider.generateCompletion systemPrompt (userPrompt p.context risk) =
      .ok (.ok (fallbackJson (userPrompt p.context risk))) := by
    rw [hp]
    exact congrArg Except.ok (generateCompletion_offline hoff)
  rw [fallbackJson] at hcompletion
  by_cases halarm : alarming (userPrompt p.context risk) = true
  · rw [if_pos halarm] at hcompletion ⊢
    have hpass : ∀ action ∈ alarmingActions, lets action = false := by decide +kernel
    exact planDecision_document hcompletion
      (strip_ne_empty (c := 'H') (by decide +kernel) rfl) (strip_ne_empty (c := 'I') (by decide +kernel) rfl)
      (strip_ne_empty (c := 'I') (by decide +kernel) rfl) (fun _ => hpass) hvalid
  · rw [if_neg halarm] at hcompletion ⊢
    have hpass : ∀ action ∈ reassuringActions, lets action = false := by decide +kernel
    exact planDecision_document hcompletion
      (strip_ne_empty (c := 'I') (by decide +kernel) rfl) (strip_ne_empty (c := 'A') (by decide +kernel) rfl)
      (strip_ne_empty (c := 'S') (by decide +kernel) rfl) (fun _ => hpass) hvalid

/-- **Without the model there is always a plan**, with one of two fixed texts, whether there is no
key or every attempt to reach it fails.  It is the alarming one for every malicious or contained
e-mail, and for every e-mail without any evidence; so the reassuring one is only given where there
is some. -/
theorem offline_plan (p : Planner) (g : GeminiProvider) (hp : p.provider = g.toLLMProvider)
    (risk : RiskAssessment) (hoff : g.Offline systemPrompt (userPrompt p.context risk))
    (hvalid : ValidConfidence risk) :
    ∃ plan, planDecision p risk = .ok plan ∧ Traces p risk plan ∧
      (plan.texts = alarmingTexts ∨
        (plan.texts = reassuringTexts ∧ risk.assessment.verdict ≠ .malicious ∧ ¬ contains risk ∧
          risk.assessment.riskEvidence ≠ [])) := by
  obtain ⟨plan, hplan, htexts, htraces⟩ := exists_offline_plan hp hoff hvalid
  refine ⟨plan, hplan, htraces, ?_⟩
  by_cases halarm : alarming (userPrompt p.context risk) = true
  · rw [if_pos halarm] at htexts
    exact .inl htexts
  · rw [if_neg halarm] at htexts
    have hnot := mt (alarming_userPrompt p.context) halarm
    simp only [not_or] at hnot
    exact .inr ⟨htexts, hnot⟩

/-- **An e-mail that nothing is known of raises the alarm.**  If none of the six analyses gets through
and the model cannot be reached either, an e-mail that can be parsed is analysed all the same: it is
clean and delivered with a score of `0`, and the plan in the same result calls it a high risk and
tells to isolate the recipient's device. -/
theorem blackout_alarms (s : Orchestrator.RiskSetting) (x : Orchestrator.Engines)
    (hx : x.assessRisk = Orchestrator.assess s) (p : Planner) (g : GeminiProvider)
    (hp : p.provider = g.toLLMProvider) (hoff : ∀ user, g.Offline systemPrompt user)
    (hplan : x.generateDecisionPlan = generateDecisionPlan p) (env : Orchestrator.Environment)
    (hcalm : Orchestrator.Calm x env)
    (publisher : Option (Orchestrator.PipelineEvent → Except Orchestrator.Failure Unit))
    (hpub : Orchestrator.Reliable publisher) (rawEmail : Orchestrator.RawEmail) (analysisId : Uuid)
    (parsed : Orchestrator.ParsedEmail) (hparse : Orchestrator.parseRawEmail x rawEmail = .ok parsed)
    (hblack : Orchestrator.Blackout x env parsed)
    (hclean : 0 ≤ (s.profileOf parsed.tenantId).thresholdCleanMax) :
    ∃ r, (Orchestrator.analyzeEmail x env publisher rawEmail analysisId).result = .ok r ∧
      r.riskAssessment.assessment = ⟨0, .clean, .delivered, [], []⟩ ∧
      r.decisionPlan.executiveSummary = alarmingSummary ∧
      r.decisionPlan.recommendedActions = alarmingActions := by
  obtain ⟨risk, hrisk, hvalid, hassessment, -⟩ :=
    Orchestrator.blackout_risk s x hx env parsed hblack hclean
  have hresult := (Orchestrator.executePipeline_eq_ok_iff x env rawEmail analysisId _).2
    ⟨parsed, risk, hparse, hrisk, hcalm parsed risk, fun _ => hvalid, rfl⟩
  have hnone : risk.assessment.riskEvidence = [] := by rw [hassessment]
  obtain ⟨plan, hplanned, htexts, -⟩ := exists_offline_plan hp (hoff _) hvalid
  rw [if_pos (alarming_userPrompt p.context (.inr (.inr hnone)))] at htexts
  have hplanOf : Orchestrator.planOf x env risk = plan.toDecisionPlan := by
    rw [Orchestrator.planOf, hplan, generateDecisionPlan, hplanned]
    rfl
  rw [Orchestrator.analyzeEmail_eq hpub]
  refine ⟨_, hresult, hassessment, ?_⟩
  show (Orchestrator.planOf x env risk).executiveSummary = _ ∧
    (Orchestrator.planOf x env risk).recommendedActions = _
  rw [hplanOf]
  exact ⟨congrArg PlanTexts.executiveSummary htexts, congrArg PlanTexts.recommendedActions htexts⟩

/-! ## A planner without a key -/

/-- A value in Python's notation, where it is a text. -/
def someRendering : Rendering where
  str
    | .str s => s
    | _ => "None"
  str_str _ := rfl

/-- The provider without a key. -/
def keyless : GeminiProvider where
  apiKey := none
  callApi _ _ _ := .error "unreachable"

theorem keyless_offline (system user : String) : keyless.Offline system user := .inl rfl

/-- A planner that has no key. -/
def somePlanner : Planner where
  context := ⟨Text.asciiUpper, fun _ => [], 5⟩
  rendering := someRendering
  provider := keyless.toLLMProvider
  planId := .ofNat 9
  elapsedMs := 3

/-- An e-mail that is blocked. -/
def blockedRisk : RiskAssessment :=
  { Orchestrator.someRisk with
    assessment := ⟨95, .malicious, .blocked, [], []⟩
    socRecommendations := ["Monitor email traffic for visual typosquatting indicators."] }

theorem valid_blockedRisk : ValidConfidence blockedRisk := by
  constructor
  · exact zero_le_one
  · exact le_refl 1

theorem contained_never_delivered_blockedRisk :
    ∃ plan, planDecision somePlanner blockedRisk = .ok plan ∧ ∀ action ∈ plan.recommendedActions,
      mentions "deliver normally" action = false ∧ mentions "allow" action = false := by
  obtain ⟨plan, hplan, -⟩ := exists_offline_plan (p := somePlanner) rfl
    (keyless_offline _ _) valid_blockedRisk
  exact ⟨plan, hplan, contained_never_delivered somePlanner ⟨false, false, .refl _⟩ (.inr rfl) hplan⟩

theorem offline_plan_blockedRisk : ∃ plan, planDecision somePlanner blockedRisk = .ok plan ∧
    plan.texts = alarmingTexts := by
  obtain ⟨plan, hplan, -, halarm | ⟨-, hverdict, -⟩⟩ := offline_plan somePlanner keyless rfl
    blockedRisk (keyless_offline _ _) valid_blockedRisk
  · exact ⟨plan, hplan, halarm⟩
  · exact absurd rfl hverdict

theorem generateDecisionPlan_ne_cancelled (p : Planner) (risk : RiskAssessment) :
    generateDecisionPlan p risk ≠ .error .cancelled := by
  unfold generateDecisionPlan
  split
  · exact fun h => by cases h
  · exact fun h => by cases h

/-- Engines of which only the parser and the risk engine work, with the planner. -/
def plannedOutage : Orchestrator.Engines :=
  { Orchestrator.outage (Orchestrator.assess Orchestrator.someSetting) with
    generateDecisionPlan := generateDecisionPlan somePlanner }

theorem generateDecisionPlan_plannedOutage :
    plannedOutage.generateDecisionPlan = generateDecisionPlan somePlanner := by
  simp only [plannedOutage]

theorem executeRemediation_plannedOutage (request : Orchestrator.RemediationRequest) :
    plannedOutage.executeRemediation request = .error (.exception "down") := by
  simp only [plannedOutage, Orchestrator.outage]

theorem calm_plannedOutage : Orchestrator.Calm plannedOutage (Orchestrator.steady 20) := by
  intro parsed risk
  constructor
  case token => exact fun _ => rfl
  case parallel => rfl
  case plan =>
    rw [generateDecisionPlan_plannedOutage]
    exact generateDecisionPlan_ne_cancelled somePlanner risk
  case remediation =>
    rw [executeRemediation_plannedOutage]
    rintro ⟨⟩
  all_goals rintro ⟨⟩

theorem blackout_alarms_plannedOutage :
    ∃ r, (Orchestrator.analyzeEmail plannedOutage (Orchestrator.steady 20) none
        Orchestrator.someEmail (.ofNat 7)).result = .ok r ∧
      r.riskAssessment.assessment.recommendedAction = .delivered ∧
      "Isolate recipient endpoint device immediately." ∈ r.decisionPlan.recommendedActions := by
  obtain ⟨r, hr, hassessment, -, hactions⟩ := blackout_alarms Orchestrator.someSetting plannedOutage
    rfl somePlanner keyless rfl (keyless_offline systemPrompt) generateDecisionPlan_plannedOutage
    (Orchestrator.steady 20) calm_plannedOutage none (by rintro _ ⟨⟩) Orchestrator.someEmail (.ofNat 7)
    Orchestrator.someParsed rfl ⟨rfl, rfl, rfl, rfl, rfl, rfl⟩ (by decide)
  refine ⟨r, hr, by rw [hassessment], ?_⟩
  rw [hactions]
  exact List.mem_cons_self

end ScamOn.AiDecision
