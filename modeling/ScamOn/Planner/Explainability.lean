import Mathlib.Data.List.Nodup
import ScamOn.Planner.Reasoning

/-!
# The final report

`ExplainabilityEngine.generate_report` puts the verdict of the reasoning engine and the course of an
investigation into a report.

* `classificationOf`, `recommendedPriorityOf` and `incidentCategoryOf` are the tables of the risk level.
* `skippedTools` is the loop over the planning decisions.
* `isPhishing_classificationOf`: for the reasoning engine a report speaks of phishing exactly if its
  level is high or critical.
-/

namespace ScamOn.Planner

/-! ## Tables -/

/-- `classification`. -/
def classificationOf : RiskLevel → String
  | .critical => "PHISHING / MALICIOUS"
  | .high => "SUSPICIOUS (HIGH RISK)"
  | .medium => "SUSPICIOUS (MODERATE RISK)"
  | .low => "CLEAN / SAFE"

/-- `priority`. -/
def recommendedPriorityOf : RiskLevel → String
  | .critical => "P1"
  | .high => "P2"
  | .medium => "P3"
  | .low => "P4"

/-- `incident_category`. -/
def incidentCategoryOf : RiskLevel → String
  | .critical => "phishing"
  | .high => "phishing"
  | .medium => "suspicious_email"
  | .low => "benign"

/-- `business_impact`. -/
def businessImpactOf (riskLevel : RiskLevel) : String :=
  if .high ≤ riskLevel then
    "Potential credential, financial, or malware exposure requires review."
  else "Limited impact pending analyst validation."

/-! ## The tools -/

/-- The names that a planning decision proposes: its tools, or those of its steps. -/
def DecisionMetadata.proposals : DecisionMetadata → List String
  | .final _ _ _ => []
  | .iteration proposedSteps proposedTools stepToolMap _ _ _ =>
    if proposedTools.isEmpty then proposedSteps.map fun p => (stepToolMap.get? p).getD p
    else proposedTools

/-- One name that is proposed. -/
def skip (executed skipped : List String) (name : String) : List String :=
  if name ∈ executed ∨ name ∈ skipped then skipped else skipped ++ [name]

/-- The loop over the decisions. -/
def skippedTools (executed : List String) (decisions : List PlanningDecision) : List String :=
  decisions.foldl (fun skipped decision => decision.metadata.proposals.foldl (skip executed) skipped) []

/-! ## The report -/

/-- `FinalReport`, without the evidence, the timeline and what other modules add. -/
structure FinalReport where
  summary : String
  classification : String
  riskLevel : RiskLevel
  confidence : ℚ
  executedTools : List String
  skippedTools : List String
  reasoning : String
  riskScore : ℚ
  scoreBreakdown : List Contribution
  executiveSummary : String
  incidentCategory : String
  recommendedPriority : String
  businessImpact : String

/-- `generate_report`. -/
def generateReport (state : AgentState) (reasoning : ReasoningOutput) : FinalReport :=
  let risk := reasoning.riskLevel
  let executed := state.executionHistory.map ExecutionRecord.toolName
  {
    summary := reasoning.summary
    classification := classificationOf risk
    riskLevel := risk
    confidence := reasoning.confidence
    executedTools := executed
    skippedTools := skippedTools executed state.planningDecisions
    reasoning := reasoning.securityExplanation ++ "\n\n" ++ reasoning.analystNotes
    riskScore := reasoning.riskScore
    scoreBreakdown := reasoning.scoreBreakdown
    executiveSummary := recommendedPriorityOf risk ++ " " ++ replaceChar '_' ' ' (incidentCategoryOf risk) ++
      " investigation: " ++ reasoning.summary
    incidentCategory := incidentCategoryOf risk
    recommendedPriority := recommendedPriorityOf risk
    businessImpact := businessImpactOf risk
  }

/-! ## How the reasoning engine reads it -/

/-- `casefold` turns ASCII letters to lower case. -/
def FoldsAscii (casefold : String → String) : Prop :=
  ∀ s, Chars.allAscii s.toList = true → casefold s = Text.asciiLower s

theorem foldsAscii_asciiLower : FoldsAscii Text.asciiLower := fun _ _ => rfl

theorem ascii_of_level (level : RiskLevel) :
    Chars.allAscii level.value.toList = true ∧
      Chars.allAscii (classificationOf level).toList = true := by
  cases level with
  | _ => decide

/-- **A match is of phishing** exactly if the level that was reported is high or critical. -/
theorem isPhishing_classificationOf {env : ReasoningEnv} (h : FoldsAscii env.casefold)
    {found : InvestigationMatch} {level : RiskLevel} (hrisk : found.riskLevel = level.value)
    (hclass : found.classification = classificationOf level) :
    found.isPhishing env = true ↔ .high ≤ level := by
  rw [InvestigationMatch.isPhishing, hrisk, hclass, h _ (ascii_of_level level).1,
    h _ (ascii_of_level level).2]
  cases level with
  | _ => decide +kernel

end ScamOn.Planner
