import Mathlib.Order.Basic
import ScamOn.Lib.FixedPoint
import ScamOn.Lib.Pattern
import ScamOn.Planner.RiskScoring
import ScamOn.SecurityIntelligence.Detectors

/-!
# The reasoning engine

`ReasoningEngine.reason` turns the evidence of an investigation into a verdict: a risk
level, a confidence, and the texts that explain them.

* `historicalContext` reads the investigations that a memory retriever found: those above
  the similarity threshold support the verdict, contradict it, or do neither.
* `inspect` is one turn of the loop over the evidence; `flags_findings` says what the whole
  loop leaves: a flag is set exactly if some item hits it.
* `Signals` is all that the cascade of the risk level reads, and `riskLevel_mono` says that
  more signals never lower the level.
* `reason_monotone`: the level does not depend on the order of the evidence and never drops
  when evidence is added; the confidence is at most 0.99, and historical matches move it by
  at most 0.09, and not at all when they contradict each other.
-/

namespace ScamOn.Planner

open SecurityIntelligence

/-- What the engine uses besides its own code. -/
structure ReasoningEnv where
  sets : SetOrder
  library : DomainLibrary
  casefold : String → String
  riskScoring : RiskScoringEngine

/-- An entry of `evidence_correlation`. -/
structure Correlation where
  indicator : String
  evidenceId : String
  detail : String
  similarityScore : Option ℚ := none
  sharedIndicators : Option (List String) := none

/-! ## Historical investigations -/

/-- A match of the memory retriever: `str(getattr(record, field, ""))` for each field. -/
structure InvestigationMatch where
  memoryId : String
  similarityScore : ℚ
  classification : String
  riskLevel : String
  sender : String
  subject : String
  summary : String

/-- `find_similar_investigations`, for a subject, a sender and the summary of a body. -/
abbrev Retriever : Type := String → String → String → List InvestigationMatch

/-- `HistoricalReasoningContext`. -/
structure HistoricalContext where
  correlations : List Correlation := []
  explanationParts : List String := []
  investigationIds : List String := []
  confidenceAdjustment : ℚ := 0
  hasCampaignMatch : Bool := false

section Historical

variable (env : ReasoningEnv)

/-- `is_phishing`. -/
def InvestigationMatch.isPhishing (found : InvestigationMatch) : Bool :=
  env.casefold found.riskLevel ∈ ["high", "critical"] ||
    ["phishing", "bec", "malware", "scam"].any (Text.contains (env.casefold found.classification))

/-- `is_conflicting`. -/
def InvestigationMatch.isConflicting (found : InvestigationMatch) : Bool :=
  env.casefold found.riskLevel = "low" ||
    env.casefold found.classification ∈ ["safe", "benign", "legitimate", "clean"]

/-- The order of the matches: the most similar first, then by identifier. -/
def InvestigationMatch.precedes (a b : InvestigationMatch) : Bool :=
  b.similarityScore < a.similarityScore ||
    (a.similarityScore = b.similarityScore && a.memoryId ≤ b.memoryId)

/-- `high_similarity_matches`. -/
def highSimilarityMatches (found : List InvestigationMatch) : List InvestigationMatch :=
  (found.filter fun m => 4 / 5 ≤ m.similarityScore).mergeSort InvestigationMatch.precedes

/-- The links of a text, as `re.findall(r"https?://[^\s<>()]+", text)` gives them. -/
def linksOf (text : String) : List String :=
  let stops : Char → Bool := fun c => Text.isSpace c || ['<', '>', '(', ')'].contains c
  ((Pattern.cat [.lit "http", .opt (.lit "s"), .lit "://",
    .plus (.set fun c => !stops c)]).finditer text.toList).map fun m => String.ofList m.text

/-- `shared_indicators`. -/
def sharedIndicators (email : EmailInput) (found : InvestigationMatch) : List String :=
  let sender := env.casefold email.header.sender
  let senderDomain :=
    if '@' ∈ sender.toList then String.ofList (sender.toList.reverse.takeWhile (· ≠ '@')).reverse
    else ""
  let historicalSender := env.casefold found.sender
  let historicalText := String.intercalate " "
    [historicalSender, env.casefold found.subject, env.casefold found.summary]
  let links := (linksOf email.bodyText).map env.casefold
  let names := email.attachments.map fun attachment => env.casefold attachment.filename
  (if historicalSender = sender then ["sender"]
    else if senderDomain ≠ "" ∧ ("@" ++ senderDomain).toList.isSuffixOf historicalSender.toList then
      ["sender domain"]
    else []) ++
  (if links.any (Text.contains historicalText) then ["URL"] else []) ++
  (if names.any (Text.contains historicalText) then ["attachment filename"] else [])

/-- The correlation of one match. -/
def matchCorrelation (email : EmailInput) (found : InvestigationMatch) : Correlation :=
  let orUnknown : String → String := fun s => if s = "" then "unknown" else s
  {
    indicator := "Historical Investigation Match"
    evidenceId := found.memoryId
    detail := "Historical investigation " ++ found.memoryId ++ " matched at " ++
      formatFixed 2 found.similarityScore ++ " similarity (classification: " ++
      orUnknown (env.casefold found.classification) ++ ", risk: " ++
      orUnknown (env.casefold found.riskLevel) ++ ")."
    similarityScore := some found.similarityScore
    sharedIndicators := some (sharedIndicators env email found)
  }

/-- `supporting_matches`. -/
def supportingMatches (found : List InvestigationMatch) : List InvestigationMatch :=
  (highSimilarityMatches found).filter (·.isPhishing env)

/-- `conflicting_matches`. -/
def conflictingMatches (found : List InvestigationMatch) : List InvestigationMatch :=
  (highSimilarityMatches found).filter fun m => !m.isPhishing env && m.isConflicting env

/-- `confidence_adjustment`. -/
def confidenceAdjustment (hasConflict : Bool) (supportingIds : List String) : ℚ :=
  if hasConflict then 0
  else if !supportingIds.isEmpty then min (9 / 100) (supportingIds.length * (3 / 100))
  else 0

/-- The context that a list of matches gives. -/
def contextOf (email : EmailInput) (found : List InvestigationMatch) : HistoricalContext :=
  if (highSimilarityMatches found).isEmpty then {}
  else
    let supportingIds := (supportingMatches env found).map InvestigationMatch.memoryId
    let conflictingIds := (conflictingMatches env found).map InvestigationMatch.memoryId
    let hasConflict := !supportingIds.isEmpty && !conflictingIds.isEmpty
    let campaignMatch := decide (2 ≤ supportingIds.length) && !hasConflict
    {
      correlations := (highSimilarityMatches found).map (matchCorrelation env email) ++
        (if hasConflict then
          [{
            indicator := "Conflicting Historical Investigation Matches"
            evidenceId := String.intercalate "," (supportingIds ++ conflictingIds)
            detail := "High-similarity historical investigations include both phishing and " ++
              "low-risk outcomes; no historical confidence adjustment was applied."
          }]
        else []) ++
        (if campaignMatch then
          [{
            indicator := "Historical Phishing Campaign Correlation"
            evidenceId := String.intercalate "," supportingIds
            detail := "Multiple high-similarity historical phishing investigations matched: " ++
              String.intercalate ", " supportingIds ++ "."
          }]
        else [])
      explanationParts :=
        (if hasConflict then ["conflicting high-similarity historical investigation outcomes"]
          else if !supportingIds.isEmpty then
            ["high-similarity historical phishing investigation matches"]
          else []) ++
        (if campaignMatch then ["a repeated historical phishing campaign"] else [])
      investigationIds := supportingIds
      confidenceAdjustment := confidenceAdjustment hasConflict supportingIds
      hasCampaignMatch := campaignMatch
    }

/-- What the retriever answers for an e-mail. -/
def Retriever.answer (retriever : Retriever) (email : EmailInput) : List InvestigationMatch :=
  retriever email.header.subject email.header.sender
    (String.ofList (email.bodyText.toList.take 2000))

/-- `_historical_context`. -/
def historicalContext (parsedEmail : Option EmailInput) (retriever : Option Retriever) :
    HistoricalContext :=
  match retriever, parsedEmail with
  | some retriever, some email => contextOf env email (retriever.answer email)
  | _, _ => {}

/-- High-similarity matches conflict: one is of a phishing investigation, and one of an
investigation that only speaks for a low risk. -/
def Conflict (found : List InvestigationMatch) : Prop :=
  (∃ m ∈ found, 4 / 5 ≤ m.similarityScore ∧ m.isPhishing env = true) ∧
    ∃ m ∈ found, 4 / 5 ≤ m.similarityScore ∧ m.isPhishing env = false ∧ m.isConflicting env = true

variable {env} {email : EmailInput} {found : List InvestigationMatch}

theorem mem_highSimilarityMatches {m : InvestigationMatch} :
    m ∈ highSimilarityMatches found ↔ m ∈ found ∧ 4 / 5 ≤ m.similarityScore := by
  rw [highSimilarityMatches, List.mem_mergeSort, List.mem_filter, decide_eq_true_eq]

theorem confidenceAdjustment_mem (hasConflict : Bool) (supportingIds : List String) :
    0 ≤ confidenceAdjustment hasConflict supportingIds ∧
      confidenceAdjustment hasConflict supportingIds ≤ 9 / 100 := by
  unfold confidenceAdjustment
  split_ifs
  · norm_num
  · exact ⟨le_min (by norm_num) (by positivity), min_le_left _ _⟩
  · norm_num

/-- **The adjustment** of the confidence is between 0 and 0.09. -/
theorem historicalContext_mem (parsedEmail : Option EmailInput) (retriever : Option Retriever) :
    0 ≤ (historicalContext env parsedEmail retriever).confidenceAdjustment ∧
      (historicalContext env parsedEmail retriever).confidenceAdjustment ≤ 9 / 100 := by
  have hzero : (0 : ℚ) ≤ 0 ∧ (0 : ℚ) ≤ 9 / 100 := by norm_num
  unfold historicalContext
  split
  · next retriever email =>
    rw [contextOf]
    by_cases hnone : (highSimilarityMatches (retriever.answer email)).isEmpty = true
    · rw [if_pos hnone]
      exact hzero
    · rw [if_neg hnone]
      exact confidenceAdjustment_mem _ _
  · exact hzero

/-- **Matches that conflict** neither adjust the confidence nor make a campaign. -/
theorem contextOf_of_conflict (h : Conflict env found) :
    (contextOf env email found).confidenceAdjustment = 0 ∧
      (contextOf env email found).hasCampaignMatch = false := by
  obtain ⟨⟨m, hm, hsim, hphishing⟩, m', hm', hsim', hphishing', hconflicting⟩ := h
  have hhigh : m ∈ highSimilarityMatches found := mem_highSimilarityMatches.2 ⟨hm, hsim⟩
  have hhigh' : m' ∈ highSimilarityMatches found := mem_highSimilarityMatches.2 ⟨hm', hsim'⟩
  have hsupporting : m ∈ supportingMatches env found := List.mem_filter.2 ⟨hhigh, hphishing⟩
  have hconflict : m' ∈ conflictingMatches env found :=
    List.mem_filter.2 ⟨hhigh', by rw [hphishing', hconflicting]; rfl⟩
  have hne : (highSimilarityMatches found).isEmpty = false :=
    List.isEmpty_eq_false_iff_exists_mem.2 ⟨m, hhigh⟩
  have hids : ((supportingMatches env found).map InvestigationMatch.memoryId).isEmpty = false :=
    List.isEmpty_eq_false_iff_exists_mem.2 ⟨_, List.mem_map_of_mem hsupporting⟩
  have hids' : ((conflictingMatches env found).map InvestigationMatch.memoryId).isEmpty = false :=
    List.isEmpty_eq_false_iff_exists_mem.2 ⟨_, List.mem_map_of_mem hconflict⟩
  simp [contextOf, confidenceAdjustment, hne, hids, hids']

end Historical

/-! ## The loop over the evidence -/

/-- The flags of the loop, in the order of its checks. -/
inductive Flag
  | threatIntelligenceMatch | campaignCorrelation | spfFail | dkimFail | dmarcFail
  | maliciousUrl | suspiciousAttachment | senderAnomaly
  deriving DecidableEq

namespace Flag

def all : List Flag :=
  [threatIntelligenceMatch, campaignCorrelation, spfFail, dkimFail, dmarcFail, maliciousUrl,
    suspiciousAttachment, senderAnomaly]

def indicator : Flag → String
  | threatIntelligenceMatch => "External Threat Intelligence Match"
  | campaignCorrelation => "Campaign Correlation"
  | spfFail => "SPF Authentication Failure"
  | dkimFail => "DKIM Authentication Failure"
  | dmarcFail => "DMARC Authentication Failure"
  | maliciousUrl => "Suspicious URL/Domain"
  | suspiciousAttachment => "Suspicious Attachment"
  | senderAnomaly => "Sender Mismatch/Anomaly"

end Flag

/-- `ev.severity in (HIGH, CRITICAL)`. -/
def EvidenceSeverity.severe (severity : EvidenceSeverity) : Bool :=
  severity = .high || severity = .critical

/-- The check of one authentication mechanism. -/
def authFail (lower : String → String) (mechanism : String) (ev : EvidenceRecord) : Bool :=
  (Text.contains (lower ev.category) mechanism || Text.contains (lower ev.title) mechanism) &&
    (Text.contains (lower ev.description) "fail" || ev.severity.severe)

/-- The check that sets a flag. -/
def hit (lower : String → String) (ev : EvidenceRecord) : Flag → Bool
  | .threatIntelligenceMatch =>
    Text.contains (lower ev.category) "threat_intelligence" &&
      ((ev.metadata.get? "malicious").getD .null).truthy
  | .campaignCorrelation => Text.contains (lower ev.category) "campaign_correlation"
  | .spfFail => authFail lower "spf" ev
  | .dkimFail => authFail lower "dkim" ev
  | .dmarcFail => authFail lower "dmarc" ev
  | .maliciousUrl =>
    (Text.contains (lower ev.category) "url" || Text.contains (lower ev.title) "url" ||
        Text.contains (lower ev.category) "domain") &&
      (ev.severity.severe ||
        ["suspicious", "malicious", "shortener"].any (Text.contains (lower ev.description)))
  | .suspiciousAttachment =>
    (Text.contains (lower ev.category) "attachment" || Text.contains (lower ev.title) "attachment" ||
        Text.contains (lower ev.category) "signature") &&
      (ev.severity.severe ||
        ["executable", "zip", "double extension"].any (Text.contains (lower ev.description)))
  | .senderAnomaly =>
    (Text.contains (lower ev.category) "sender" || Text.contains (lower ev.title) "sender" ||
        Text.contains (lower ev.category) "relationship") &&
      (ev.severity = .medium || ev.severity.severe ||
        ["mismatch", "spoof", "display name"].any (Text.contains (lower ev.description)))

/-- What the loop has found so far. -/
structure Findings where
  flags : Flag → Bool := fun _ => false
  correlations : List Correlation := []

/-- One turn of the loop. -/
def inspect (lower : String → String) (findings : Findings) (ev : EvidenceRecord) : Findings where
  flags := fun k => findings.flags k || hit lower ev k
  correlations := findings.correlations ++
    (Flag.all.filter (hit lower ev)).map fun k =>
      { indicator := k.indicator, evidenceId := ev.evidenceId, detail := ev.description }

/-- The loop. -/
def findings (lower : String → String) (evidences : List EvidenceRecord) : Findings :=
  evidences.foldl (inspect lower) {}

theorem flags_foldl_inspect (lower : String → String) (evidences : List EvidenceRecord)
    (start : Findings) (k : Flag) :
    (evidences.foldl (inspect lower) start).flags k =
      (start.flags k || evidences.any fun ev => hit lower ev k) := by
  induction evidences generalizing start with
  | nil => simp
  | cons ev evidences ih => rw [List.foldl_cons, ih, List.any_cons, inspect, Bool.or_assoc]

/-- **A flag is set** exactly if some item hits it. -/
theorem flags_findings (lower : String → String) (evidences : List EvidenceRecord) (k : Flag) :
    (findings lower evidences).flags k = evidences.any fun ev => hit lower ev k := by
  rw [findings, flags_foldl_inspect, Bool.false_or]

/-! ## Brand and behaviour -/

/-- What the two detectors add to the loop. -/
structure Synthesized where
  detected : Bool := false
  correlations : List Correlation := []
  evidences : List EvidenceRecord := []

/-- `s.title()`, for a text of ASCII characters. -/
def asciiTitleFrom : Bool → List Char → List Char
  | _, [] => []
  | afterLetter, c :: cs =>
    (if afterLetter then c.toLower else c.toUpper) :: asciiTitleFrom c.isAlpha cs

/-- `s.replace(a, b)`, for two characters. -/
def replaceChar (a b : Char) (s : String) : String :=
  String.ofList (s.toList.map fun c => if c = a then b else c)

/-- The check of `BrandService`. -/
def brandFindings (env : ReasoningEnv) (email : EmailInput) : Synthesized :=
  -- the display name that is checked is the subject
  match analyzeSender env.sets env.library email.header.subject email.header.sender with
  | some found =>
    let evId := "ev_brand_" ++ replaceChar ' ' '_' (env.library.lower found.matchedBrand)
    -- no check reports a confidence
    let confidence : ℚ := 9 / 10
    {
      detected := true
      correlations :=
        [{ indicator := "Brand Impersonation Detected", evidenceId := evId, detail := found.reason }]
      evidences :=
        [{
          category := "sender.impersonation"
          title := "Brand Impersonation (" ++ found.matchedBrand ++ ")"
          description := found.reason
          severity := if 4 / 5 ≤ confidence then .critical else .high
          source := "security_intelligence.brand"
          confidence := some confidence
          evidenceId := evId
          metadata := Dict.ofList [("brand", .str found.matchedBrand)]
        }]
    }
  | none => {}

/-- The evidence of a tactic. -/
def tacticEvidence (riskIndicators : List String) (tactic : String) : EvidenceRecord where
  category := "behavior.social_engineering"
  title := "Social Engineering (" ++
    String.ofList (asciiTitleFrom false (replaceChar '_' ' ' tactic).toList) ++ ")"
  description := "Behavioral threat detection matched risk indicators: " ++
    String.intercalate ", " riskIndicators
  severity := if tactic ∈ ["credential_harvesting", "urgency_manipulation"] then .critical else .high
  source := "security_intelligence.behavior"
  confidence := some (17 / 20)
  evidenceId := "ev_behav_" ++ tactic
  metadata := Dict.ofList
    [("tactic", .str tactic), ("indicators", .arr (riskIndicators.map .str))]

/-- The check of `BehaviorAnalyzer`. -/
def behaviorFindings (env : ReasoningEnv) (email : EmailInput) : Synthesized :=
  let report := analyzeText env.sets env.library.lower email.bodyText
  if report.socialEngineeringDetected then
    {
      detected := true
      correlations := report.detectedTactics.map fun tactic =>
        {
          indicator := "Social Engineering (" ++ tactic ++ ")"
          evidenceId := "ev_behav_" ++ tactic
          detail := "Matched risk indicators: " ++ String.intercalate ", " report.riskIndicators
        }
      evidences := report.detectedTactics.map (tacticEvidence report.riskIndicators)
    }
  else {}

/-! ## The cascade -/

inductive RiskLevel
  | low | medium | high | critical
  deriving DecidableEq, Repr

namespace RiskLevel

def value : RiskLevel → String
  | low => "low"
  | medium => "medium"
  | high => "high"
  | critical => "critical"

def rank : RiskLevel → ℕ
  | low => 0
  | medium => 1
  | high => 2
  | critical => 3

theorem rank_injective : Function.Injective rank := by
  intro a b h
  cases a <;> cases b <;> first | rfl | cases h

instance : LinearOrder RiskLevel := LinearOrder.lift' rank rank_injective

theorem le_critical (level : RiskLevel) : level ≤ critical := by
  cases level <;> decide

end RiskLevel

/-- All that the risk level is computed from. -/
structure Signals where
  criticalCount : ℕ
  highCount : ℕ
  mediumCount : ℕ
  flags : Flag → Bool
  impersonation : Bool
  socialEng : Bool

namespace Signals

/-- The condition of the first branch. -/
def isCritical (s : Signals) : Bool :=
  0 < s.criticalCount || 2 ≤ s.highCount ||
    (s.flags .spfFail && s.flags .maliciousUrl && s.flags .suspiciousAttachment) ||
    (s.impersonation && s.socialEng)

/-- The condition of the second branch. -/
def isHigh (s : Signals) : Bool :=
  0 < s.highCount || (s.flags .spfFail && s.flags .maliciousUrl) ||
    s.flags .suspiciousAttachment || s.flags .threatIntelligenceMatch || s.impersonation ||
    s.socialEng

/-- The condition of the third branch. -/
def isMedium (s : Signals) : Bool :=
  0 < s.mediumCount || s.flags .senderAnomaly || s.flags .spfFail || s.flags .dkimFail

end Signals

/-- What a branch of the cascade sets. -/
structure Assessment where
  riskLevel : RiskLevel
  summary : String
  recommendedAction : String
  confidence : ℚ

/-- The cascade. -/
def assess (s : Signals) (hasAttachments : Bool) : Assessment :=
  if s.isCritical then
    {
      riskLevel := .critical
      summary := "Critical security threat detected. High likelihood of active phishing, BEC or " ++
        "malware campaign."
      recommendedAction :=
        if hasAttachments then
          "Block email delivery, quarantine attachment, and flag sender domain."
        else "Block email delivery, flag sender domain, and restrict sender IP access."
      confidence := if 0 < s.criticalCount then 95 / 100 else 88 / 100
    }
  else if s.isHigh then
    {
      riskLevel := .high
      summary := "High risk security indicators observed. Potential phishing or impersonation " ++
        "attempt."
      recommendedAction := "Quarantine email for analyst review and display warning badge."
      confidence := 85 / 100
    }
  else if s.isMedium then
    {
      riskLevel := .medium
      summary := "Moderate risk indicators observed. Minor sender validation issues or " ++
        "unverified URLs."
      recommendedAction := "Deliver with external warning banner and safety tips."
      confidence := 75 / 100
    }
  else
    {
      riskLevel := .low
      summary := "No significant risk indicators observed. Email authentication checks passed."
      recommendedAction := "Deliver normally to inbox."
      confidence := 90 / 100
    }

/-- The adjustment for the number of correlations. -/
def Assessment.adjustDensity (a : Assessment) (correlationCount : ℕ) : Assessment :=
  if 1 < correlationCount then
    { a with confidence := min (99 / 100) (a.confidence + correlationCount * (2 / 100)) }
  else a

/-- A repeated campaign raises a low risk. -/
def Assessment.raiseForCampaign (a : Assessment) (ctx : HistoricalContext) : Assessment :=
  if ctx.hasCampaignMatch ∧ a.riskLevel = .low then
    {
      riskLevel := .medium
      summary := "Moderate risk indicators observed. Multiple high-similarity historical " ++
        "phishing investigations indicate a possible campaign."
      recommendedAction := "Quarantine email for analyst review and display warning badge."
      confidence := 75 / 100
    }
  else a

/-- Matches of phishing investigations add to the confidence. -/
def Assessment.addAdjustment (a : Assessment) (ctx : HistoricalContext) : Assessment :=
  if ctx.confidenceAdjustment ≠ 0 then
    { a with confidence := min (99 / 100) (a.confidence + ctx.confidenceAdjustment) }
  else a

/-- The investigations to review. -/
def Assessment.addReview (a : Assessment) (ctx : HistoricalContext) : Assessment :=
  if ctx.investigationIds.isEmpty then a
  else
    { a with
      recommendedAction := a.recommendedAction ++ " Review matching historical investigations: " ++
        String.intercalate ", " ctx.investigationIds ++ "." }

/-- The adjustments for the historical context. -/
def Assessment.adjustHistory (a : Assessment) (ctx : HistoricalContext) : Assessment :=
  ((a.raiseForCampaign ctx).addAdjustment ctx).addReview ctx

section Cascade

variable {s t : Signals}

/-- `t` has at least the signals of `s`. -/
structure Signals.Le (s t : Signals) : Prop where
  criticalCount : s.criticalCount ≤ t.criticalCount
  highCount : s.highCount ≤ t.highCount
  mediumCount : s.mediumCount ≤ t.mediumCount
  flags : ∀ k, s.flags k = true → t.flags k = true
  impersonation : s.impersonation = true → t.impersonation = true
  socialEng : s.socialEng = true → t.socialEng = true

theorem Signals.Le.isCritical (h : s.Le t) (hs : s.isCritical = true) : t.isCritical = true := by
  simp only [Signals.isCritical, Bool.or_eq_true, Bool.and_eq_true, decide_eq_true_eq] at hs ⊢
  rcases hs with ((hcount | hcount) | ⟨⟨hspf, hurl⟩, hattachment⟩) | ⟨himp, hsoc⟩
  · exact .inl (.inl (.inl (hcount.trans_le h.criticalCount)))
  · exact .inl (.inl (.inr (hcount.trans h.highCount)))
  · exact .inl (.inr ⟨⟨h.flags _ hspf, h.flags _ hurl⟩, h.flags _ hattachment⟩)
  · exact .inr ⟨h.impersonation himp, h.socialEng hsoc⟩

theorem Signals.Le.isHigh (h : s.Le t) (hs : s.isHigh = true) : t.isHigh = true := by
  simp only [Signals.isHigh, Bool.or_eq_true, Bool.and_eq_true, decide_eq_true_eq] at hs ⊢
  rcases hs with ((((hcount | ⟨hspf, hurl⟩) | hattachment) | hthreat) | himp) | hsoc
  · exact .inl (.inl (.inl (.inl (.inl (hcount.trans_le h.highCount)))))
  · exact .inl (.inl (.inl (.inl (.inr ⟨h.flags _ hspf, h.flags _ hurl⟩))))
  · exact .inl (.inl (.inl (.inr (h.flags _ hattachment))))
  · exact .inl (.inl (.inr (h.flags _ hthreat)))
  · exact .inl (.inr (h.impersonation himp))
  · exact .inr (h.socialEng hsoc)

theorem Signals.Le.isMedium (h : s.Le t) (hs : s.isMedium = true) : t.isMedium = true := by
  simp only [Signals.isMedium, Bool.or_eq_true, decide_eq_true_eq] at hs ⊢
  rcases hs with ((hcount | hsender) | hspf) | hdkim
  · exact .inl (.inl (.inl (hcount.trans_le h.mediumCount)))
  · exact .inl (.inl (.inr (h.flags _ hsender)))
  · exact .inl (.inr (h.flags _ hspf))
  · exact .inr (h.flags _ hdkim)

theorem riskLevel_assess (s : Signals) (hasAttachments : Bool) :
    (assess s hasAttachments).riskLevel =
      if s.isCritical then .critical else if s.isHigh then .high
      else if s.isMedium then .medium else .low := by
  unfold assess
  split_ifs <;> rfl

/-- A chain of branches whose conditions only become true does not go down. -/
theorem cascade_mono {c h m c' h' m' : Bool} (hc : c = true → c' = true) (hh : h = true → h' = true)
    (hm : m = true → m' = true) :
    (if c then RiskLevel.critical else if h then .high else if m then .medium else .low) ≤
      if c' then .critical else if h' then .high else if m' then .medium else .low := by
  revert c h m c' h' m'
  decide

/-- **More signals never lower the level.** -/
theorem riskLevel_mono (h : s.Le t) (hasAttachments : Bool) :
    (assess s hasAttachments).riskLevel ≤ (assess t hasAttachments).riskLevel := by
  rw [riskLevel_assess, riskLevel_assess]
  exact cascade_mono h.isCritical h.isHigh h.isMedium

theorem confidence_assess (s : Signals) (hasAttachments : Bool) :
    3 / 4 ≤ (assess s hasAttachments).confidence ∧
      (assess s hasAttachments).confidence ≤ 99 / 100 := by
  unfold assess
  split_ifs <;> norm_num

end Cascade

section Adjustments

variable {a : Assessment} {ctx : HistoricalContext}

theorem riskLevel_adjustDensity (a : Assessment) (n : ℕ) :
    (a.adjustDensity n).riskLevel = a.riskLevel := by
  unfold Assessment.adjustDensity
  split_ifs <;> rfl

theorem addReview_eq (a : Assessment) (ctx : HistoricalContext) :
    (a.addReview ctx).riskLevel = a.riskLevel ∧ (a.addReview ctx).confidence = a.confidence := by
  unfold Assessment.addReview
  split_ifs <;> exact ⟨rfl, rfl⟩

theorem riskLevel_addAdjustment (a : Assessment) (ctx : HistoricalContext) :
    (a.addAdjustment ctx).riskLevel = a.riskLevel := by
  unfold Assessment.addAdjustment
  split_ifs <;> rfl

theorem riskLevel_adjustHistory (a : Assessment) (ctx : HistoricalContext) :
    (a.adjustHistory ctx).riskLevel =
      if ctx.hasCampaignMatch ∧ a.riskLevel = .low then .medium else a.riskLevel := by
  rw [Assessment.adjustHistory, (addReview_eq _ _).1, riskLevel_addAdjustment,
    Assessment.raiseForCampaign]
  split_ifs <;> rfl

/-- Raising a low level to medium keeps the order. -/
theorem raised_mono (campaign : Bool) {level level' : RiskLevel} (h : level ≤ level') :
    (if campaign ∧ level = .low then RiskLevel.medium else level) ≤
      if campaign ∧ level' = .low then .medium else level' := by
  cases campaign <;> cases level <;> cases level' <;> revert h <;> decide

/-- A capped increase stays between the bounds. -/
theorem capped_mem {x d : ℚ} (hd : 0 ≤ d) (hx : 3 / 4 ≤ x) :
    3 / 4 ≤ min (99 / 100) (x + d) ∧ min (99 / 100) (x + d) ≤ 99 / 100 :=
  ⟨le_min (by norm_num) (by linarith), min_le_left _ _⟩

theorem confidence_adjustDensity (h : 3 / 4 ≤ a.confidence ∧ a.confidence ≤ 99 / 100) (n : ℕ) :
    3 / 4 ≤ (a.adjustDensity n).confidence ∧ (a.adjustDensity n).confidence ≤ 99 / 100 := by
  unfold Assessment.adjustDensity
  split_ifs
  · exact capped_mem (by positivity) h.1
  · exact h

/-- The adjustment is added, up to 0.99. -/
theorem confidence_addAdjustment (h : a.confidence ≤ 99 / 100) (ctx : HistoricalContext) :
    (a.addAdjustment ctx).confidence = min (99 / 100) (a.confidence + ctx.confidenceAdjustment) := by
  unfold Assessment.addAdjustment
  split_ifs with hadjust
  · rfl
  · rw [not_not.1 hadjust, add_zero, min_eq_right h]

theorem confidence_raiseForCampaign (h : 3 / 4 ≤ a.confidence ∧ a.confidence ≤ 99 / 100)
    (ctx : HistoricalContext) :
    3 / 4 ≤ (a.raiseForCampaign ctx).confidence ∧
      (a.raiseForCampaign ctx).confidence ≤ 99 / 100 := by
  unfold Assessment.raiseForCampaign
  split_ifs
  · norm_num
  · exact h

theorem confidence_adjustHistory (h : 3 / 4 ≤ a.confidence ∧ a.confidence ≤ 99 / 100)
    (ctx : HistoricalContext) :
    (a.adjustHistory ctx).confidence =
      min (99 / 100) ((a.raiseForCampaign ctx).confidence + ctx.confidenceAdjustment) := by
  rw [Assessment.adjustHistory, (addReview_eq _ _).2,
    confidence_addAdjustment (confidence_raiseForCampaign h ctx).2]

/-- **An adjustment that does not raise the level** moves the confidence by its own size at most. -/
theorem abs_confidence_adjustHistory_le (h : 3 / 4 ≤ a.confidence ∧ a.confidence ≤ 99 / 100)
    (hctx : 0 ≤ ctx.confidenceAdjustment)
    (hlevel : ¬a.riskLevel < (a.adjustHistory ctx).riskLevel) :
    |(a.adjustHistory ctx).confidence - a.confidence| ≤ ctx.confidenceAdjustment := by
  have hraise : ¬(ctx.hasCampaignMatch = true ∧ a.riskLevel = .low) := by
    intro hraise
    rw [riskLevel_adjustHistory, if_pos hraise, hraise.2] at hlevel
    exact hlevel (by decide)
  rw [confidence_adjustHistory h, Assessment.raiseForCampaign, if_neg hraise, abs_le]
  constructor
  · linarith [le_min h.2 (le_add_of_nonneg_right hctx : a.confidence ≤ _)]
  · linarith [min_le_right (99 / 100) (a.confidence + ctx.confidenceAdjustment)]

end Adjustments

/-! ## The verdict -/

/-- `ReasoningOutput`. -/
structure ReasoningOutput where
  summary : String
  confidence : ℚ
  riskLevel : RiskLevel
  evidenceCorrelation : List Correlation
  recommendedAction : String
  securityExplanation : String
  analystNotes : String
  riskScore : ℚ
  scoreBreakdown : List Contribution

/-- The parts of the security explanation. -/
def explanationParts (s : Signals) (ctx : HistoricalContext) : List String :=
  (if s.flags .spfFail || s.flags .dkimFail || s.flags .dmarcFail then
    ["email authentication failures (SPF/DKIM/DMARC)"] else []) ++
  (if s.flags .maliciousUrl then
    ["suspicious hyperlinks/URLs matching phishing profiles"] else []) ++
  (if s.flags .suspiciousAttachment then
    ["potentially dangerous attachment types or metadata structures"] else []) ++
  (if s.flags .senderAnomaly then
    ["inconsistencies in the sender headers or display names"] else []) ++
  (if s.impersonation then ["brand impersonation indicators"] else []) ++
  (if s.socialEng then ["social engineering or urgent language tactics"] else []) ++
  ctx.explanationParts ++
  (if s.flags .threatIntelligenceMatch then
    ["external threat-intelligence provider matches"] else []) ++
  (if s.flags .campaignCorrelation then ["tenant campaign correlation evidence"] else [])

/-- The security explanation. -/
def securityExplanation (riskLevel : RiskLevel) (parts : List String) : String :=
  if !parts.isEmpty then
    "This email was classified as " ++ riskLevel.value ++ " risk because of: " ++
      String.intercalate ", " parts ++ "."
  else if riskLevel = .low then
    "This email was classified as low risk because all core integrity and safety checks passed " ++
      "successfully."
  else
    "This email was classified as " ++ riskLevel.value ++
      " risk based on automated threat assessment."

section Reason

variable (env : ReasoningEnv)

/-- What the brand check gives. -/
def brandPart (parsedEmail : Option EmailInput) : Synthesized :=
  (parsedEmail.map (brandFindings env)).getD {}

/-- What the behaviour check gives. -/
def behaviorPart (parsedEmail : Option EmailInput) : Synthesized :=
  (parsedEmail.map (behaviorFindings env)).getD {}

/-- The signals of an investigation. -/
def signalsOf (parsedEmail : Option EmailInput) (evidences : List EvidenceRecord) : Signals where
  criticalCount := evidences.countP (·.severity = .critical)
  highCount := evidences.countP (·.severity = .high)
  mediumCount := evidences.countP (·.severity = .medium)
  flags := (findings env.library.lower evidences).flags
  impersonation := (brandPart env parsedEmail).detected
  socialEng := (behaviorPart env parsedEmail).detected

/-- The correlations of the e-mail itself. -/
def currentCorrelations (parsedEmail : Option EmailInput) (evidences : List EvidenceRecord) :
    List Correlation :=
  (findings env.library.lower evidences).correlations ++ (brandPart env parsedEmail).correlations ++
    (behaviorPart env parsedEmail).correlations

/-- The assessment before the historical context has its say. -/
def currentAssessment (parsedEmail : Option EmailInput) (evidences : List EvidenceRecord) :
    Assessment :=
  (assess (signalsOf env parsedEmail evidences)
    (parsedEmail.any fun email => !email.attachments.isEmpty)).adjustDensity
      (currentCorrelations env parsedEmail evidences).length

/-- `reason`, for the e-mail and the evidence of an agent state. -/
def reason (parsedEmail : Option EmailInput) (evidences : List EvidenceRecord)
    (retriever : Option Retriever) : ReasoningOutput :=
  let ctx := historicalContext env parsedEmail retriever
  let verdict := (currentAssessment env parsedEmail evidences).adjustHistory ctx
  let correlations := currentCorrelations env parsedEmail evidences ++ ctx.correlations
  let synthesized := (brandPart env parsedEmail).evidences ++ (behaviorPart env parsedEmail).evidences
  let weighted := env.riskScoring.score env.casefold (evidences ++ synthesized)
  {
    summary := verdict.summary
    confidence := verdict.confidence
    riskLevel := verdict.riskLevel
    evidenceCorrelation := correlations
    recommendedAction := verdict.recommendedAction
    securityExplanation := securityExplanation verdict.riskLevel
      (explanationParts (signalsOf env parsedEmail evidences) ctx)
    analystNotes := String.intercalate "\n"
      (["Verdict: " ++ Text.asciiUpper verdict.riskLevel.value ++ " RISK (Confidence: " ++
          formatFixed 1 (verdict.confidence * 100) ++ "%)",
        "Total evidence items analyzed: " ++ toString evidences.length,
        "Correlated indicators: " ++ toString correlations.length] ++
        correlations.map fun corr => "- " ++ corr.indicator ++ ": " ++ corr.detail)
    riskScore := weighted.score
    scoreBreakdown := weighted.breakdown
  }

variable {env} {parsedEmail : Option EmailInput} {retriever : Option Retriever}

/-- **More evidence** gives more signals, wherever it is added. -/
theorem signalsOf_le {evidences evidences' : List EvidenceRecord} (h : evidences.Subperm evidences') :
    (signalsOf env parsedEmail evidences).Le (signalsOf env parsedEmail evidences') where
  criticalCount := h.countP_le _
  highCount := h.countP_le _
  mediumCount := h.countP_le _
  flags := by
    intro k hk
    obtain ⟨ev, hev, hhit⟩ := List.any_eq_true.1 ((flags_findings _ _ k).symm.trans hk)
    exact (flags_findings _ _ k).trans (List.any_eq_true.2 ⟨ev, h.subset hev, hhit⟩)
  impersonation := id
  socialEng := id

theorem riskLevel_currentAssessment (evidences : List EvidenceRecord) :
    (currentAssessment env parsedEmail evidences).riskLevel =
      (assess (signalsOf env parsedEmail evidences)
        (parsedEmail.any fun email => !email.attachments.isEmpty)).riskLevel :=
  riskLevel_adjustDensity _ _

theorem confidence_currentAssessment (evidences : List EvidenceRecord) :
    3 / 4 ≤ (currentAssessment env parsedEmail evidences).confidence ∧
      (currentAssessment env parsedEmail evidences).confidence ≤ 99 / 100 :=
  confidence_adjustDensity (confidence_assess _ _) _

theorem riskLevel_reason (evidences : List EvidenceRecord) :
    (reason env parsedEmail evidences retriever).riskLevel =
      if (historicalContext env parsedEmail retriever).hasCampaignMatch ∧
          (currentAssessment env parsedEmail evidences).riskLevel = .low then .medium
      else (currentAssessment env parsedEmail evidences).riskLevel :=
  riskLevel_adjustHistory _ _

/-- **Evidence that is added** does not lower the level. -/
theorem riskLevel_reason_mono {evidences evidences' : List EvidenceRecord}
    (h : evidences.Subperm evidences') :
    (reason env parsedEmail evidences retriever).riskLevel ≤
      (reason env parsedEmail evidences' retriever).riskLevel := by
  have hcurrent : (currentAssessment env parsedEmail evidences).riskLevel ≤
      (currentAssessment env parsedEmail evidences').riskLevel := by
    rw [riskLevel_currentAssessment, riskLevel_currentAssessment]
    exact riskLevel_mono (signalsOf_le h) _
  rw [riskLevel_reason, riskLevel_reason]
  exact raised_mono _ hcurrent

theorem confidence_reason (evidences : List EvidenceRecord) :
    (reason env parsedEmail evidences retriever).confidence =
      ((currentAssessment env parsedEmail evidences).adjustHistory
        (historicalContext env parsedEmail retriever)).confidence := rfl

/-- Without a retriever, the current assessment is the verdict. -/
theorem confidence_reason_none (evidences : List EvidenceRecord) :
    (reason env parsedEmail evidences none).confidence =
      (currentAssessment env parsedEmail evidences).confidence := by
  have hctx : historicalContext env parsedEmail none = {} := rfl
  rw [confidence_reason, hctx]
  rfl

theorem riskLevel_reason_none (evidences : List EvidenceRecord) :
    (reason env parsedEmail evidences none).riskLevel =
      (currentAssessment env parsedEmail evidences).riskLevel := by
  rw [riskLevel_reason]
  exact if_neg fun h => Bool.noConfusion h.1

/-- **Reasoning is monotone.**  The risk level is the same for every order of the evidence, and
evidence that is added never lowers it; the confidence lies in `(0, 0.99]`; historical matches move
it by at most 0.09 if they do not raise the level, and not at all if they conflict. -/
theorem reason_monotone (env : ReasoningEnv) (parsedEmail : Option EmailInput)
    (evidences : List EvidenceRecord) (retriever : Option Retriever) :
    (∀ evidences', evidences.Perm evidences' →
      (reason env parsedEmail evidences' retriever).riskLevel =
        (reason env parsedEmail evidences retriever).riskLevel) ∧
    (∀ evidences', evidences.Subperm evidences' →
      (reason env parsedEmail evidences retriever).riskLevel ≤
        (reason env parsedEmail evidences' retriever).riskLevel) ∧
    (0 < (reason env parsedEmail evidences retriever).confidence ∧
      (reason env parsedEmail evidences retriever).confidence ≤ 99 / 100) ∧
    (¬(reason env parsedEmail evidences none).riskLevel <
        (reason env parsedEmail evidences retriever).riskLevel →
      |(reason env parsedEmail evidences retriever).confidence -
        (reason env parsedEmail evidences none).confidence| ≤ 9 / 100) ∧
    ∀ find email, retriever = some find → parsedEmail = some email →
      Conflict env (find.answer email) →
      (reason env parsedEmail evidences retriever).confidence =
        (reason env parsedEmail evidences none).confidence := by
  have hcurrent := @confidence_currentAssessment env parsedEmail evidences
  have hctx := @historicalContext_mem env parsedEmail retriever
  refine ⟨?_, fun _ h => riskLevel_reason_mono h, ?_, ?_, ?_⟩
  · intro evidences' h
    exact le_antisymm (riskLevel_reason_mono h.symm.subperm) (riskLevel_reason_mono h.subperm)
  · have hraised := confidence_raiseForCampaign hcurrent
      (historicalContext env parsedEmail retriever)
    have hmem := capped_mem hctx.1 hraised.1
    have hconf := confidence_adjustHistory hcurrent (historicalContext env parsedEmail retriever)
    rw [confidence_reason, hconf]
    exact ⟨by linarith [hmem.1], hmem.2⟩
  · intro hlevel
    rw [riskLevel_reason_none] at hlevel
    rw [confidence_reason_none, confidence_reason]
    exact (abs_confidence_adjustHistory_le hcurrent hctx.1 hlevel).trans hctx.2
  · rintro find email rfl rfl hconflict
    have hnone := @contextOf_of_conflict env email _ hconflict
    have hctx : historicalContext env (some email) (some find) =
        contextOf env email (find.answer email) := rfl
    rw [confidence_reason_none, confidence_reason, confidence_adjustHistory hcurrent,
      Assessment.raiseForCampaign, hctx, hnone.1, hnone.2,
      if_neg fun h => Bool.noConfusion h.1, add_zero, min_eq_right hcurrent.2]

end Reason

/-! ## A run -/

/-- An environment for texts of ASCII characters and addresses at second-level domains. -/
def asciiEnv : ReasoningEnv where
  sets := .dedup
  library := {
    lower := Text.asciiLower
    extractDomain := fun domain => String.ofList (domain.toList.takeWhile (· ≠ '.'))
    decodeIdna := fun _ => none
  }
  casefold := Text.asciiLower
  riskScoring := defaultEngine

/-- An e-mail. -/
def noteEmail : EmailInput where
  header := {
    messageId := "1"
    sender := "ann@example.com"
    subject := "Notes"
    messageId_fits := by decide
    sender_fits := by decide
    subject_fits := by decide
  }
  bodyText := "See you."
  attachments := []
  bodyText_fits := by decide

/-- An investigation like it. -/
def pastCase (memoryId classification riskLevel : String) : InvestigationMatch where
  memoryId := memoryId
  similarityScore := 9 / 10
  classification := classification
  riskLevel := riskLevel
  sender := "bob@example.com"
  subject := "Notes"
  summary := ""

/-- Two items in either order, one of them alone, a supporting match and two that conflict. -/
theorem reason_monotone_note :
    (reason asciiEnv none [bareItem "url" .critical, bareItem "spf" .low] none).riskLevel =
        (reason asciiEnv none [bareItem "spf" .low, bareItem "url" .critical] none).riskLevel ∧
      (reason asciiEnv none [bareItem "spf" .low] none).riskLevel ≤
        (reason asciiEnv none [bareItem "url" .critical, bareItem "spf" .low] none).riskLevel ∧
      |(reason asciiEnv (some noteEmail) [bareItem "url" .critical]
          (some fun _ _ _ => [pastCase "m1" "phishing" "high"])).confidence -
        (reason asciiEnv (some noteEmail) [bareItem "url" .critical] none).confidence| ≤ 9 / 100 ∧
      (reason asciiEnv (some noteEmail) []
          (some fun _ _ _ => [pastCase "m1" "phishing" "high", pastCase "m2" "safe" "low"])).confidence =
        (reason asciiEnv (some noteEmail) [] none).confidence := by
  refine ⟨?_, ?_, ?_, ?_⟩
  · exact (reason_monotone asciiEnv none _ none).1 _ (List.Perm.swap ..)
  · exact (reason_monotone asciiEnv none _ none).2.1 _ (List.sublist_cons_self ..).subperm
  · refine (reason_monotone asciiEnv (some noteEmail) _ _).2.2.2.1 ?_
    have hcritical : (reason asciiEnv (some noteEmail) [bareItem "url" .critical] none).riskLevel =
        .critical := by
      rw [riskLevel_reason_none, riskLevel_currentAssessment, riskLevel_assess, if_pos]
      simp [Signals.isCritical, signalsOf, bareItem]
    rw [hcritical]
    exact not_lt.2 (RiskLevel.le_critical _)
  · refine (reason_monotone asciiEnv (some noteEmail) _ _).2.2.2.2 _ _ rfl rfl ?_
    refine ⟨⟨pastCase "m1" "phishing" "high", by simp [Retriever.answer], ?_, by decide⟩,
      pastCase "m2" "safe" "low", by simp [Retriever.answer], ?_, by decide, by decide⟩ <;>
    norm_num [pastCase]

end ScamOn.Planner
