import ScamOn.Planner.Reasoning

/-!
# What a low verdict says

A low verdict carries the summary "No significant risk indicators observed. Email authentication
checks passed."  The cascade reads its indicators one by one, and three of them in no branch that
a single indicator reaches: a DMARC failure, a suspicious link, and a campaign correlation.

* `Quiet` is what the summary promises: no flag, no impersonation, no social engineering, no
  campaign in memory, and no correlation that stems from the e-mail itself.
* `riskLevel_reason_eq_low` says when the level is low.
* `low_quiet_iff` is the exact condition under which a low verdict keeps the promise: an item with
  one of the three indicators comes with an item or a finding that raises the level.
-/

namespace ScamOn.Planner

open SecurityIntelligence

/-! ## What raises a level -/

/-- The indicators that no branch of the cascade takes alone. -/
def Flag.overlooked : Flag → Bool
  | .dmarcFail | .maliciousUrl | .campaignCorrelation => true
  | _ => false

/-- An item that raises the level by its severity or by an indicator. -/
def Raises (lower : String → String) (ev : EvidenceRecord) : Prop :=
  ev.severity ∈ [.medium, .high, .critical] ∨
    ∃ k, Flag.overlooked k = false ∧ hit lower ev k = true

/-- At least two high-similarity phishing investigations, and none that contradicts them. -/
def Campaign (env : ReasoningEnv) (found : List InvestigationMatch) : Prop :=
  2 ≤ found.countP (fun m => 4 / 5 ≤ m.similarityScore && m.isPhishing env) ∧ ¬Conflict env found

/-- The memory of past investigations knows a campaign. -/
def MemoryCampaign (env : ReasoningEnv) (parsedEmail : Option EmailInput)
    (retriever : Option Retriever) : Prop :=
  ∃ find email, retriever = some find ∧ parsedEmail = some email ∧ Campaign env (find.answer email)

/-- The e-mail imitates a brand. -/
def ImitatesBrand (env : ReasoningEnv) (parsedEmail : Option EmailInput) : Prop :=
  ∃ email, parsedEmail = some email ∧
    (analyzeSender env.sets env.library email.header.subject email.header.sender).isSome = true

/-- The body puts pressure on its reader. -/
def PressesReader (env : ReasoningEnv) (parsedEmail : Option EmailInput) : Prop :=
  ∃ email, parsedEmail = some email ∧
    (analyzeText env.sets env.library.lower email.bodyText).socialEngineeringDetected = true

/-! ## The detectors, read from the inputs -/

section Detectors

variable {env : ReasoningEnv} {parsedEmail : Option EmailInput} {retriever : Option Retriever}

theorem detected_brandPart :
    (brandPart env parsedEmail).detected = true ↔ ImitatesBrand env parsedEmail := by
  cases parsedEmail with
  | none => exact ⟨fun h => Bool.noConfusion h, fun ⟨_, h, _⟩ => nomatch h⟩
  | some email =>
    have hpart : (brandPart env (some email)).detected =
        (analyzeSender env.sets env.library email.header.subject email.header.sender).isSome := by
      simp only [brandPart, Option.map_some, Option.getD_some, brandFindings]
      cases analyzeSender env.sets env.library email.header.subject email.header.sender <;> rfl
    rw [hpart]
    exact ⟨fun h => ⟨email, rfl, h⟩, fun ⟨_, heq, h⟩ => by cases heq; exact h⟩

theorem detected_behaviorPart :
    (behaviorPart env parsedEmail).detected = true ↔ PressesReader env parsedEmail := by
  cases parsedEmail with
  | none => exact ⟨fun h => Bool.noConfusion h, fun ⟨_, h, _⟩ => nomatch h⟩
  | some email =>
    have hpart : (behaviorPart env (some email)).detected =
        (analyzeText env.sets env.library.lower email.bodyText).socialEngineeringDetected := by
      simp only [behaviorPart, Option.map_some, Option.getD_some, behaviorFindings]
      split_ifs with h
      · exact h.symm
      · exact (Bool.eq_false_iff.2 h).symm
    rw [hpart]
    exact ⟨fun h => ⟨email, rfl, h⟩, fun ⟨_, heq, h⟩ => by cases heq; exact h⟩

/-- A detector that found nothing has nothing to correlate. -/
theorem correlations_brandPart (h : (brandPart env parsedEmail).detected = false) :
    (brandPart env parsedEmail).correlations = [] := by
  cases parsedEmail with
  | none => rfl
  | some email =>
    simp only [brandPart, Option.map_some, Option.getD_some, brandFindings] at h ⊢
    split at h
    · exact Bool.noConfusion h
    · rfl

theorem correlations_behaviorPart (h : (behaviorPart env parsedEmail).detected = false) :
    (behaviorPart env parsedEmail).correlations = [] := by
  cases parsedEmail with
  | none => rfl
  | some email =>
    simp only [behaviorPart, Option.map_some, Option.getD_some, behaviorFindings] at h ⊢
    split_ifs at h ⊢
    rfl

theorem correlations_foldl_inspect {lower : String → String} {evidences : List EvidenceRecord}
    (hquiet : ∀ ev ∈ evidences, ∀ k, hit lower ev k = false) (start : Findings) :
    (evidences.foldl (inspect lower) start).correlations = start.correlations := by
  induction evidences generalizing start with
  | nil => rfl
  | cons ev evidences ih =>
    have hnone : Flag.all.filter (hit lower ev) = [] :=
      List.filter_eq_nil_iff.2 fun k _ => by simp [hquiet ev List.mem_cons_self k]
    rw [List.foldl_cons, ih fun ev' hev' => hquiet ev' (List.mem_cons_of_mem _ hev'), inspect,
      hnone, List.map_nil, List.append_nil]

theorem length_supportingMatches (found : List InvestigationMatch) :
    (supportingMatches env found).length =
      found.countP fun m => 4 / 5 ≤ m.similarityScore && m.isPhishing env := by
  rw [supportingMatches, ← List.countP_eq_length_filter, highSimilarityMatches,
    (List.mergeSort_perm _ _).countP_eq, List.countP_filter]
  exact congrArg (fun p => List.countP p found) (funext fun m => Bool.and_comm ..)

theorem supporting_ne_nil {found : List InvestigationMatch} :
    ((supportingMatches env found).map InvestigationMatch.memoryId).isEmpty = false ↔
      ∃ m ∈ found, 4 / 5 ≤ m.similarityScore ∧ m.isPhishing env = true := by
  simp [supportingMatches, mem_highSimilarityMatches]

theorem conflicting_ne_nil {found : List InvestigationMatch} :
    ((conflictingMatches env found).map InvestigationMatch.memoryId).isEmpty = false ↔
      ∃ m ∈ found, 4 / 5 ≤ m.similarityScore ∧ m.isPhishing env = false ∧
        m.isConflicting env = true := by
  simp [conflictingMatches, mem_highSimilarityMatches]

theorem hasCampaignMatch_contextOf (email : EmailInput) (found : List InvestigationMatch) :
    (contextOf env email found).hasCampaignMatch = true ↔ Campaign env found := by
  rw [contextOf, Campaign, ← length_supportingMatches, Conflict, ← supporting_ne_nil,
    ← conflicting_ne_nil]
  by_cases hnone : (highSimilarityMatches found).isEmpty = true
  · have hlength : (supportingMatches env found).length = 0 := by
      rw [supportingMatches, List.isEmpty_iff.1 hnone]
      rfl
    rw [if_pos hnone, hlength]
    exact ⟨fun h => Bool.noConfusion h, fun h => absurd h.1 (by decide)⟩
  · rw [if_neg hnone]
    simp only [Bool.and_eq_true, decide_eq_true_eq, Bool.not_eq_true', List.length_map,
      Bool.and_eq_false_imp, Bool.not_eq_false', not_and, Bool.not_eq_false]

/-- **The campaign match** of the context is one of the memory's answer. -/
theorem hasCampaignMatch_historicalContext :
    (historicalContext env parsedEmail retriever).hasCampaignMatch = true ↔
      MemoryCampaign env parsedEmail retriever := by
  unfold historicalContext
  split
  · next find email =>
    rw [hasCampaignMatch_contextOf]
    exact ⟨fun h => ⟨find, email, rfl, rfl, h⟩, fun ⟨_, _, hf, he, h⟩ => by cases hf; cases he; exact h⟩
  · next hnone =>
    exact ⟨fun h => Bool.noConfusion h, fun ⟨find, email, hf, he, _⟩ => (hnone find email hf he).elim⟩

end Detectors

/-! ## The level -/

section Level

variable (env : ReasoningEnv) (parsedEmail : Option EmailInput) (evidences : List EvidenceRecord)
  (retriever : Option Retriever)

/-- What the summary of a low verdict promises. -/
structure Quiet : Prop where
  flags : ∀ k, (findings env.library.lower evidences).flags k = false
  impersonation : (brandPart env parsedEmail).detected = false
  socialEng : (behaviorPart env parsedEmail).detected = false
  campaign : (historicalContext env parsedEmail retriever).hasCampaignMatch = false
  recorded : (reason env parsedEmail evidences retriever).evidenceCorrelation =
    (historicalContext env parsedEmail retriever).correlations

/-- Something that a branch of the cascade, or the historical context, takes alone. -/
def LevelRaised : Prop :=
  (∃ ev ∈ evidences, Raises env.library.lower ev) ∨ ImitatesBrand env parsedEmail ∨
    PressesReader env parsedEmail ∨ MemoryCampaign env parsedEmail retriever

variable {env parsedEmail evidences retriever}

/-- The three conditions of the cascade, without the combinations that a single indicator
already implies. -/
theorem cascade_iff (s : Signals) :
    (s.isCritical = true ∨ s.isHigh = true ∨ s.isMedium = true) ↔
      (0 < s.criticalCount ∨ 0 < s.highCount ∨ 0 < s.mediumCount) ∨
        (∃ k, Flag.overlooked k = false ∧ s.flags k = true) ∨ s.impersonation = true ∨
          s.socialEng = true := by
  simp only [Signals.isCritical, Signals.isHigh, Signals.isMedium, Bool.or_eq_true,
    Bool.and_eq_true, decide_eq_true_eq]
  constructor
  · rintro ((((h | h) | ⟨⟨h, -⟩, -⟩) | ⟨h, -⟩) | (((((h | ⟨h, -⟩) | h) | h) | h) | h) |
      ((h | h) | h) | h)
    · exact .inl (.inl h)
    · exact .inl (.inr (.inl (by omega)))
    · exact .inr (.inl ⟨_, rfl, h⟩)
    · exact .inr (.inr (.inl h))
    · exact .inl (.inr (.inl h))
    · exact .inr (.inl ⟨_, rfl, h⟩)
    · exact .inr (.inl ⟨_, rfl, h⟩)
    · exact .inr (.inl ⟨_, rfl, h⟩)
    · exact .inr (.inr (.inl h))
    · exact .inr (.inr (.inr h))
    · exact .inl (.inr (.inr h))
    · exact .inr (.inl ⟨_, rfl, h⟩)
    · exact .inr (.inl ⟨_, rfl, h⟩)
    · exact .inr (.inl ⟨_, rfl, h⟩)
  · rintro ((h | h | h) | ⟨k, hk, h⟩ | h | h)
    · exact .inl (.inl (.inl (.inl h)))
    · exact .inr (.inl (.inl (.inl (.inl (.inl (.inl h))))))
    · exact .inr (.inr (.inl (.inl (.inl h))))
    · cases k with
      | threatIntelligenceMatch => exact .inr (.inl (.inl (.inl (.inr h))))
      | spfFail => exact .inr (.inr (.inl (.inr h)))
      | dkimFail => exact .inr (.inr (.inr h))
      | suspiciousAttachment => exact .inr (.inl (.inl (.inl (.inl (.inr h)))))
      | senderAnomaly => exact .inr (.inr (.inl (.inl (.inr h))))
      | campaignCorrelation => exact Bool.noConfusion hk
      | dmarcFail => exact Bool.noConfusion hk
      | maliciousUrl => exact Bool.noConfusion hk
    · exact .inr (.inl (.inl (.inr h)))
    · exact .inr (.inl (.inr h))

theorem riskLevel_assess_eq_low (s : Signals) (hasAttachments : Bool) :
    (assess s hasAttachments).riskLevel = .low ↔
      ¬(s.isCritical = true ∨ s.isHigh = true ∨ s.isMedium = true) := by
  rw [riskLevel_assess]
  cases s.isCritical <;> cases s.isHigh <;> cases s.isMedium <;> decide

/-- An item raises the level exactly if a count or a flag of the signals does. -/
theorem exists_raises_iff :
    (∃ ev ∈ evidences, Raises env.library.lower ev) ↔
      (0 < (signalsOf env parsedEmail evidences).criticalCount ∨
          0 < (signalsOf env parsedEmail evidences).highCount ∨
          0 < (signalsOf env parsedEmail evidences).mediumCount) ∨
        ∃ k, Flag.overlooked k = false ∧ (signalsOf env parsedEmail evidences).flags k = true := by
  simp only [signalsOf, flags_findings, List.any_eq_true, List.countP_pos_iff, decide_eq_true_eq]
  constructor
  · rintro ⟨ev, hev, hsev | ⟨k, hk, hhit⟩⟩
    · simp only [List.mem_cons, List.not_mem_nil, or_false] at hsev
      rcases hsev with hsev | hsev | hsev
      · exact .inl (.inr (.inr ⟨ev, hev, hsev⟩))
      · exact .inl (.inr (.inl ⟨ev, hev, hsev⟩))
      · exact .inl (.inl ⟨ev, hev, hsev⟩)
    · exact .inr ⟨k, hk, ev, hev, hhit⟩
  · rintro ((⟨ev, hev, hsev⟩ | ⟨ev, hev, hsev⟩ | ⟨ev, hev, hsev⟩) | ⟨k, hk, ev, hev, hhit⟩)
    · exact ⟨ev, hev, .inl (by simp [hsev])⟩
    · exact ⟨ev, hev, .inl (by simp [hsev])⟩
    · exact ⟨ev, hev, .inl (by simp [hsev])⟩
    · exact ⟨ev, hev, .inr ⟨k, hk, hhit⟩⟩

/-- **The level is low** exactly if nothing raises it. -/
theorem riskLevel_reason_eq_low :
    (reason env parsedEmail evidences retriever).riskLevel = .low ↔
      ¬LevelRaised env parsedEmail evidences retriever := by
  have hcurrent : (currentAssessment env parsedEmail evidences).riskLevel = .low ↔
      ¬((∃ ev ∈ evidences, Raises env.library.lower ev) ∨ ImitatesBrand env parsedEmail ∨
        PressesReader env parsedEmail) := by
    rw [riskLevel_currentAssessment, riskLevel_assess_eq_low, cascade_iff,
      @exists_raises_iff env parsedEmail, ← detected_brandPart, ← detected_behaviorPart]
    simp only [or_assoc, signalsOf]
  rw [riskLevel_reason, LevelRaised]
  by_cases hlow : (currentAssessment env parsedEmail evidences).riskLevel = .low
  · have hnot := hcurrent.1 hlow
    by_cases hmemory : MemoryCampaign env parsedEmail retriever
    · rw [if_pos ⟨hasCampaignMatch_historicalContext.2 hmemory, hlow⟩]
      exact ⟨fun h => RiskLevel.noConfusion h, fun h => (h (.inr (.inr (.inr hmemory)))).elim⟩
    · rw [if_neg fun h => hmemory (hasCampaignMatch_historicalContext.1 h.1)]
      refine ⟨fun _ h => ?_, fun _ => hlow⟩
      rcases h with h | h | h | h
      · exact hnot (.inl h)
      · exact hnot (.inr (.inl h))
      · exact hnot (.inr (.inr h))
      · exact hmemory h
  · rw [if_neg fun h => hlow h.2]
    refine ⟨fun h => (hlow h).elim, fun h => hcurrent.2 fun hraised => h ?_⟩
    rcases hraised with hraised | hraised | hraised
    · exact .inl hraised
    · exact .inr (.inl hraised)
    · exact .inr (.inr (.inl hraised))

/-- Items that hit no flag, of an e-mail with no finding, leave no correlation of their own. -/
theorem quiet_of_not_raised (hlow : ¬LevelRaised env parsedEmail evidences retriever)
    (hquiet : ∀ ev ∈ evidences, ∀ k, hit env.library.lower ev k = false) :
    Quiet env parsedEmail evidences retriever := by
  have hbrand : (brandPart env parsedEmail).detected = false :=
    Bool.eq_false_iff.2 fun h => hlow (.inr (.inl (detected_brandPart.1 h)))
  have hbehavior : (behaviorPart env parsedEmail).detected = false :=
    Bool.eq_false_iff.2 fun h => hlow (.inr (.inr (.inl (detected_behaviorPart.1 h))))
  refine ⟨fun k => ?_, hbrand, hbehavior, ?_, ?_⟩
  · rw [flags_findings, List.any_eq_false]
    exact fun ev hev => Bool.eq_false_iff.1 (hquiet ev hev k)
  · exact Bool.eq_false_iff.2 fun h =>
      hlow (.inr (.inr (.inr (hasCampaignMatch_historicalContext.1 h))))
  · have hloop : (findings env.library.lower evidences).correlations = [] :=
      correlations_foldl_inspect hquiet {}
    have hcurrent : currentCorrelations env parsedEmail evidences = [] := by
      rw [currentCorrelations, hloop, correlations_brandPart hbrand,
        correlations_behaviorPart hbehavior]
      rfl
    show currentCorrelations env parsedEmail evidences ++ _ = _
    rw [hcurrent, List.nil_append]

/-- An item hits a flag that is not overlooked, and so raises the level. -/
theorem raised_of_hit {ev : EvidenceRecord} (hev : ev ∈ evidences) {k : Flag}
    (hk : Flag.overlooked k = false) (hhit : hit env.library.lower ev k = true) :
    LevelRaised env parsedEmail evidences retriever :=
  .inl ⟨ev, hev, .inr ⟨k, hk, hhit⟩⟩

end Level

/-- **A low verdict is quiet** exactly if each failure of DMARC, suspicious link or campaign
correlation comes with something else that raises the level. -/
theorem low_quiet_iff (env : ReasoningEnv) (parsedEmail : Option EmailInput)
    (evidences : List EvidenceRecord) (retriever : Option Retriever) :
    ((reason env parsedEmail evidences retriever).riskLevel = .low →
        Quiet env parsedEmail evidences retriever) ↔
      ((∃ ev ∈ evidences, ∃ k, Flag.overlooked k = true ∧ hit env.library.lower ev k = true) →
        LevelRaised env parsedEmail evidences retriever) := by
  rw [riskLevel_reason_eq_low]
  constructor
  · rintro hquiet ⟨ev, hev, k, -, hhit⟩
    by_contra hlow
    have hflag := (hquiet hlow).flags k
    rw [flags_findings, List.any_eq_false] at hflag
    exact hflag ev hev hhit
  · intro h hlow
    refine quiet_of_not_raised hlow fun ev hev k => Bool.eq_false_iff.2 fun hhit => hlow ?_
    cases hk : Flag.overlooked k with
    | true => exact h ⟨ev, hev, k, hk, hhit⟩
    | false => exact raised_of_hit hev hk hhit

/-- An item that reports a DMARC failure, as mild as an analyzer may report it. -/
def dmarcItem : EvidenceRecord :=
  { bareItem "authentication.dmarc" .low with
    title := "DMARC failure"
    description := "DMARC alignment failed" }

/-- A DMARC failure of low severity gives a low verdict, whose summary says that the authentication
checks passed. -/
theorem low_with_dmarc_failure :
    (reason asciiEnv none [dmarcItem] none).riskLevel = .low ∧
      (reason asciiEnv none [dmarcItem] none).summary =
        "No significant risk indicators observed. Email authentication checks passed." ∧
      (findings asciiEnv.library.lower [dmarcItem]).flags .dmarcFail = true ∧
      ¬Quiet asciiEnv none [dmarcItem] none := by
  have hflag : (findings asciiEnv.library.lower [dmarcItem]).flags .dmarcFail = true := by
    decide +kernel
  refine ⟨by decide +kernel, by decide +kernel, hflag, fun h => ?_⟩
  exact Bool.noConfusion ((h.flags .dmarcFail).symm.trans hflag)

end ScamOn.Planner
