import ScamOn.Lib.Rounding
import ScamOn.Risk.Assessment

/-!
# The vector of the fused signals

`fuse_signals` reports the signals with a score for each domain, and how many of the signals were
evaluated.

* `fuseVector` is the whole method.
* `exists_fuseSignals_iff` says when there are signals at all: if the results of the threat feeds
  are in bounds, and no age that is read is infinite.
* `Consistent` says how status, score and weight of a signal have to fit: `consistent_auth` and the
  others prove it of each normalizer, but for the signal of the QR codes.
* `fuseVector_wellFormed_iff`: the vector is well formed exactly if there are signals, and no QR
  code leads somewhere that was not detected.
-/

namespace ScamOn.Risk

open UrlIntelligence (MediaStatus)

/-! ## The vector -/

/-- The signal was evaluated. -/
def NormalizedSignal.isEvaluated (s : NormalizedSignal) : Bool :=
  s.status = .evaluatedPositive || s.status = .evaluatedNegative

/-- `MultimodalFeatureVectorDTO`. -/
structure MultimodalFeatureVector where
  tenantId : Uuid
  messageId : String
  domainSubscores : Dict String ℚ
  signals : List NormalizedSignal
  completenessRatio : ℚ
  totalEvaluatedSignals : ℕ

/-- The score of a domain: the weighted average of the signals that were evaluated. -/
def domainSubscore (evaluatedSignals : List NormalizedSignal) (domain : SignalDomain) : ℚ :=
  let domainSignals := evaluatedSignals.filter fun s => s.domain = domain
  if domainSignals.isEmpty then 0
  else
    let totalWeight := (domainSignals.map NormalizedSignal.weight).sum
    if 0 < totalWeight then
      let weightedSum := (domainSignals.map fun s => s.normalizedScore * s.weight).sum
      min 1 (max 0 (weightedSum / totalWeight))
    else 0

/-- The vector of some signals. -/
def vectorOf (tenantId : Uuid) (messageId : String) (signals : List NormalizedSignal) :
    MultimodalFeatureVector :=
  let evaluatedSignals := signals.filter fun s => s.isEvaluated
  let totalEvaluated := evaluatedSignals.length
  let totalPotential := signals.length
  let completenessRatio : ℚ :=
    if 0 < totalPotential then (totalEvaluated : ℚ) / totalPotential else 1
  { tenantId := tenantId
    messageId := if messageId = "" then "unknown" else messageId
    domainSubscores := SignalDomain.all.foldl
      (fun subscores domain => subscores.set domain.value (domainSubscore evaluatedSignals domain)) ∅
    signals := signals
    completenessRatio := roundDigits 4 completenessRatio
    totalEvaluatedSignals := totalEvaluated }

/-- `fuse_signals`, for the tenant and the message id of an e-mail; `none` is an error. -/
def fuseVector (lower upper : String → String) (tenantId : Uuid) (messageId : String)
    (transmission : TransmissionAnalysis) (auth : AuthenticationVerification)
    (intel : ThreatIntelEnrichment) (extras : Extras) : Option MultimodalFeatureVector :=
  (fuseSignals lower upper transmission auth intel extras).map (vectorOf tenantId messageId)

/-! ## When there are signals -/

/-- **An infinite age is read**: before it, the target has no age that `int` takes. -/
def ReadsInfiniteAge (observations : List (Option PyValue)) : Prop :=
  ∃ before x after, observations = before ++ some (.float x) :: after ∧ (x = .inf ∨ x = .negInf) ∧
    ∀ age, some age ∈ before → ∀ n, age.intOf ≠ .ok n

/-- **The results of the threat feeds are sound**: in bounds, and without an infinite age that is
read. -/
structure SoundIntel (intel : ThreatIntelEnrichment) : Prop where
  count : 0 ≤ intel.maliciousIocCount
  confidence : 0 ≤ intel.overallConfidence ∧ intel.overallConfidence ≤ 1
  ages : ∀ target ∈ intel.enrichedTargets, ¬ReadsInfiniteAge target

/-- `int` raises an exception that is not caught exactly on the infinities. -/
theorem intOf_cases (age : PyValue) :
    (∃ n, age.intOf = .ok n) ∨
      (∃ e, age.intOf = .error e ∧ (e.className = "ValueError" ∨ e.className = "TypeError") ∧
        ∀ x, age = .float x → x = .nan) ∨
      (age = .float .inf ∨ age = .float .negInf) ∧ ∃ e, age.intOf = .error e ∧
        ¬(e.className = "ValueError" ∨ e.className = "TypeError") := by
  cases age with
  | bool b => exact .inl ⟨_, rfl⟩
  | int n => exact .inl ⟨n, rfl⟩
  | float x =>
    cases x with
    | finite q => exact .inl ⟨_, rfl⟩
    | nan => exact .inr (.inl ⟨_, rfl, .inl rfl, fun x h => by cases h; rfl⟩)
    | inf => exact .inr (.inr ⟨.inl rfl, _, rfl, by decide⟩)
    | negInf => exact .inr (.inr ⟨.inr rfl, _, rfl, by decide⟩)
  | str s =>
    cases hint : Text.intOfStr? s with
    | some n => exact .inl ⟨n, by simp [PyValue.intOf, hint]⟩
    | none => exact .inr (.inl ⟨_, by simp [PyValue.intOf, hint]; rfl, .inl rfl, nofun⟩)
  | other name => exact .inr (.inl ⟨_, rfl, .inr rfl, nofun⟩)

/-- An age that is passed over does not matter. -/
theorem readsInfiniteAge_cons {age : Option PyValue} {observations : List (Option PyValue)}
    (hread : ∀ v, age = some v → ∀ n, v.intOf ≠ .ok n)
    (hinfinite : ∀ v, age = some v → v ≠ .float .inf ∧ v ≠ .float .negInf) :
    ReadsInfiniteAge (age :: observations) ↔ ReadsInfiniteAge observations := by
  constructor
  · rintro ⟨before, x, after, heq, hx, hbefore⟩
    cases before with
    | nil =>
      obtain ⟨rfl, -⟩ := List.cons.inj heq
      rcases hx with rfl | rfl
      · exact absurd rfl (hinfinite _ rfl).1
      · exact absurd rfl (hinfinite _ rfl).2
    | cons _ before =>
      exact ⟨before, x, after, (List.cons.inj heq).2, hx,
        fun v hv => hbefore v (List.mem_cons_of_mem _ hv)⟩
  · rintro ⟨before, x, after, rfl, hx, hbefore⟩
    refine ⟨age :: before, x, after, rfl, hx, fun v hv => ?_⟩
    rcases List.mem_cons.1 hv with hv | hv
    · exact hread v hv.symm
    · exact hbefore v hv

/-- **When the ages of a target can be read.** -/
theorem exists_targetAge_iff (observations : List (Option PyValue)) :
    (∃ age, targetAge observations = .ok age) ↔ ¬ReadsInfiniteAge observations := by
  induction observations with
  | nil =>
    refine iff_of_true ⟨none, rfl⟩ ?_
    rintro ⟨before, x, after, heq, -⟩
    cases before <;> cases heq
  | cons age observations ih =>
    cases age with
    | none =>
      rw [readsInfiniteAge_cons (fun v h => by cases h) (fun v h => by cases h), ← ih, targetAge]
    | some age =>
      rcases intOf_cases age with ⟨n, hn⟩ | ⟨e, he, hcaught, hnan⟩ | ⟨hinfinite, e, he, hcaught⟩
      · refine iff_of_true ⟨some n, by rw [targetAge, hn]⟩ ?_
        rintro ⟨before, x, after, heq, hx, hbefore⟩
        cases before with
        | nil =>
          obtain ⟨hage, -⟩ := List.cons.inj heq
          cases hage
          rcases hx with rfl | rfl <;> cases hn
        | cons _ before =>
          obtain ⟨rfl, -⟩ := List.cons.inj heq
          exact hbefore age (List.mem_cons_self ..) n hn
      · rw [readsInfiniteAge_cons, ← ih, targetAge, he]
        · simp only [if_pos hcaught]
        · intro v hv n hn
          cases hv
          cases he.symm.trans hn
        · intro v hv
          cases hv
          exact ⟨fun h => PyNumber.noConfusion (hnan _ h), fun h => PyNumber.noConfusion (hnan _ h)⟩
      · refine iff_of_false ?_ fun h => h ?_
        · rintro ⟨n, hn⟩
          rw [targetAge, he] at hn
          simp only [if_neg hcaught] at hn
          cases hn
        · rcases hinfinite with rfl | rfl
          · exact ⟨[], .inf, observations, rfl, .inl rfl, nofun⟩
          · exact ⟨[], .negInf, observations, rfl, .inr rfl, nofun⟩

theorem exists_whoisAge_iff (targets : List (List (Option PyValue))) :
    (∃ age, whoisAge targets = .ok age) ↔ ∀ target ∈ targets, ¬ReadsInfiniteAge target := by
  suffices h : ∀ start, (∃ age, targets.foldlM (fun age observations =>
      (targetAge observations).map (·.or age)) start = .ok age) ↔
      ∀ target ∈ targets, ¬ReadsInfiniteAge target from h none
  induction targets with
  | nil => exact fun start => iff_of_true ⟨start, rfl⟩ nofun
  | cons target targets ih =>
    intro start
    rw [List.foldlM_cons, List.forall_mem_cons, ← exists_targetAge_iff]
    cases htarget : targetAge target with
    | error e => exact iff_of_false (fun ⟨_, h⟩ => by cases h) fun h => by cases h.1.choose_spec
    | ok age => exact (ih _).trans (by simp)

/-- **There are signals** exactly if the results of the threat feeds are sound. -/
theorem exists_fuseSignals_iff (lower upper : String → String) (transmission : TransmissionAnalysis)
    (auth : AuthenticationVerification) (intel : ThreatIntelEnrichment) (extras : Extras) :
    (∃ signals, fuseSignals lower upper transmission auth intel extras = some signals) ↔
      SoundIntel intel := by
  have hscore : 0 ≤ min 1 ((intel.maliciousIocCount : ℚ) * (1 / 2)) ∧
      min 1 ((intel.maliciousIocCount : ℚ) * (1 / 2)) ≤ 1 ↔ 0 ≤ intel.maliciousIocCount := by
    rw [le_min_iff]
    constructor
    · rintro ⟨⟨-, hnonneg⟩, -⟩
      have hcount : (0 : ℚ) ≤ intel.maliciousIocCount := by linarith
      exact_mod_cast hcount
    · intro hcount
      have hcast : (0 : ℚ) ≤ intel.maliciousIocCount := by exact_mod_cast hcount
      exact ⟨⟨zero_le_one, by positivity⟩, min_le_left _ _⟩
  have hsound : SoundIntel intel ↔ ((0 ≤ min 1 ((intel.maliciousIocCount : ℚ) * (1 / 2)) ∧
      min 1 ((intel.maliciousIocCount : ℚ) * (1 / 2)) ≤ 1) ∧
        0 ≤ intel.overallConfidence ∧ intel.overallConfidence ≤ 1) ∧
      ∃ age, whoisAge intel.enrichedTargets = .ok age := by
    rw [hscore, exists_whoisAge_iff]
    exact ⟨fun h => ⟨⟨h.count, h.confidence⟩, h.ages⟩, fun h => ⟨h.1.1, h.1.2, h.2⟩⟩
  rw [hsound]
  unfold fuseSignals baseSignals normalizeThreatIntelSignals
  dsimp only
  split
  · next hbounds =>
    cases whoisAge intel.enrichedTargets with
    | error e => exact iff_of_false (fun ⟨_, h⟩ => by cases h) fun h => by cases h.2.choose_spec
    | ok age => exact iff_of_true ⟨_, rfl⟩ ⟨hbounds, age, rfl⟩
  · next hbounds => exact iff_of_false (fun ⟨_, h⟩ => by cases h) fun h => hbounds h.1

/-! ## Consistency -/

/-- **Status, score and weight fit**: a signal that was not evaluated has score and weight zero, and
one with a score above one half is positive. -/
structure Consistent (s : NormalizedSignal) : Prop where
  idle : s.isEvaluated = false → s.normalizedScore = 0 ∧ s.weight = 0
  positive : 1 / 2 < s.normalizedScore → s.status = .evaluatedPositive

section Consistency

variable {domain : SignalDomain} {signalName explanation otherwise : String}
  {score confidence : Fraction} {on : Bool} {tenths : ℕ}

theorem isEvaluated_evaluated (domain : SignalDomain) (signalName explanation : String)
    (score confidence : Fraction) (tenths : ℕ) (on : Bool) :
    (evaluated domain signalName score confidence tenths on explanation).isEvaluated = true := by
  cases on <;> rfl

theorem consistent_evaluated (h : 1 / 2 < score.1 → on = true) :
    Consistent (evaluated domain signalName score confidence tenths on explanation) where
  idle hidle := by
    rw [isEvaluated_evaluated] at hidle
    cases hidle
  positive hscore := if_pos (h hscore)

/-- A signal with a score of at most one half may have any status. -/
theorem consistent_low {n : Fin 101} (h : (n : ℕ) ≤ 50) :
    Consistent (evaluated domain signalName (pct n) confidence tenths on explanation) := by
  refine consistent_evaluated fun hscore => absurd hscore (not_lt.2 ?_)
  have hle : ((n : ℕ) : ℚ) ≤ 50 := by exact_mod_cast h
  show ((n : ℕ) : ℚ) / 100 ≤ 1 / 2
  linarith

theorem consistent_flag :
    Consistent (flag domain signalName on score confidence tenths explanation otherwise) := by
  refine consistent_evaluated fun hscore => ?_
  by_contra hoff
  rw [if_neg hoff] at hscore
  norm_num [pct] at hscore

theorem consistent_notEvaluated {status : EvidenceStatus} :
    Consistent (notEvaluated domain status explanation signalName) where
  idle _ := ⟨by norm_num [notEvaluated, pct], rfl⟩
  positive hscore := by norm_num [notEvaluated, pct] at hscore

end Consistency

/-- All signals are consistent. -/
def AllConsistent (signals : List NormalizedSignal) : Prop := ∀ s ∈ signals, Consistent s

namespace AllConsistent

theorem nil : AllConsistent [] := fun _ h => absurd h List.not_mem_nil

theorem cons {s : NormalizedSignal} {l : List NormalizedSignal} (hs : Consistent s)
    (hl : AllConsistent l) : AllConsistent (s :: l) :=
  List.forall_mem_cons.2 ⟨hs, hl⟩

theorem append {l m : List NormalizedSignal} (hl : AllConsistent l) (hm : AllConsistent m) :
    AllConsistent (l ++ m) :=
  List.forall_mem_append.2 ⟨hl, hm⟩

end AllConsistent

section Normalizers

variable (lower upper : String → String)

theorem consistent_skipped (domain : SignalDomain) (status : EvidenceStatus) (explanation : String)
    (names : List String) :
    AllConsistent (names.map (notEvaluated domain status explanation)) := by
  induction names with
  | nil => exact .nil
  | cons name names ih => exact .cons consistent_notEvaluated ih

theorem consistent_auth (auth : Option AuthenticationVerification) :
    AllConsistent (normalizeAuthSignals upper auth) := by
  cases auth with
  | none => exact consistent_skipped _ _ _ _
  | some auth =>
    refine .cons ?_ (.cons ?_ (.cons ?_ (.cons ?_ .nil)))
    · split_ifs
      · exact consistent_low (by decide)
      · exact consistent_evaluated fun _ => rfl
      · exact consistent_low (by decide)
    · split_ifs
      · exact consistent_low (by decide)
      · exact consistent_evaluated fun _ => rfl
      · exact consistent_evaluated fun _ => rfl
      · exact consistent_low (by decide)
    · split_ifs
      · exact consistent_low (by decide)
      · exact consistent_evaluated fun _ => rfl
      · exact consistent_low (by decide)
    · split_ifs
      · exact consistent_low (by decide)
      · exact consistent_flag

theorem consistent_transmission (transmission : Option TransmissionAnalysis) :
    AllConsistent (normalizeTransmissionSignals transmission) := by
  cases transmission with
  | none => exact consistent_skipped _ _ _ _
  | some transmission =>
    refine .cons consistent_flag (.cons consistent_flag (.cons consistent_flag (.cons ?_ .nil)))
    refine consistent_evaluated fun h => ?_
    have hhigh : 4 / 10 < (clamp (1 - transmission.headerIntegrityScore)).1 := by linarith
    exact decide_eq_true hhigh

theorem consistent_threatIntel {intel : Option ThreatIntelEnrichment} {l : List NormalizedSignal}
    (h : normalizeThreatIntelSignals intel = some l) : AllConsistent l := by
  cases intel with
  | none =>
    cases h
    exact consistent_skipped _ _ _ _
  | some intel =>
    unfold normalizeThreatIntelSignals at h
    dsimp only at h
    split at h
    · obtain ⟨age, -, rfl⟩ := Option.map_eq_some_iff.1 h
      refine .cons (consistent_evaluated fun hscore => ?_) (.cons ?_ .nil)
      · refine decide_eq_true ?_
        by_contra hnone
        have hle : (intel.maliciousIocCount : ℚ) ≤ 0 := by exact_mod_cast not_lt.1 hnone
        have hmin := lt_min_iff.1 hscore
        linarith
      · cases age with
        | none => exact consistent_notEvaluated
        | some age =>
          unfold whoisSignal
          dsimp only
          split_ifs
          · exact consistent_evaluated fun _ => rfl
          · exact consistent_evaluated fun _ => rfl
          · exact consistent_low (by decide)
    · cases h

theorem consistent_content (contentRes : Option ContentAnalysisResult) :
    AllConsistent (normalizeContentSignals contentRes) := by
  cases contentRes with
  | none => exact consistent_skipped _ _ _ _
  | some contentRes =>
    refine .cons (consistent_evaluated fun h => ?_) (.cons (consistent_evaluated fun h => ?_)
      (.cons consistent_flag (.cons consistent_flag .nil)))
    · have hhigh : 4 / 10 < (clamp contentRes.intentAnalysis.urgencyScore).1 := by linarith
      exact decide_eq_true hhigh
    · have hhigh : 4 / 10 < (clamp contentRes.intentAnalysis.financialCoercionScore).1 := by linarith
      exact decide_eq_true hhigh

theorem consistent_url (urlRes : Option UrlResult) :
    AllConsistent (normalizeUrlSignals urlRes) := by
  cases urlRes with
  | none => exact consistent_skipped _ _ _ _
  | some urlRes =>
    refine .cons consistent_flag (.cons (consistent_evaluated fun h => ?_) (.cons consistent_flag .nil))
    by_contra hfew
    rw [if_neg fun hmany => hfew (decide_eq_true hmany)] at h
    norm_num [pct] at h

theorem consistent_correlation (correlationRes : Option ThreatCorrelation) :
    AllConsistent (normalizeCorrelationSignals correlationRes) := by
  cases correlationRes with
  | none => exact consistent_skipped _ _ _ _
  | some correlationRes =>
    refine .cons consistent_flag (.cons (consistent_evaluated fun h => ?_) .nil)
    have hhigh : 4 / 10 < (clamp (correlationRes.campaignScore / 10)).1 := by linarith
    exact decide_eq_true hhigh

/-! ### QR codes -/

/-- **A QR code is misread**: none was detected, but one of the URLs that were read from it looks
malicious. -/
def MisreadQr (media : MediaEvidence) : Prop :=
  media.qrStatus = .success ∧ media.qrDetected = false ∧
    ∃ u ∈ media.qrExtractedUrls, ∃ word ∈ ["phish", "malicious", "login"],
      Text.contains (lower u) word = true

/-- The status of the signal of the QR codes fits exactly if none is misread. -/
theorem qrSignal_positive_iff (media : MediaEvidence) :
    (1 / 2 < (qrSignal lower media).normalizedScore →
      (qrSignal lower media).status = .evaluatedPositive) ↔ ¬MisreadQr lower media := by
  unfold qrSignal MisreadQr
  have hany : (media.qrExtractedUrls.any fun u =>
      ["phish", "malicious", "login"].any (Text.contains (lower u))) = true ↔
      ∃ u ∈ media.qrExtractedUrls, ∃ word ∈ ["phish", "malicious", "login"],
        Text.contains (lower u) word = true := by
    rw [List.any_eq_true]
    simp only [List.any_eq_true]
  cases media.qrStatus with
  | success =>
    rw [← hany]
    dsimp only [evaluated]
    generalize (media.qrExtractedUrls.any fun u =>
      ["phish", "malicious", "login"].any (Text.contains (lower u))) = isMalQr
    cases isMalQr with
    | true =>
      cases media.qrDetected with
      | true => simp
      | false =>
        refine iff_of_false (fun h => ?_) fun h => h ⟨rfl, rfl, rfl⟩
        cases h (by norm_num [pct])
    | false => cases media.qrDetected <;> norm_num [pct]
  | unavailable =>
    exact iff_of_true (fun hscore => by norm_num [notEvaluated, pct] at hscore)
      fun hmisread => absurd hmisread.1 (by decide)
  | failed =>
    exact iff_of_true (fun hscore => by norm_num [notEvaluated, pct] at hscore)
      fun hmisread => absurd hmisread.1 (by decide)
  | skipped =>
    exact iff_of_true (fun hscore => by norm_num [notEvaluated, pct] at hscore)
      fun hmisread => absurd hmisread.1 (by decide)

theorem consistent_media {contentRes : Option ContentAnalysisResult}
    (hread : ∀ r ∈ contentRes, ¬MisreadQr lower r.mediaEvidence) :
    AllConsistent (normalizeMediaSignals lower contentRes) := by
  cases contentRes with
  | none => exact consistent_skipped _ _ _ _
  | some contentRes =>
    have hpositive := (qrSignal_positive_iff lower contentRes.mediaEvidence).2 (hread _ rfl)
    refine .cons ?_ (.cons ⟨fun hidle => ?_, hpositive⟩ .nil)
    · unfold ocrSignal
      cases contentRes.mediaEvidence.ocrStatus with
      | success =>
        refine consistent_evaluated fun hscore => ?_
        by_contra hclean
        rw [if_neg hclean] at hscore
        norm_num [pct] at hscore
      | unavailable => exact consistent_notEvaluated
      | failed => exact consistent_notEvaluated
      | skipped => exact consistent_notEvaluated
    · unfold qrSignal at hidle ⊢
      cases hstatus : contentRes.mediaEvidence.qrStatus with
      | success =>
        rw [hstatus] at hidle
        dsimp only at hidle
        rw [isEvaluated_evaluated] at hidle
        cases hidle
      | unavailable => exact consistent_notEvaluated.idle rfl
      | failed => exact consistent_notEvaluated.idle rfl
      | skipped => exact consistent_notEvaluated.idle rfl

end Normalizers

/-! ## Well-formed vectors -/

/-- The names of all signals. -/
def allNames : List String :=
  baseNames ++ ["urgency_score", "financial_coercion_score", "has_hidden_dom_text",
    "tracking_beacons", "ocr_phishing_detected", "qr_malicious_destination", "has_credential_form",
    "redirect_depth", "ssrf_violation", "campaign_detected", "historical_similarity_score"]

/-- **A well-formed vector** has every signal once, scores in bounds, consistent signals, and counts
those that were evaluated. -/
structure WellFormedVector (v : MultimodalFeatureVector) : Prop where
  names : v.signals.map NormalizedSignal.signalName = allNames
  once : (v.signals.map NormalizedSignal.signalName).Nodup
  bounds : ∀ s ∈ v.signals, (0 ≤ s.normalizedScore ∧ s.normalizedScore ≤ 1) ∧
    0 ≤ s.confidence ∧ s.confidence ≤ 1
  subscores : ∀ key q, v.domainSubscores.get? key = some q → 0 ≤ q ∧ q ≤ 1
  domains : ∀ domain : SignalDomain, (v.domainSubscores.get? domain.value).isSome = true
  consistent : ∀ s ∈ v.signals, Consistent s
  total : v.totalEvaluatedSignals = v.signals.countP fun s => s.isEvaluated
  completeness : v.completenessRatio = roundDigits 4 ((v.totalEvaluatedSignals : ℚ) / v.signals.length)
  ratio : 0 ≤ v.completenessRatio ∧ v.completenessRatio ≤ 1

/-- The results of the threat feeds are sound, and no QR code is misread. -/
structure SoundResults (lower : String → String) (intel : ThreatIntelEnrichment) (extras : Extras) :
    Prop extends SoundIntel intel where
  read : ∀ r ∈ extras.contentRes, ¬MisreadQr lower r.mediaEvidence

section WellFormed

variable {lower upper : String → String} {tenantId : Uuid} {messageId : String}
  {transmission : TransmissionAnalysis} {auth : AuthenticationVerification}
  {intel : ThreatIntelEnrichment} {extras : Extras} {signals : List NormalizedSignal}

theorem nodup_allNames : allNames.Nodup := by decide +kernel

theorem domainSubscore_mem (evaluatedSignals : List NormalizedSignal) (domain : SignalDomain) :
    0 ≤ domainSubscore evaluatedSignals domain ∧ domainSubscore evaluatedSignals domain ≤ 1 := by
  unfold domainSubscore
  dsimp only
  split_ifs
  · exact ⟨le_rfl, zero_le_one⟩
  · exact ⟨le_min zero_le_one (le_max_left _ _), min_le_left _ _⟩
  · exact ⟨le_rfl, zero_le_one⟩

theorem names_fused (h : fuseSignals lower upper transmission auth intel extras = some signals) :
    signals.map NormalizedSignal.signalName = allNames := by
  obtain ⟨base, hbase, rfl⟩ := Option.map_eq_some_iff.1 h
  rw [List.map_append, names_base hbase, names_extra]
  rfl

theorem consistent_fused (h : fuseSignals lower upper transmission auth intel extras = some signals)
    (hread : ∀ r ∈ extras.contentRes, ¬MisreadQr lower r.mediaEvidence) : AllConsistent signals := by
  obtain ⟨base, hbase, rfl⟩ := Option.map_eq_some_iff.1 h
  obtain ⟨intelSignals, hintel, rfl⟩ := Option.map_eq_some_iff.1 hbase
  have hown := ((consistent_auth upper (some auth)).append
    (consistent_transmission (some transmission))).append (consistent_threatIntel hintel)
  have hextra := (((consistent_content extras.contentRes).append
    (consistent_media lower hread)).append (consistent_url extras.urlRes)).append
    (consistent_correlation extras.correlationRes)
  exact hown.append hextra

/-- The entries for some domains: what is there stays within bounds, and every domain has one. -/
theorem get?_foldl_set {f : SignalDomain → ℚ} (hf : ∀ domain, 0 ≤ f domain ∧ f domain ≤ 1)
    (domains : List SignalDomain) {d : Dict String ℚ}
    (hd : ∀ key q, d.get? key = some q → 0 ≤ q ∧ q ≤ 1) (key : String) :
    (∀ q, (domains.foldl (fun subscores domain => subscores.set domain.value (f domain)) d).get? key =
      some q → 0 ≤ q ∧ q ≤ 1) ∧
    ((d.get? key).isSome = true ∨ (∃ domain ∈ domains, domain.value = key) →
      ((domains.foldl (fun subscores domain => subscores.set domain.value (f domain)) d).get?
        key).isSome = true) := by
  induction domains generalizing d with
  | nil => exact ⟨hd key, by rintro (h | ⟨domain, hmem, -⟩); exacts [h, by cases hmem]⟩
  | cons domain domains ih =>
    rw [List.foldl_cons]
    have hset : ∀ key q, (d.set domain.value (f domain)).get? key = some q → 0 ≤ q ∧ q ≤ 1 := by
      intro key q h
      rw [Dict.get?_set] at h
      split_ifs at h with hkey
      · cases h
        exact hf domain
      · exact hd key q h
    obtain ⟨hbounds, hsome⟩ := ih hset
    refine ⟨hbounds, fun h => hsome ?_⟩
    rw [Dict.get?_set]
    rcases h with h | ⟨other, hother, hkey⟩
    · left
      split_ifs
      · rfl
      · exact h
    · rcases List.mem_cons.1 hother with rfl | hother
      · exact .inl (by rw [if_pos hkey.symm]; rfl)
      · exact .inr ⟨other, hother, hkey⟩

/-- A vector of consistent signals with these names is well formed. -/
theorem wellFormed_vectorOf {l : List NormalizedSignal}
    (hnames : l.map NormalizedSignal.signalName = allNames) (hconsistent : AllConsistent l) :
    WellFormedVector (vectorOf tenantId messageId l) := by
  have hlength : l.length = 21 := by
    rw [← List.length_map (f := NormalizedSignal.signalName), hnames]
    rfl
  have hsubscores := get?_foldl_set (d := ∅) (domainSubscore_mem (l.filter fun s =>
    s.isEvaluated)) SignalDomain.all nofun
  have hratio : (vectorOf tenantId messageId l).completenessRatio =
      roundDigits 4 (((l.filter fun s => s.isEvaluated).length : ℚ) / l.length) := by
    unfold vectorOf
    dsimp only
    rw [if_pos (by rw [hlength]; norm_num)]
  have hpart : ((l.filter fun s => s.isEvaluated).length : ℚ) / l.length ≤ 1 := by
    rw [hlength, div_le_one (by norm_num)]
    exact_mod_cast hlength ▸ List.length_filter_le _ _
  refine {
    names := hnames
    once := hnames ▸ nodup_allNames
    bounds := fun s _ => ⟨s.score_mem, s.confidence_mem⟩
    subscores := fun key => (hsubscores key).1
    domains := fun domain => (hsubscores domain.value).2 (.inr ⟨domain, ?_, rfl⟩)
    consistent := hconsistent
    total := (List.countP_eq_length_filter ..).symm
    completeness := hratio
    ratio := ?_ }
  · cases domain <;> decide
  · have hnonneg : (0 : ℚ) ≤ ((l.filter fun s => s.isEvaluated).length : ℚ) / l.length := by
      positivity
    have hlow := roundDigits_mono 4 hnonneg
    rw [roundDigits_zero] at hlow
    have hhigh : |roundDigits 4 (((l.filter fun s => s.isEvaluated).length : ℚ) / l.length)| ≤
        (1 : ℕ) :=
      abs_roundDigits_le 1 (by rw [abs_of_nonneg hnonneg, Nat.cast_one]; exact hpart)
    rw [hratio]
    exact ⟨hlow, by simpa using le_of_abs_le hhigh⟩

/-- A vector can be well formed only if the results are sound. -/
theorem soundResults_of_wellFormed {v : MultimodalFeatureVector}
    (hfuse : fuseVector lower upper tenantId messageId transmission auth intel extras = some v)
    (hv : WellFormedVector v) : SoundResults lower intel extras := by
  obtain ⟨signals, hsignals, rfl⟩ := Option.map_eq_some_iff.1 hfuse
  refine ⟨(exists_fuseSignals_iff ..).1 ⟨signals, hsignals⟩, fun r hr => ?_⟩
  have hmem : qrSignal lower r.mediaEvidence ∈ signals := by
    obtain ⟨base, -, rfl⟩ := Option.map_eq_some_iff.1 hsignals
    unfold extraSignals
    rw [Option.mem_def.1 hr]
    simp [normalizeMediaSignals]
  rw [← qrSignal_positive_iff]
  exact (hv.consistent _ hmem).positive

/-- **The fused vector is well formed** exactly if the results of the threat feeds are sound and no
QR code is misread. -/
theorem fuseVector_wellFormed_iff (lower upper : String → String) (tenantId : Uuid)
    (messageId : String) (transmission : TransmissionAnalysis) (auth : AuthenticationVerification)
    (intel : ThreatIntelEnrichment) (extras : Extras) :
    (∃ v, fuseVector lower upper tenantId messageId transmission auth intel extras = some v ∧
      WellFormedVector v) ↔ SoundResults lower intel extras := by
  constructor
  · rintro ⟨v, hfuse, hv⟩
    exact soundResults_of_wellFormed hfuse hv
  · intro hsound
    obtain ⟨signals, hsignals⟩ := (exists_fuseSignals_iff lower upper transmission auth intel
      extras).2 hsound.toSoundIntel
    exact ⟨_, Option.map_eq_some_iff.2 ⟨signals, hsignals, rfl⟩,
      wellFormed_vectorOf (names_fused hsignals) (consistent_fused hsignals hsound.read)⟩

end WellFormed

/-! ### A QR code that was not detected -/

/-- A URL was read from a QR code, but none was detected. -/
def misreadContent : ContentAnalysisResult where
  domSignals := ⟨false, 0, 0⟩
  intentAnalysis := ⟨"UNKNOWN", clamp 0, clamp 0⟩
  mediaEvidence := {
    ocrStatus := .skipped
    ocrExtractedText := ""
    ocrConfidence := clamp 0
    qrStatus := .success
    qrDetected := false
    qrExtractedUrls := ["https://login.test"] }

/-- **The highest score, and evaluated as negative.** -/
theorem undetected_qr_scored :
    (qrSignal Text.asciiLower misreadContent.mediaEvidence).normalizedScore = 1 ∧
      (qrSignal Text.asciiLower misreadContent.mediaEvidence).status = .evaluatedNegative ∧
      ¬∃ v, fuseVector Text.asciiLower Text.asciiUpper (Uuid.ofNat 1) "m1" cleanTransmission
        (authResults "PASS" "PASS") cleanIntel ⟨some misreadContent, none, none⟩ = some v ∧
          WellFormedVector v := by
  refine ⟨by decide +kernel, by decide +kernel, ?_⟩
  rintro ⟨v, hfuse, hv⟩
  refine (soundResults_of_wellFormed hfuse hv).read misreadContent rfl ⟨rfl, rfl, ?_⟩
  exact ⟨"https://login.test", List.mem_singleton.2 rfl, "login", by decide, by decide +kernel⟩

end ScamOn.Risk
