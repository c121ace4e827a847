import ScamOn.Feedback.Service

/-!
# The analytics of a window

`calculate_window_analytics` goes through the records of a tenant that lie in a window, and counts
the verdicts twice: in seven counters, and in a dictionary.

* `windowAnalytics` is the method, `tallyStep` one turn of its loop.
* `Tallies` is the invariant of the loop: counters and dictionary hold the number of records of
  each verdict.
* `AddsUp` says what the answer of the method should be.
* `window_analytics_add_up`: it always is, and depends neither on other records nor on the order.
-/

namespace ScamOn.Feedback

/-! ## The method -/

/-- `RollingWindowAnalyticsDTO`.  Times are in seconds. -/
structure RollingWindowAnalyticsDto where
  tenantId : Uuid
  windowDays : ℤ
  windowStart : ℚ
  windowEnd : ℚ
  sampleCount : ℕ
  falsePositiveCount : ℕ
  falseNegativeCount : ℕ
  confirmedCleanCount : ℕ
  confirmedMaliciousCount : ℕ
  confirmedSuspiciousCount : ℕ
  benignAnomalyCount : ℕ
  needsEscalationCount : ℕ
  falsePositiveRate : Option ℚ
  falseNegativeRate : Option ℚ
  errorDistribution : Dict String ℕ

/-- The variables of the loop. -/
structure WindowTally where
  errorDist : Dict String ℕ
  fpCount : ℕ
  fnCount : ℕ
  cleanCount : ℕ
  malCount : ℕ
  suspCount : ℕ
  benignCount : ℕ
  escCount : ℕ

/-- The variables before the loop. -/
def WindowTally.zero : WindowTally := ⟨∅, 0, 0, 0, 0, 0, 0, 0⟩

/-- The body of the loop. -/
def tallyStep (t : WindowTally) (r : FeedbackRecord) : WindowTally :=
  let verdictVal := r.correctedVerdict.value
  let t := { t with
    errorDist := t.errorDist.set verdictVal ((t.errorDist.get? verdictVal).getD 0 + 1) }
  if verdictVal = AnalystVerdictCorrection.falsePositive.value then
    { t with fpCount := t.fpCount + 1 }
  else if verdictVal = AnalystVerdictCorrection.falseNegative.value then
    { t with fnCount := t.fnCount + 1 }
  else if verdictVal = AnalystVerdictCorrection.confirmedClean.value then
    { t with cleanCount := t.cleanCount + 1 }
  else if verdictVal = AnalystVerdictCorrection.confirmedMalicious.value then
    { t with malCount := t.malCount + 1 }
  else if verdictVal = AnalystVerdictCorrection.confirmedSuspicious.value then
    { t with suspCount := t.suspCount + 1 }
  else if verdictVal = AnalystVerdictCorrection.benignAnomaly.value then
    { t with benignCount := t.benignCount + 1 }
  else if verdictVal = AnalystVerdictCorrection.needsEscalation.value then
    { t with escCount := t.escCount + 1 }
  else t

/-- What leaves a call that fails. -/
inductive AnalyticsError
  /-- The start of the window is no `datetime`. -/
  | overflow
  /-- The DTO does not validate, by the name of the field at fault. -/
  | invalid (field : String)
  deriving DecidableEq

/-- `datetime.min`, in UTC. -/
def datetimeMin : ℚ := -62135596800

/-- The first second after `datetime.max`, in UTC. -/
def datetimeEnd : ℚ := 253402300800

/-- `part / (part + rest)`, unless there is nothing to divide by. -/
def rate (part rest : ℕ) : Option ℚ :=
  if 0 < part + rest then some ((part : ℚ) / (part + rest : ℕ)) else none

/-- The DTO for the records of a window. -/
def analyticsOf (tenantId : Uuid) (windowDays : ℤ) (startTime endTime : ℚ)
    (windowRecords : List FeedbackRecord) : RollingWindowAnalyticsDto :=
  let t := windowRecords.foldl tallyStep .zero
  let tnTotal := t.cleanCount + t.benignCount
  let tpTotal := t.malCount + t.suspCount
  { tenantId := tenantId
    windowDays := windowDays
    windowStart := startTime
    windowEnd := endTime
    sampleCount := windowRecords.length
    falsePositiveCount := t.fpCount
    falseNegativeCount := t.fnCount
    confirmedCleanCount := t.cleanCount
    confirmedMaliciousCount := t.malCount
    confirmedSuspiciousCount := t.suspCount
    benignAnomalyCount := t.benignCount
    needsEscalationCount := t.escCount
    falsePositiveRate := rate t.fpCount tnTotal
    falseNegativeRate := rate t.fnCount tpTotal
    errorDistribution := t.errorDist }

/-- `calculate_window_analytics`, at a time `now`, over the records of the storage. -/
def windowAnalytics (records : List FeedbackRecord) (tenantId : Uuid) (windowDays : ℤ)
    (referenceTime : Option ℚ) (now : ℚ) : Except AnalyticsError RollingWindowAnalyticsDto :=
  let endTime := referenceTime.getD now
  let startTime := endTime - windowDays * 86400
  if startTime < datetimeMin ∨ datetimeEnd ≤ startTime then .error .overflow
  else
    let ownRecords := records.filter fun r => r.tenantId = tenantId
    let windowRecords := ownRecords.filter fun r => startTime ≤ r.createdAt ∧ r.createdAt ≤ endTime
    if 1 ≤ windowDays ∧ windowDays ≤ 365 then
      .ok (analyticsOf tenantId windowDays startTime endTime windowRecords)
    else .error (.invalid "window_days")

/-! ## The loop -/

theorem AnalystVerdictCorrection.value_injective : Function.Injective AnalystVerdictCorrection.value := by
  intro v v' h
  cases v <;> cases v' <;> first | rfl | exact absurd h (by decide +kernel)

/-- The counter of a verdict. -/
def WindowTally.counter (t : WindowTally) : AnalystVerdictCorrection → ℕ
  | .falsePositive => t.fpCount
  | .falseNegative => t.fnCount
  | .confirmedClean => t.cleanCount
  | .confirmedMalicious => t.malCount
  | .confirmedSuspicious => t.suspCount
  | .benignAnomaly => t.benignCount
  | .needsEscalation => t.escCount

/-- **Counters and dictionary hold the same counts.** -/
structure Tallies (t : WindowTally) (count : AnalystVerdictCorrection → ℕ) : Prop where
  counter : ∀ v, t.counter v = count v
  errorDist : ∀ v, t.errorDist.get? v.value = if count v = 0 then none else some (count v)
  keys : ∀ key ∈ t.errorDist.keys, ∃ v : AnalystVerdictCorrection, key = v.value

theorem tallies_zero : Tallies .zero fun _ => 0 where
  counter v := by cases v <;> rfl
  errorDist _ := rfl
  keys key hkey := by cases hkey

/-- A turn of the loop adds one to the counter of the verdict. -/
theorem counter_tallyStep (t : WindowTally) (r : FeedbackRecord) (v : AnalystVerdictCorrection) :
    (tallyStep t r).counter v = t.counter v + if r.correctedVerdict = v then 1 else 0 := by
  unfold tallyStep
  simp only [AnalystVerdictCorrection.value_injective.eq_iff]
  cases r.correctedVerdict <;> cases v <;> rfl

theorem errorDist_tallyStep (t : WindowTally) (r : FeedbackRecord) :
    (tallyStep t r).errorDist = t.errorDist.set r.correctedVerdict.value
      ((t.errorDist.get? r.correctedVerdict.value).getD 0 + 1) := by
  unfold tallyStep
  simp only [AnalystVerdictCorrection.value_injective.eq_iff]
  cases r.correctedVerdict <;> rfl

theorem tallies_step {t : WindowTally} {count : AnalystVerdictCorrection → ℕ} (h : Tallies t count)
    (r : FeedbackRecord) :
    Tallies (tallyStep t r) fun v => count v + if r.correctedVerdict = v then 1 else 0 where
  counter v := by rw [counter_tallyStep, h.counter]
  errorDist v := by
    rw [errorDist_tallyStep]
    by_cases hv : r.correctedVerdict = v
    · rw [← hv, Dict.get?_set_self, h.errorDist, if_pos rfl, if_neg (Nat.succ_ne_zero _)]
      split_ifs with hzero
      · rw [hzero, Option.getD_none]
      · rw [Option.getD_some]
    · have hne : v.value ≠ r.correctedVerdict.value := fun heq =>
        hv (AnalystVerdictCorrection.value_injective heq).symm
      rw [Dict.get?_set_of_ne _ _ hne, h.errorDist, if_neg hv, Nat.add_zero]
  keys key hkey := by
    rw [errorDist_tallyStep, Dict.mem_keys_iff, Dict.get?_set] at hkey
    split_ifs at hkey with hsame
    · exact ⟨r.correctedVerdict, hsame⟩
    · exact h.keys key (Dict.mem_keys_iff.2 hkey)

/-- **After the loop** the counts are those of the records. -/
theorem tallies_foldl (records : List FeedbackRecord) :
    Tallies (records.foldl tallyStep .zero) fun v => records.countP (·.correctedVerdict = v) := by
  induction records using List.reverseRecOn with
  | nil => exact tallies_zero
  | append_singleton records r ih =>
    rw [List.foldl_append, List.foldl_cons, List.foldl_nil]
    have hstep := tallies_step ih r
    simpa only [List.countP_append, List.countP_singleton, decide_eq_true_eq] using hstep

/-! ## The answer -/

/-- A record of the tenant, made in the window. -/
def Counts (tenantId : Uuid) (startTime endTime : ℚ) (r : FeedbackRecord) : Prop :=
  r.tenantId = tenantId ∧ startTime ≤ r.createdAt ∧ r.createdAt ≤ endTime

instance (tenantId : Uuid) (startTime endTime : ℚ) (r : FeedbackRecord) :
    Decidable (Counts tenantId startTime endTime r) :=
  inferInstanceAs (Decidable (_ ∧ _))

/-- The counter of a verdict. -/
def RollingWindowAnalyticsDto.counter (a : RollingWindowAnalyticsDto) : AnalystVerdictCorrection → ℕ
  | .falsePositive => a.falsePositiveCount
  | .falseNegative => a.falseNegativeCount
  | .confirmedClean => a.confirmedCleanCount
  | .confirmedMalicious => a.confirmedMaliciousCount
  | .confirmedSuspicious => a.confirmedSuspiciousCount
  | .benignAnomaly => a.benignAnomalyCount
  | .needsEscalation => a.needsEscalationCount

/-- A rate is that of `part` among `part` and `rest`: `none` if there are none, else at least zero
and at most one. -/
structure IsRate (part rest : ℕ) (q : Option ℚ) : Prop where
  none_iff : q = none ↔ part + rest = 0
  value : ∀ x ∈ q, x * (part + rest : ℕ) = part
  bounds : ∀ x ∈ q, 0 ≤ x ∧ x ≤ 1

/-- **The analytics add up**: samples and counters count the records of the tenant in the window,
the dictionary agrees with the counters, and the rates are rates. -/
structure AddsUp (records : List FeedbackRecord) (tenantId : Uuid) (windowDays : ℤ) (endTime : ℚ)
    (a : RollingWindowAnalyticsDto) : Prop where
  window : a.windowStart = endTime - windowDays * 86400 ∧ a.windowEnd = endTime
  arguments : a.tenantId = tenantId ∧ a.windowDays = windowDays
  samples : a.sampleCount = records.countP (Counts tenantId a.windowStart a.windowEnd)
  counter : ∀ v, a.counter v = records.countP fun r =>
    Counts tenantId a.windowStart a.windowEnd r ∧ r.correctedVerdict = v
  total : a.falsePositiveCount + a.falseNegativeCount + a.confirmedCleanCount +
    a.confirmedMaliciousCount + a.confirmedSuspiciousCount + a.benignAnomalyCount +
    a.needsEscalationCount = a.sampleCount
  distribution : ∀ v : AnalystVerdictCorrection, a.errorDistribution.get? v.value =
    if a.counter v = 0 then none else some (a.counter v)
  keys : ∀ key ∈ a.errorDistribution.keys, ∃ v : AnalystVerdictCorrection, key = v.value
  falsePositiveRate : IsRate a.falsePositiveCount (a.confirmedCleanCount + a.benignAnomalyCount)
    a.falsePositiveRate
  falseNegativeRate : IsRate a.falseNegativeCount
    (a.confirmedMaliciousCount + a.confirmedSuspiciousCount) a.falseNegativeRate

/-- Two answers are equal; the order of a dictionary does not matter for that. -/
structure SameAnalytics (a a' : RollingWindowAnalyticsDto) : Prop where
  fields : { a with errorDistribution := ∅ } = { a' with errorDistribution := ∅ }
  errorDistribution : ∀ key, a.errorDistribution.get? key = a'.errorDistribution.get? key

variable {records records' : List FeedbackRecord} {tenantId : Uuid} {windowDays : ℤ}
  {referenceTime : Option ℚ} {now : ℚ} {a a' : RollingWindowAnalyticsDto}

theorem isRate_rate (part rest : ℕ) : IsRate part rest (rate part rest) := by
  unfold rate
  split_ifs with hpos
  · have hne : ((part + rest : ℕ) : ℚ) ≠ 0 := by positivity
    refine ⟨by simp; omega, ?_, ?_⟩
    · rintro x ⟨⟩
      exact div_mul_cancel₀ _ hne
    · rintro x ⟨⟩
      refine ⟨by positivity, (div_le_one (by positivity)).2 ?_⟩
      exact_mod_cast Nat.le_add_right part rest
  · refine ⟨by simp; omega, ?_, ?_⟩
    · rintro x ⟨⟩
    · rintro x ⟨⟩

/-- Every record has one of the seven verdicts. -/
theorem sum_countP_verdict (records : List FeedbackRecord) :
    records.countP (·.correctedVerdict = .falsePositive) +
      records.countP (·.correctedVerdict = .falseNegative) +
      records.countP (·.correctedVerdict = .confirmedClean) +
      records.countP (·.correctedVerdict = .confirmedMalicious) +
      records.countP (·.correctedVerdict = .confirmedSuspicious) +
      records.countP (·.correctedVerdict = .benignAnomaly) +
      records.countP (·.correctedVerdict = .needsEscalation) = records.length := by
  induction records with
  | nil => rfl
  | cons r records ih =>
    simp only [List.countP_cons, List.length_cons]
    cases r.correctedVerdict <;> simp <;> omega

/-- The records of a window, by one test. -/
theorem filter_filter_counts (records : List FeedbackRecord) (tenantId : Uuid) (startTime endTime : ℚ) :
    ((records.filter fun r => r.tenantId = tenantId).filter fun r =>
      startTime ≤ r.createdAt ∧ r.createdAt ≤ endTime) =
        records.filter (Counts tenantId startTime endTime) := by
  rw [List.filter_filter]
  refine List.filter_congr fun r _ => ?_
  rw [← Bool.decide_and]
  exact decide_eq_decide.2 and_comm

/-- The records that count, for a reference time. -/
def countedRecords (records : List FeedbackRecord) (tenantId : Uuid) (windowDays : ℤ) (endTime : ℚ) :
    List FeedbackRecord :=
  records.filter (Counts tenantId (endTime - windowDays * 86400) endTime)

/-- The window and its start are valid. -/
def ValidWindow (windowDays : ℤ) (endTime : ℚ) : Prop :=
  (1 ≤ windowDays ∧ windowDays ≤ 365) ∧
    datetimeMin ≤ endTime - windowDays * 86400 ∧ endTime - windowDays * 86400 < datetimeEnd

instance (windowDays : ℤ) (endTime : ℚ) : Decidable (ValidWindow windowDays endTime) :=
  inferInstanceAs (Decidable (_ ∧ _))

/-- **The method** reads the records that count, and no others. -/
theorem windowAnalytics_eq (hvalid : ValidWindow windowDays (referenceTime.getD now)) :
    windowAnalytics records tenantId windowDays referenceTime now =
      .ok (analyticsOf tenantId windowDays (referenceTime.getD now - windowDays * 86400)
        (referenceTime.getD now)
        (countedRecords records tenantId windowDays (referenceTime.getD now))) := by
  unfold windowAnalytics countedRecords
  dsimp only
  rw [if_neg (by rw [not_or, not_lt, not_le]; exact hvalid.2), if_pos hvalid.1, filter_filter_counts]

/-- A call with another window fails, whatever the records are. -/
theorem windowAnalytics_of_not_valid (tenantId : Uuid)
    (hvalid : ¬ValidWindow windowDays (referenceTime.getD now)) :
    ∃ e, ∀ records, windowAnalytics records tenantId windowDays referenceTime now = .error e := by
  unfold windowAnalytics
  dsimp only
  by_cases hrange : referenceTime.getD now - windowDays * 86400 < datetimeMin ∨
      datetimeEnd ≤ referenceTime.getD now - windowDays * 86400
  · exact ⟨.overflow, fun records => if_pos hrange⟩
  · rw [not_or, not_lt, not_le] at hrange
    refine ⟨.invalid "window_days", fun records => ?_⟩
    rw [if_neg (by rw [not_or, not_lt, not_le]; exact hrange), if_neg fun hdays => hvalid ⟨hdays, hrange⟩]

theorem counter_analyticsOf (tenantId : Uuid) (windowDays : ℤ) (startTime endTime : ℚ)
    (windowRecords : List FeedbackRecord) (v : AnalystVerdictCorrection) :
    (analyticsOf tenantId windowDays startTime endTime windowRecords).counter v =
      windowRecords.countP (·.correctedVerdict = v) := by
  rw [← (tallies_foldl windowRecords).counter v]
  cases v <;> rfl

/-- The DTO of the records that count adds up. -/
theorem addsUp_analyticsOf (records : List FeedbackRecord) (tenantId : Uuid) (windowDays : ℤ)
    (endTime : ℚ) :
    AddsUp records tenantId windowDays endTime
      (analyticsOf tenantId windowDays (endTime - windowDays * 86400) endTime
        (countedRecords records tenantId windowDays endTime)) where
  window := ⟨rfl, rfl⟩
  arguments := ⟨rfl, rfl⟩
  samples := (List.countP_eq_length_filter ..).symm
  counter v := by
    rw [counter_analyticsOf]
    unfold countedRecords
    rw [List.countP_filter]
    refine List.countP_congr fun r _ => ?_
    rw [Bool.and_eq_true, decide_eq_true_eq, decide_eq_true_eq, decide_eq_true_eq]
    exact and_comm
  total := by
    have hcounter := counter_analyticsOf tenantId windowDays (endTime - windowDays * 86400) endTime
      (countedRecords records tenantId windowDays endTime)
    refine Eq.trans ?_ (sum_countP_verdict (countedRecords records tenantId windowDays endTime))
    rw [← hcounter, ← hcounter, ← hcounter, ← hcounter, ← hcounter, ← hcounter, ← hcounter]
    rfl
  distribution v := by
    rw [counter_analyticsOf]
    exact (tallies_foldl _).errorDist v
  keys := (tallies_foldl _).keys
  falsePositiveRate := isRate_rate _ _
  falseNegativeRate := isRate_rate _ _

/-! ## Order -/

theorem sameAnalytics_of_perm {windowRecords windowRecords' : List FeedbackRecord}
    (hperm : windowRecords.Perm windowRecords') (startTime endTime : ℚ) :
    SameAnalytics (analyticsOf tenantId windowDays startTime endTime windowRecords)
      (analyticsOf tenantId windowDays startTime endTime windowRecords') := by
  have htallies := tallies_foldl windowRecords
  have htallies' := tallies_foldl windowRecords'
  have hcount : ∀ v : AnalystVerdictCorrection, windowRecords.countP (·.correctedVerdict = v) =
      windowRecords'.countP (·.correctedVerdict = v) := fun v => hperm.countP_eq _
  have hcounter : ∀ v, (windowRecords.foldl tallyStep .zero).counter v =
      (windowRecords'.foldl tallyStep .zero).counter v := by
    intro v
    rw [htallies.counter, htallies'.counter, hcount]
  refine ⟨?_, fun key => ?_⟩
  · have hfp := hcounter .falsePositive
    have hfn := hcounter .falseNegative
    have hclean := hcounter .confirmedClean
    have hmal := hcounter .confirmedMalicious
    have hsusp := hcounter .confirmedSuspicious
    have hbenign := hcounter .benignAnomaly
    have hesc := hcounter .needsEscalation
    simp only [WindowTally.counter] at hfp hfn hclean hmal hsusp hbenign hesc
    simp only [analyticsOf, hperm.length_eq, hfp, hfn, hclean, hmal, hsusp, hbenign, hesc]
  · by_cases hkey : ∃ v : AnalystVerdictCorrection, key = v.value
    · obtain ⟨v, rfl⟩ := hkey
      exact ((htallies.errorDist v).trans (by rw [hcount])).trans (htallies'.errorDist v).symm
    · have hnone : ∀ {l : List FeedbackRecord},
          (l.foldl tallyStep .zero).errorDist.get? key = none := by
        intro l
        rw [← Option.not_isSome_iff_eq_none, ← Dict.mem_keys_iff]
        exact fun hmem => hkey ((tallies_foldl l).keys key hmem)
      exact hnone.trans hnone.symm

/-- **Window analytics add up**: a valid window is answered with the counts of the tenant's records
in it, other records change nothing, and their order does not matter. -/
theorem window_analytics_add_up (tenantId : Uuid) (windowDays : ℤ) (referenceTime : Option ℚ)
    (now : ℚ) :
    (ValidWindow windowDays (referenceTime.getD now) → ∀ records, ∃ a,
      windowAnalytics records tenantId windowDays referenceTime now = .ok a ∧
        AddsUp records tenantId windowDays (referenceTime.getD now) a) ∧
    (¬ValidWindow windowDays (referenceTime.getD now) → ∃ e, ∀ records,
      windowAnalytics records tenantId windowDays referenceTime now = .error e) ∧
    (∀ before others after : List FeedbackRecord,
      (∀ r ∈ others, ¬Counts tenantId (referenceTime.getD now - windowDays * 86400)
        (referenceTime.getD now) r) →
      windowAnalytics (before ++ others ++ after) tenantId windowDays referenceTime now =
        windowAnalytics (before ++ after) tenantId windowDays referenceTime now) ∧
    ∀ records records' : List FeedbackRecord, records.Perm records' →
      ∀ a, windowAnalytics records tenantId windowDays referenceTime now = .ok a →
        ∃ a', windowAnalytics records' tenantId windowDays referenceTime now = .ok a' ∧
          SameAnalytics a a' := by
  by_cases hvalid : ValidWindow windowDays (referenceTime.getD now)
  · refine ⟨fun _ records => ?_, fun h => absurd hvalid h, fun before others after hothers => ?_,
      fun records records' hperm a ha => ?_⟩
    · exact ⟨_, windowAnalytics_eq hvalid, addsUp_analyticsOf ..⟩
    · have hnone : others.filter (Counts tenantId (referenceTime.getD now - windowDays * 86400)
          (referenceTime.getD now)) = [] := by
        rw [List.filter_eq_nil_iff]
        intro r hr
        rw [decide_eq_true_eq]
        exact hothers r hr
      rw [windowAnalytics_eq hvalid, windowAnalytics_eq hvalid]
      unfold countedRecords
      rw [List.filter_append, List.filter_append, hnone, List.append_nil, List.filter_append]
    · rw [windowAnalytics_eq hvalid] at ha
      cases ha
      exact ⟨_, windowAnalytics_eq hvalid, sameAnalytics_of_perm (hperm.filter _) _ _⟩
  · obtain ⟨e, he⟩ := windowAnalytics_of_not_valid tenantId hvalid
    refine ⟨fun h => absurd h hvalid, fun _ => ⟨e, he⟩, fun before others after _ => ?_,
      fun records records' _ a ha => ?_⟩
    · rw [he, he]
    · rw [he] at ha
      cases ha

/-- A record of a tenant, with a verdict and a time. -/
def sampleRecord (tenant : ℕ) (correctedVerdict : AnalystVerdictCorrection) (createdAt : ℚ) :
    FeedbackRecord where
  feedbackId := Uuid.ofNat 9
  tenantId := Uuid.ofNat tenant
  accountId := Uuid.ofNat 0
  incidentId := Uuid.ofNat 0
  messageId := "m"
  originalRiskScore := 80
  originalCalibratedProb := 4 / 5
  originalVerdict := .malicious
  originalAction := .quarantined
  correctedVerdict := correctedVerdict
  reasonCategory := .other
  analystId := "ann"
  analystTrustLevel := .seniorAnalyst
  analystNotes := ""
  convergenceApplied := false
  convergenceWeight := 0
  createdAt := createdAt

/-- A false positive and a clean e-mail, with a record of another tenant between them. -/
theorem window_analytics_sample :
    (∃ a, windowAnalytics [sampleRecord 1 .falsePositive 864000, sampleRecord 2 .falseNegative 864000,
        sampleRecord 1 .confirmedClean 900000] (Uuid.ofNat 1) 7 (some 1000000) 0 = .ok a ∧
      AddsUp [sampleRecord 1 .falsePositive 864000, sampleRecord 2 .falseNegative 864000,
        sampleRecord 1 .confirmedClean 900000] (Uuid.ofNat 1) 7 1000000 a) ∧
    (∃ e, ∀ records, windowAnalytics records (Uuid.ofNat 1) 0 (some 1000000) 0 = .error e) ∧
    windowAnalytics ([sampleRecord 1 .falsePositive 864000] ++ [sampleRecord 2 .falseNegative 864000] ++
        [sampleRecord 1 .confirmedClean 900000]) (Uuid.ofNat 1) 7 (some 1000000) 0 =
      windowAnalytics ([sampleRecord 1 .falsePositive 864000] ++
        [sampleRecord 1 .confirmedClean 900000]) (Uuid.ofNat 1) 7 (some 1000000) 0 ∧
    ∃ a a', windowAnalytics [sampleRecord 1 .falsePositive 864000,
        sampleRecord 1 .confirmedClean 900000] (Uuid.ofNat 1) 7 (some 1000000) 0 = .ok a ∧
      windowAnalytics [sampleRecord 1 .confirmedClean 900000,
        sampleRecord 1 .falsePositive 864000] (Uuid.ofNat 1) 7 (some 1000000) 0 = .ok a' ∧
      SameAnalytics a a' := by
  have hvalid : ValidWindow 7 ((some (1000000 : ℚ)).getD 0) := by decide +kernel
  have hinvalid : ¬ValidWindow 0 ((some (1000000 : ℚ)).getD 0) := by decide +kernel
  obtain ⟨hadds, -, hothers, horder⟩ :=
    window_analytics_add_up (Uuid.ofNat 1) 7 (some 1000000) 0
  refine ⟨hadds hvalid _, (window_analytics_add_up (Uuid.ofNat 1) 0 (some 1000000) 0).2.1 hinvalid,
    hothers _ _ _ fun r hr => ?_, ?_⟩
  · rw [List.mem_singleton.1 hr]
    decide +kernel
  · obtain ⟨a, ha, -⟩ := hadds hvalid [sampleRecord 1 .falsePositive 864000,
      sampleRecord 1 .confirmedClean 900000]
    obtain ⟨a', ha', hsame⟩ := horder _ _ (List.Perm.swap ..) a ha
    exact ⟨a, a', ha, ha', hsame⟩

end ScamOn.Feedback
