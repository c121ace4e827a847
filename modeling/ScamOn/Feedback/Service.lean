import Mathlib.Algebra.Order.AbsoluteValue.Basic
import Mathlib.Data.Finset.Order
import Mathlib.Data.Fintype.Basic
import Mathlib.Logic.Function.Basic
import Mathlib.Tactic.Linarith
import ScamOn.Feedback.Convergence
import ScamOn.Lib.PyValue
import ScamOn.Lib.Rounding
import ScamOn.Remediation.PolicyEngine

/-!
# Submitting feedback

`AnalystFeedbackService.submit_feedback` files an analyst's verdict on an
incident, unless the same analyst has filed one on it in the last five minutes.
The call awaits three operations: the incident is fetched, recent feedback is
looked for, the new record is saved.  Any number of calls may be under way, and
the others go on while one waits.

* `buildRecord` is what a call works out of the incident and its arguments.
* `serviceStep` is one move of one call: an awaited operation is carried out, or
  the call resumes and runs up to its next `await`.
* `one_verdict_per_window`: no two verdicts of one analyst on one incident are
  less than five minutes apart, as long as no check falls between the check and
  the save of another call for the same analyst and incident.
* `double_verdict`: otherwise both calls save.
-/

namespace ScamOn.Feedback

open Remediation (ActionTaken)

/-! ## Data -/

/-- `Verdict`. -/
inductive Verdict
  | clean | suspicious | malicious
  deriving DecidableEq, Repr

def Verdict.value : Verdict → String
  | .clean => "CLEAN"
  | .suspicious => "SUSPICIOUS"
  | .malicious => "MALICIOUS"

/-- `FeedbackReasonCategory`. -/
inductive FeedbackReasonCategory
  | legitimateMarketing | internalCommunication | misconfiguredSpfDkim | authorizedExternalVendor
  | falsePositiveKeyword | obfuscatedMaliciousLink | qrCodeCredentialPhish | vipImpersonation
  | other
  deriving DecidableEq, Repr

/-- `AnalystTrustLevel`. -/
inductive AnalystTrustLevel
  | juniorAnalyst | seniorAnalyst | leadSocAdmin
  deriving DecidableEq, Repr

def AnalystTrustLevel.value : AnalystTrustLevel → String
  | .juniorAnalyst => "JUNIOR_ANALYST"
  | .seniorAnalyst => "SENIOR_ANALYST"
  | .leadSocAdmin => "LEAD_SOC_ADMIN"

/-- The attributes of an incident that the service looks at, as far as it has them.
`accountId` is there if the attribute is a `UUID`. -/
structure IncidentRecord where
  tenantId : Option Uuid
  riskScore : Option PyValue
  calibratedProbability : Option PyValue
  verdict : Option PyValue
  actionTaken : Option PyValue
  accountId : Option Uuid
  messageId : Option PyValue
  deriving DecidableEq

/-- `AnalystFeedbackSubmissionDTO`: the fields the service reads. -/
structure FeedbackSubmission where
  messageId : String
  correctedVerdict : AnalystVerdictCorrection
  reasonCategory : FeedbackReasonCategory
  analystNotes : String
  deriving DecidableEq

/-- `AuthenticatedAnalystDTO`, with the fields a submission reads. -/
structure SubmittingAnalyst extends AuthenticatedAnalyst where
  email : String
  trustLevel : Option AnalystTrustLevel

/-- The arguments of `submit_feedback`. -/
structure SubmitCall where
  incidentId : Uuid
  submission : FeedbackSubmission
  caller : SubmittingAnalyst

/-- `AnalystFeedbackRecordDTO`.  The time is in seconds. -/
structure FeedbackRecord where
  feedbackId : Uuid
  tenantId : Uuid
  accountId : Uuid
  incidentId : Uuid
  messageId : String
  originalRiskScore : ℤ
  originalCalibratedProb : ℚ
  originalVerdict : Verdict
  originalAction : ActionTaken
  correctedVerdict : AnalystVerdictCorrection
  reasonCategory : FeedbackReasonCategory
  analystId : String
  analystTrustLevel : AnalystTrustLevel
  analystNotes : String
  convergenceApplied : Bool
  convergenceWeight : ℚ
  createdAt : ℚ
  deriving DecidableEq

/-- What leaves a call that fails. -/
inductive FeedbackError
  | incidentNotFound (message : String)
  | duplicate (existingFeedbackId : Uuid) (message : String)
  /-- The record does not validate, by the names of the fields at fault. -/
  | invalidRecord (fields : List String)
  | raised (exception : PyException)
  deriving DecidableEq

/-- `float` of a text, and `RiskScoreCalibrator.calibrate`. -/
structure Numerics where
  floatOfStr : String → Option PyNumber
  calibrate : ℤ → Except PyException ℚ

/-! ## The record -/

/-- `float(v)`; an integer beyond the largest double is refused. -/
def floatOf (x : Numerics) : PyValue → Except PyException PyNumber
  | .bool b => .ok (.finite (if b then 1 else 0))
  | .int n =>
    if 2 ^ 1024 - 2 ^ 970 ≤ n.natAbs then
      .error ⟨"OverflowError", "int too large to convert to float"⟩
    else .ok (.finite n)
  | .float r => .ok r
  | .str s =>
    match x.floatOfStr s with
    | some r => .ok r
    | none => .error ⟨"ValueError", "could not convert string to float"⟩
  | .other typeName =>
    .error ⟨"TypeError", "float() argument must be a string or a real number, not '" ++ typeName ++ "'"⟩

/-- `max(0.0, min(1.0, r))`; NaN is less than nothing. -/
def clampProb : PyNumber → ℚ
  | .finite q => max 0 (min 1 q)
  | .inf => 1
  | .negInf => 0
  | .nan => 1

/-- The capital of a letter, which for a ligature is several letters. -/
def capitals (c : Char) : List Char :=
  match c with
  | 'ß' => ['S', 'S']
  | 'ﬀ' => ['F', 'F']
  | 'ﬁ' => ['F', 'I']
  | 'ﬂ' => ['F', 'L']
  | 'ﬃ' => ['F', 'F', 'I']
  | 'ﬄ' => ['F', 'F', 'L']
  | 'ﬅ' => ['S', 'T']
  | 'ﬆ' => ['S', 'T']
  | c => [upperChar c]

/-- `s.upper()`, on the characters whose capitals are ASCII letters.  No other character takes
part in an occurrence of one of the names that texts are compared with. -/
def upper (s : String) : String := String.ofList (s.toList.flatMap capitals)

/-- `"SENIOR" in s.upper()`. -/
def mentionsSenior (s : String) : Bool := Text.contains (upper s) "SENIOR"

/-- The trust level of the caller. -/
def analystTrust (caller : SubmittingAnalyst) : AnalystTrustLevel :=
  match caller.trustLevel with
  | some level => level
  | none =>
    if isAdminRole caller.role then .leadSocAdmin
    else if mentionsSenior caller.analystId || mentionsSenior caller.email then .seniorAnalyst
    else .juniorAnalyst

/-- `int(getattr(incident, "risk_score", 0))`, between 0 and 100. -/
def originalScore (incident : IncidentRecord) : Except PyException ℤ :=
  (PyValue.intOf (incident.riskScore.getD (.int 0))).map fun n => max 0 (min 100 n)

/-- The probability on record, or else that of the score. -/
def originalProb (x : Numerics) (incident : IncidentRecord) (score : ℤ) : Except PyException ℚ :=
  match incident.calibratedProbability with
  | none => x.calibrate score
  | some (.other "NoneType") => x.calibrate score
  | some v => (floatOf x v).map clampProb

/-- `Verdict(raw)`, or `CLEAN`. -/
def originalVerdict (incident : IncidentRecord) : Verdict :=
  ([Verdict.clean, .suspicious, .malicious].find? fun v =>
    incident.verdict = some (.str v.value)).getD .clean

/-- `ActionTaken(raw)`, or `DELIVERED`. -/
def originalAction (incident : IncidentRecord) : ActionTaken :=
  ([ActionTaken.delivered, .quarantined, .retracted, .bannerInjected, .blocked, .pending].find?
    fun v => incident.actionTaken = some (.str v.value)).getD .delivered

/-- The message id, if it is a text of 1 to 512 characters. -/
def recordMessageId (incident : IncidentRecord) (submission : FeedbackSubmission) : Option String :=
  match incident.messageId.getD (.str submission.messageId) with
  | .str s => if 1 ≤ s.length ∧ s.length ≤ 512 then some s else none
  | _ => none

/-- The fields of a record that do not validate. -/
def recordFaults (messageId : Option String) (prob : ℚ) (analystId : String) : List String :=
  (if messageId.isSome then [] else ["message_id"]) ++
    (if 0 ≤ prob ∧ prob ≤ 1 then [] else ["original_calibrated_prob"]) ++
    if analystId = "" then ["analyst_id"] else []

/-- From the trust level to the constructed record. -/
def buildRecord (x : Numerics) (c : SubmitCall) (incident : IncidentRecord) (feedbackId : Uuid)
    (now : ℚ) : Except FeedbackError FeedbackRecord :=
  let level := analystTrust c.caller
  match originalScore incident with
  | .error e => .error (.raised e)
  | .ok score =>
    match originalProb x incident score with
    | .error e => .error (.raised e)
    | .ok prob =>
      let messageId := recordMessageId incident c.submission
      let faults := recordFaults messageId prob c.caller.analystId
      if faults ≠ [] then .error (.invalidRecord faults)
      else
        .ok {
          feedbackId := feedbackId
          tenantId := c.caller.tenantId
          accountId := incident.accountId.getD c.incidentId
          incidentId := c.incidentId
          messageId := messageId.getD ""
          originalRiskScore := score
          originalCalibratedProb := prob
          originalVerdict := originalVerdict incident
          originalAction := originalAction incident
          correctedVerdict := c.submission.correctedVerdict
          reasonCategory := c.submission.reasonCategory
          analystId := c.caller.analystId
          analystTrustLevel := level
          analystNotes := c.submission.analystNotes
          convergenceApplied := false
          convergenceWeight := trustWeight level.value
          createdAt := now }

/-! ## The storage -/

/-- `get_recent_analyst_feedback`: the latest record of the analyst on the incident, if it is
within the window. -/
def getRecentAnalystFeedback (records : List FeedbackRecord) (tenantId : Uuid) (analystId : String)
    (incidentId : Uuid) (windowSeconds now : ℚ) : Option FeedbackRecord :=
  records.reverse.find? fun r =>
    r.tenantId = tenantId ∧ r.analystId = analystId ∧ r.incidentId = incidentId ∧
      now - windowSeconds ≤ r.createdAt

/-- `save_record`. -/
def saveRecord (records : List FeedbackRecord) (record : FeedbackRecord) : List FeedbackRecord :=
  records ++ [record]

/-! ## Calls under way -/

/-- Where a call stands. -/
inductive Phase
  | idle
  | fetching
  | fetched (answer : Except PyException (Option IncidentRecord))
  | checking (incident : IncidentRecord)
  | checked (incident : IncidentRecord) (recent : Option FeedbackRecord)
  | saving (record : FeedbackRecord)
  | saved (record : FeedbackRecord)
  | finished (outcome : Except FeedbackError FeedbackRecord)
  deriving DecidableEq

/-- The storage, and the phase of every call. -/
structure FeedbackSystem (ι : Type*) where
  records : List FeedbackRecord
  phase : ι → Phase

/-- What happens next to a call. -/
inductive ServiceMove (ι : Type*)
  /-- The call is made. -/
  | start (i : ι)
  /-- `get_incident` answers, or raises. -/
  | fetch (i : ι) (answer : Except PyException (Option IncidentRecord))
  /-- The call resumes with the incident. -/
  | validate (i : ι)
  /-- `get_recent_analyst_feedback` is carried out. -/
  | check (i : ι)
  /-- The call resumes with the recent feedback. -/
  | build (i : ι) (feedbackId : Uuid)
  /-- `save_record` is carried out. -/
  | save (i : ι)
  /-- The call resumes after the save, publishes the event and returns. -/
  | finish (i : ι)

structure ServiceAction (ι : Type*) where
  now : ℚ
  move : ServiceMove ι

/-- The incident is there, and of the caller's tenant. -/
def validateIncident (c : SubmitCall) : Except PyException (Option IncidentRecord) → Phase
  | .error e => .finished (.error (.raised e))
  | .ok none => .finished (.error (.incidentNotFound
      ("Incident " ++ c.incidentId.str ++ " not found or inaccessible")))
  | .ok (some incident) =>
    if incident.tenantId = some c.caller.tenantId then .checking incident
    else .finished (.error (.incidentNotFound
      ("Incident " ++ c.incidentId.str ++ " not found or inaccessible")))

/-- A duplicate is refused, else a record is built. -/
def buildOrRefuse (x : Numerics) (c : SubmitCall) (incident : IncidentRecord)
    (recent : Option FeedbackRecord) (feedbackId : Uuid) (now : ℚ) : Phase :=
  match recent with
  | some r => .finished (.error (.duplicate r.feedbackId
      ("Duplicate feedback submission within 5-minute window for incident " ++ c.incidentId.str)))
  | none =>
    match buildRecord x c incident feedbackId now with
    | .error e => .finished (.error e)
    | .ok record => .saving record

section Service

variable {ι : Type*} [DecidableEq ι] (x : Numerics) (args : ι → SubmitCall)

/-- The answer of the storage to the check of a call. -/
def recentFeedback (s : FeedbackSystem ι) (now : ℚ) (i : ι) : Option FeedbackRecord :=
  getRecentAnalystFeedback s.records (args i).caller.tenantId (args i).caller.analystId
    (args i).incidentId 300 now

/-- A call gets to its next phase. -/
def FeedbackSystem.goTo (s : FeedbackSystem ι) (i : ι) (p : Phase) : FeedbackSystem ι :=
  { s with phase := Function.update s.phase i p }

/-- One move; a move that does not fit the phase of its call does nothing. -/
def serviceStep (s : FeedbackSystem ι) (a : ServiceAction ι) : FeedbackSystem ι × Unit :=
  match a.move with
  | .start i =>
    match s.phase i with
    | .idle => (s.goTo i .fetching, ())
    | _ => (s, ())
  | .fetch i answer =>
    match s.phase i with
    | .fetching => (s.goTo i (.fetched answer), ())
    | _ => (s, ())
  | .validate i =>
    match s.phase i with
    | .fetched answer => (s.goTo i (validateIncident (args i) answer), ())
    | _ => (s, ())
  | .check i =>
    match s.phase i with
    | .checking incident => (s.goTo i (.checked incident (recentFeedback args s a.now i)), ())
    | _ => (s, ())
  | .build i feedbackId =>
    match s.phase i with
    | .checked incident recent =>
      (s.goTo i (buildOrRefuse x (args i) incident recent feedbackId a.now), ())
    | _ => (s, ())
  | .save i =>
    match s.phase i with
    | .saving record => ({ s.goTo i (.saved record) with records := saveRecord s.records record }, ())
    | _ => (s, ())
  | .finish i =>
    match s.phase i with
    | .saved record => (s.goTo i (.finished (.ok record)), ())
    | _ => (s, ())

/-- An empty storage, and no call made yet. -/
def FeedbackSystem.init : FeedbackSystem ι := ⟨[], fun _ => .idle⟩

end Service

/-! ## What a record says -/

/-- Who filed it, and on what. -/
def SubmitCall.key (c : SubmitCall) : Uuid × String × Uuid :=
  (c.caller.tenantId, c.caller.analystId, c.incidentId)

def FeedbackRecord.key (r : FeedbackRecord) : Uuid × String × Uuid :=
  (r.tenantId, r.analystId, r.incidentId)

theorem originalScore_bounded {incident : IncidentRecord} {score : ℤ}
    (h : originalScore incident = .ok score) : 0 ≤ score ∧ score ≤ 100 := by
  unfold originalScore at h
  cases hint : PyValue.intOf (incident.riskScore.getD (.int 0)) with
  | error e =>
    rw [hint] at h
    cases h
  | ok n =>
    rw [hint] at h
    cases h
    show 0 ≤ max 0 (min 100 n) ∧ max 0 (min 100 n) ≤ 100
    omega

/-- **A record that is built is in order**: it is filed under the call's key and the clock's
time, and its score, probability and texts are within their limits. -/
theorem buildRecord_eq_ok {x : Numerics} {c : SubmitCall} {incident : IncidentRecord}
    {feedbackId : Uuid} {now : ℚ} {r : FeedbackRecord}
    (h : buildRecord x c incident feedbackId now = .ok r) :
    r.key = c.key ∧ r.createdAt = now ∧ r.feedbackId = feedbackId ∧
      (0 ≤ r.originalRiskScore ∧ r.originalRiskScore ≤ 100) ∧
      (0 ≤ r.originalCalibratedProb ∧ r.originalCalibratedProb ≤ 1) ∧
      r.analystId ≠ "" ∧ 1 ≤ r.messageId.length ∧ r.messageId.length ≤ 512 := by
  unfold buildRecord at h
  cases hscore : originalScore incident with
  | error e => simp [hscore] at h
  | ok score =>
    cases hprob : originalProb x incident score with
    | error e => simp [hscore, hprob] at h
    | ok prob =>
      simp only [hscore, hprob] at h
      split_ifs at h with hfaults
      cases h
      have hnil : recordFaults (recordMessageId incident c.submission) prob c.caller.analystId = [] :=
        by simpa using hfaults
      simp only [recordFaults, List.append_eq_nil_iff, ite_eq_left_iff, ite_eq_right_iff,
        List.cons_ne_nil, imp_false, not_not] at hnil
      obtain ⟨⟨hmessage, hbounds⟩, hanalyst⟩ := hnil
      obtain ⟨text, htext⟩ := Option.isSome_iff_exists.1 hmessage
      have hlength : 1 ≤ text.length ∧ text.length ≤ 512 := by
        unfold recordMessageId at htext
        split at htext
        · split_ifs at htext with hfits
          cases htext
          exact hfits
        · cases htext
      refine ⟨rfl, rfl, rfl, originalScore_bounded hscore, hbounds, hanalyst, ?_⟩
      show 1 ≤ ((recordMessageId incident c.submission).getD "").length ∧ _
      rw [htext]
      exact hlength

/-- A check that finds nothing has looked at every record of the key. -/
theorem getRecentAnalystFeedback_eq_none {records : List FeedbackRecord} {t : Uuid} {analyst : String}
    {incident : Uuid} {window now : ℚ}
    (h : getRecentAnalystFeedback records t analyst incident window now = none) :
    ∀ r ∈ records, r.key = (t, analyst, incident) → r.createdAt + window < now := by
  intro r hr hkey
  have hnot := List.find?_eq_none.1 h r (List.mem_reverse.2 hr)
  simp only [FeedbackRecord.key, Prod.mk.injEq] at hkey
  simp only [hkey, true_and, decide_eq_true_eq, not_le] at hnot
  linarith

/-! ## One verdict per window -/

/-- Records of one key lie five minutes apart. -/
def OncePerWindow (records : List FeedbackRecord) : Prop :=
  records.Pairwise fun r r' => r.key = r'.key → 300 ≤ |r.createdAt - r'.createdAt|

instance (records : List FeedbackRecord) : Decidable (OncePerWindow records) :=
  inferInstanceAs (Decidable (records.Pairwise _))

/-- The call has passed its check, and has not saved yet. -/
def Phase.Pending : Phase → Prop
  | .checked _ none => True
  | .saving _ => True
  | _ => False

instance : ∀ p : Phase, Decidable p.Pending
  | .idle | .fetching | .fetched _ | .checking _ | .saved _ | .finished _ => isFalse id
  | .checked _ none | .saving _ => isTrue trivial
  | .checked _ (some _) => isFalse id

section Schedule

variable {ι : Type*} [DecidableEq ι] (x : Numerics) (args : ι → SubmitCall)

/-- No check comes between the check and the save of another call for the same key. -/
def ChecksAlone (s : FeedbackSystem ι) (a : ServiceAction ι) : Prop :=
  match a.move with
  | .check i => ∀ j, j ≠ i → (args j).key = (args i).key → ¬(s.phase j).Pending
  | _ => True

instance [Fintype ι] (s : FeedbackSystem ι) (a : ServiceAction ι) : Decidable (ChecksAlone args s a) := by
  unfold ChecksAlone
  split
  · infer_instance
  · infer_instance

/-- The earliest moment at which the record of a pending call may be created: the moment
it was, or else the present. -/
def Phase.creation (now : ℚ) : Phase → ℚ
  | .saving record => record.createdAt
  | _ => now

/-- What holds between the moves: pending calls are alone with their key, and every record of
the key is old enough for theirs. -/
structure Spaced (now : ℚ) (s : FeedbackSystem ι) : Prop where
  records_apart : OncePerWindow s.records
  alone : ∀ i j, (s.phase i).Pending → (s.phase j).Pending → (args i).key = (args j).key → i = j
  clear : ∀ i, (s.phase i).Pending → ∀ r ∈ s.records, r.key = (args i).key →
    r.createdAt + 300 < (s.phase i).creation now
  saving_key : ∀ i record, s.phase i = .saving record → record.key = (args i).key

/-- **What a move can do.** -/
inductive Moved (s : FeedbackSystem ι) (a : ServiceAction ι) : FeedbackSystem ι → Prop
  | nothing : Moved s a s
  | settles (i : ι) (p : Phase) (hp : ¬p.Pending) : Moved s a (s.goTo i p)
  | checks (i : ι) (incident : IncidentRecord) (hmove : a.move = .check i) :
      Moved s a (s.goTo i (.checked incident (recentFeedback args s a.now i)))
  | builds (i : ι) (incident : IncidentRecord) (feedbackId : Uuid) (record : FeedbackRecord)
      (hphase : s.phase i = .checked incident none)
      (hrecord : buildRecord x (args i) incident feedbackId a.now = .ok record) :
      Moved s a (s.goTo i (.saving record))
  | saves (i : ι) (record : FeedbackRecord) (hphase : s.phase i = .saving record) :
      Moved s a { s.goTo i (.saved record) with records := saveRecord s.records record }

theorem moved_serviceStep (s : FeedbackSystem ι) (a : ServiceAction ι) :
    Moved x args s a (serviceStep x args s a).1 := by
  unfold serviceStep
  cases hmove : a.move with
  | start i =>
    dsimp only
    split
    · exact .settles i _ id
    · exact .nothing
  | fetch i answer =>
    dsimp only
    split
    · exact .settles i _ id
    · exact .nothing
  | validate i =>
    dsimp only
    split
    · next answer _ =>
      apply Moved.settles
      unfold validateIncident
      rcases answer with e | ⟨_ | incident⟩
      · exact id
      · exact id
      · dsimp only
        split_ifs
        · exact id
        · exact id
    · exact .nothing
  | check i =>
    dsimp only
    split
    · next incident _ => exact .checks i incident hmove
    · exact .nothing
  | build i feedbackId =>
    dsimp only
    split
    · next incident recent hphase =>
      cases recent with
      | some r => exact .settles i _ id
      | none =>
        unfold buildOrRefuse
        cases hrecord : buildRecord x (args i) incident feedbackId a.now with
        | error e => exact .settles i _ id
        | ok record => exact .builds i incident feedbackId record hphase hrecord
    · exact .nothing
  | save i =>
    dsimp only
    split
    · next record hphase => exact .saves i record hphase
    · exact .nothing
  | finish i =>
    dsimp only
    split
    · exact .settles i _ id
    · exact .nothing

variable {x args} {s : FeedbackSystem ι} {now : ℚ}

omit [DecidableEq ι] in
theorem Spaced.mono {now' : ℚ} (h : Spaced args now s) (hle : now ≤ now') : Spaced args now' s where
  records_apart := h.records_apart
  alone := h.alone
  clear i hi r hr hkey := by
    have hold := h.clear i hi r hr hkey
    cases hphase : s.phase i with
    | saving record => simpa [hphase, Phase.creation] using hold
    | _ =>
      rw [hphase] at hold
      exact lt_of_lt_of_le hold hle
  saving_key := h.saving_key

theorem phase_goTo (s : FeedbackSystem ι) (i j : ι) (p : Phase) :
    (s.goTo i p).phase j = if j = i then p else s.phase j :=
  Function.update_apply ..

/-- A call that comes to no record leaves the others as they are. -/
theorem Spaced.settle (h : Spaced args now s) (i : ι) {p : Phase} (hp : ¬p.Pending) :
    Spaced args now (s.goTo i p) := by
  have hother : ∀ j, ((s.goTo i p).phase j).Pending → (s.goTo i p).phase j = s.phase j := by
    intro j hj
    rw [phase_goTo] at hj ⊢
    split_ifs at hj ⊢
    · exact absurd hj hp
    · rfl
  constructor
  · exact h.records_apart
  · intro j k hj hk hkey
    apply h.alone j k _ _ hkey
    · exact hother j hj ▸ hj
    · exact hother k hk ▸ hk
  · intro j hj r hr hkey
    rw [hother j hj]
    exact h.clear j (hother j hj ▸ hj) r hr hkey
  · intro j record hj
    apply h.saving_key j record
    rw [← hother j (by rw [hj]; trivial), hj]

/-- A check that finds nothing makes its call the one that is pending for the key. -/
theorem Spaced.check (h : Spaced args now s) {i : ι} {incident : IncidentRecord}
    (hnone : recentFeedback args s now i = none)
    (halone : ∀ j, j ≠ i → (args j).key = (args i).key → ¬(s.phase j).Pending) :
    Spaced args now (s.goTo i (.checked incident none)) := by
  have hpending : ∀ j, j ≠ i → ((s.goTo i (.checked incident none)).phase j).Pending →
      (s.phase j).Pending := by
    intro j hne hj
    rwa [phase_goTo, if_neg hne] at hj
  constructor
  · exact h.records_apart
  · intro j k hj hk hkey
    by_cases hji : j = i
    · by_cases hki : k = i
      · rw [hji, hki]
      · exact absurd (hpending k hki hk) (halone k hki (by rw [← hkey, hji]))
    · by_cases hki : k = i
      · exact absurd (hpending j hji hj) (halone j hji (by rw [hkey, hki]))
      · exact h.alone j k (hpending j hji hj) (hpending k hki hk) hkey
  · intro j hj r hr hkey
    by_cases hji : j = i
    · rw [phase_goTo, if_pos hji]
      rw [hji] at hkey
      exact getRecentAnalystFeedback_eq_none hnone r hr hkey
    · have hold := h.clear j (hpending j hji hj) r hr hkey
      rwa [phase_goTo, if_neg hji]
  · intro j record hj
    rw [phase_goTo] at hj
    split_ifs at hj
    exact h.saving_key j record hj

/-- The record of a pending call is created now. -/
theorem Spaced.build (h : Spaced args now s) {i : ι} {incident : IncidentRecord} {feedbackId : Uuid}
    {record : FeedbackRecord} (hphase : s.phase i = .checked incident none)
    (hrecord : buildRecord x (args i) incident feedbackId now = .ok record) :
    Spaced args now (s.goTo i (.saving record)) := by
  obtain ⟨hkey, hcreated, -⟩ := buildRecord_eq_ok hrecord
  have hpending : ∀ j, ((s.goTo i (.saving record)).phase j).Pending → (s.phase j).Pending := by
    intro j hj
    rw [phase_goTo] at hj
    split_ifs at hj with hji
    · rw [hji, hphase]
      trivial
    · exact hj
  constructor
  · exact h.records_apart
  · intro j k hj hk
    exact h.alone j k (hpending j hj) (hpending k hk)
  · intro j hj r hr hrkey
    have hold := h.clear j (hpending j hj) r hr hrkey
    rw [phase_goTo]
    split_ifs with hji
    · rw [hji, hphase] at hold
      show r.createdAt + 300 < record.createdAt
      rw [hcreated]
      exact hold
    · exact hold
  · intro j record' hj
    rw [phase_goTo] at hj
    split_ifs at hj with hji
    · cases hj
      rw [hji]
      exact hkey
    · exact h.saving_key j record' hj

/-- The record of the pending call is far enough from those on file. -/
theorem Spaced.save (h : Spaced args now s) {i : ι} {record : FeedbackRecord}
    (hphase : s.phase i = .saving record) :
    Spaced args now { s.goTo i (.saved record) with records := saveRecord s.records record } := by
  have hpending : (s.phase i).Pending := by
    rw [hphase]
    trivial
  have hkey := h.saving_key i record hphase
  have hsettled := h.settle i (p := .saved record) id
  have hclear : ∀ r ∈ s.records, r.key = record.key → r.createdAt + 300 < record.createdAt := by
    intro r hr hrkey
    have hold := h.clear i hpending r hr (hrkey.trans hkey)
    rwa [hphase] at hold
  constructor
  · show (s.records ++ [record]).Pairwise _
    refine List.pairwise_append.2 ⟨h.records_apart, List.pairwise_singleton _ _, ?_⟩
    intro r hr r' hr' hrkey
    rw [List.mem_singleton.1 hr'] at hrkey ⊢
    have hlt := hclear r hr hrkey
    rw [abs_sub_comm, le_abs]
    left
    linarith
  · exact hsettled.alone
  · intro j hj r hr hrkey
    rcases List.mem_append.1 hr with hold | hnew
    · exact hsettled.clear j hj r hold hrkey
    · -- no other call is pending for the key of the record
      exfalso
      rw [List.mem_singleton.1 hnew] at hrkey
      have hji : j ≠ i := by
        rintro rfl
        exact absurd hj (by simp [phase_goTo, Phase.Pending])
      have hjold : (s.phase j).Pending := by
        have hj' : ((s.goTo i (.saved record)).phase j).Pending := hj
        rwa [phase_goTo, if_neg hji] at hj'
      exact hji (h.alone j i hjold hpending (hrkey.symm.trans hkey))
  · exact hsettled.saving_key

theorem Spaced.step {a : ServiceAction ι} (h : Spaced args a.now s) (hC : ChecksAlone args s a) :
    Spaced args a.now (serviceStep x args s a).1 := by
  have hmoved := moved_serviceStep x args s a
  generalize (serviceStep x args s a).1 = s' at hmoved
  cases hmoved with
  | nothing => exact h
  | settles i p hp => exact h.settle i hp
  | checks i incident hmove =>
    unfold ChecksAlone at hC
    rw [hmove] at hC
    cases hrecent : recentFeedback args s a.now i with
    | none => exact h.check hrecent hC
    | some r => exact h.settle i id
  | builds i incident feedbackId record hphase hrecord => exact h.build hphase hrecord
  | saves i record hphase => exact h.save hphase

omit [DecidableEq ι] in
theorem spaced_init (now : ℚ) : Spaced args now (FeedbackSystem.init : FeedbackSystem ι) where
  records_apart := List.Pairwise.nil
  alone i j hi := hi.elim
  clear i hi := hi.elim
  saving_key i record hi := by cases hi

variable (x args)

/-- **One verdict per analyst and incident in five minutes**, in every run in which no check
comes between the check and the save of another call for the same analyst and incident. -/
theorem one_verdict_per_window (as : List (ServiceAction ι))
    (hsorted : as.Pairwise fun a b => a.now ≤ b.now)
    (hC : Machine.Always (serviceStep x args) (ChecksAlone args) .init as) :
    OncePerWindow (Machine.run (serviceStep x args) .init as).records := by
  obtain ⟨now, hnow⟩ : ∃ now : ℚ, ∀ a ∈ as, a.now ≤ now := by
    obtain ⟨m, hm⟩ := (as.map ServiceAction.now).toFinset.exists_le
    exact ⟨m, fun a ha => hm _ (by simpa using ⟨a, ha, rfl⟩)⟩
  have hinv := Machine.timed_inv_run (I := fun now s => Spaced args now s)
    (fun _ _ s h hle => h.mono hle) (fun s a h hC => h.step (x := x) hC)
    (fun a _ => spaced_init a.now) (spaced_init now) hnow hsorted hC
  exact hinv.records_apart

end Schedule

/-! ### Two verdicts of one analyst -/

/-- A low-risk incident of the first tenant. -/
def sampleIncident : IncidentRecord where
  tenantId := some (Uuid.ofNat 1)
  riskScore := some (.int 5)
  calibratedProbability := none
  verdict := some (.str "CLEAN")
  actionTaken := none
  accountId := none
  messageId := some (.str "msg_7")

/-- The analyst's verdict on it. -/
def sampleSubmit : SubmitCall where
  incidentId := Uuid.ofNat 7
  submission := ⟨"msg_7", .falseNegative, .vipImpersonation, ""⟩
  caller := ⟨⟨"ana", Uuid.ofNat 1, "ANALYST"⟩, "ana@corp.local", none⟩

/-- No text is read as a number here, and a score of 5 has the probability 0.0266. -/
def sampleNumerics : Numerics := ⟨fun _ => none, fun _ => .ok (133 / 5000)⟩

/-- The moves of a call from its start to its check, and from there to its end. -/
def upToCheck {ι : Type*} (now : ℚ) (i : ι) : List (ServiceAction ι) :=
  [⟨now, .start i⟩, ⟨now, .fetch i (.ok (some sampleIncident))⟩, ⟨now, .validate i⟩, ⟨now, .check i⟩]

def fromCheck {ι : Type*} (now : ℚ) (i : ι) (feedbackId : Uuid) : List (ServiceAction ι) :=
  [⟨now, .build i feedbackId⟩, ⟨now, .save i⟩, ⟨now, .finish i⟩]

/-- A second verdict ten minutes after the first. -/
theorem one_verdict_per_window_ten_minutes :
    OncePerWindow (Machine.run (serviceStep sampleNumerics fun _ : Bool => sampleSubmit) .init
      (upToCheck 0 false ++ fromCheck 1 false (Uuid.ofNat 21) ++
        (upToCheck 600 true ++ fromCheck 601 true (Uuid.ofNat 22)))).records :=
  one_verdict_per_window sampleNumerics (fun _ : Bool => sampleSubmit) _ (by decide +kernel)
    (by decide +kernel)

/-- **Check, check, save, save.**  Both calls look for recent feedback before either has saved,
and two verdicts of one analyst on one incident are on file, created at the same moment. -/
theorem double_verdict :
    (upToCheck 0 false ++ upToCheck 0 true ++ (fromCheck 1 false (Uuid.ofNat 21) ++
        fromCheck 1 true (Uuid.ofNat 22))).Pairwise
      (fun a b : ServiceAction Bool => a.now ≤ b.now) ∧
    ¬OncePerWindow (Machine.run (serviceStep sampleNumerics fun _ : Bool => sampleSubmit) .init
      (upToCheck 0 false ++ upToCheck 0 true ++ (fromCheck 1 false (Uuid.ofNat 21) ++
        fromCheck 1 true (Uuid.ofNat 22)))).records := by
  constructor
  · decide +kernel
  · decide +kernel

end ScamOn.Feedback
