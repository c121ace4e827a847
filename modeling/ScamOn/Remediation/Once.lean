import ScamOn.Remediation.Dispatcher

/-!
# At most one effect

A request that has taken effect is not to be carried out again.  What stands in the way of a
second execution is the record of the first, if it is filed as a success.

* `dispatchFresh_executions` says what is filed after an execution that reported success: a
  success, a failure whose verification failed, or nothing if the verification raised.
* `Settled` is the invariant of a run: every execution that reported success has left such a
  record, and no request has two.
* `once_of_noUnverifiedRetry` is the law along runs.  It needs that no request is carried out
  again after a verification that failed, which `quarantined_twice` shows to be possible.
-/

namespace ScamOn.Remediation

/-! ## Requests -/

/-- What is asked for. -/
structure Request where
  tenantId : Uuid
  incidentId : Uuid
  targetId : String
  requestedAction : ActionTaken
  deriving DecidableEq

/-- The key of a request. -/
def Request.key (sha256 : String → String) (q : Request) : String :=
  idempotencyKey sha256 q.tenantId q.incidentId q.targetId q.requestedAction

def DispatchCall.request (c : DispatchCall) : Request :=
  ⟨c.tenantId, c.incidentId, c.targetId, c.requestedAction⟩

def Execution.request (x : Execution) : Request :=
  ⟨x.tenantId, x.incidentId, x.targetId, x.requestedAction⟩

/-! ## What one call does -/

/-- The record of an action that was carried out and could not be verified. -/
def RemediationResult.Unverified (r : RemediationResult) : Prop :=
  r.actionStatus = .failed ∧ r.verificationStatus = "VERIFICATION_FAILED"

/-- The latest record of the key is a success. -/
def AuditRepository.Answers (repo : AuditRepository) (key : String) : Prop :=
  ∃ r, repo.records.find? (·.idempotencyKey = key) = some r ∧ r.Effective

/-- A call that gets as far as an adapter, which reports success: the policy lets it through, it is no
dry run, and some adapter supports the action. -/
structure RemediationDispatcher.CarriesOut (d : RemediationDispatcher) (c : DispatchCall) : Prop where
  approved : ∀ status ∈ [ActionStatus.rejected, .failedPermanently, .pendingApproval],
    (evaluateActionPolicy d.policyEngine c.policyCall).2.status ≠ status
  real : ¬c.isDryRun
  adapter : ∃ a, d.adapters.find? (·.supportsAction
    (evaluateActionPolicy d.policyEngine c.policyCall).2.action) = some a
  succeeds : ∃ refId errMsg, c.executeAnswer = .ok (true, refId, errMsg)

variable {sha256 : String → String} {d : RemediationDispatcher} {repo : AuditRepository}
  {c : DispatchCall} {key : String}

theorem answers_iff (tenantId : Uuid) :
    repo.Answers key ↔ ∃ r, repo.getByIdempotencyKey tenantId key = some r ∧ r.Effective := by
  unfold AuditRepository.Answers AuditRepository.getByIdempotencyKey
  cases repo.records.find? (·.idempotencyKey = key) with
  | none => simp
  | some r => simp [RemediationResult.Effective]

/-- A request that is answered changes nothing. -/
theorem dispatch_of_answers (h : repo.Answers (c.key sha256)) :
    ∃ r, dispatchRemediation sha256 d repo c = ⟨d, repo, [], .ok r⟩ := by
  obtain ⟨r, hget, heff⟩ := (answers_iff c.tenantId).1 h
  refine ⟨r, ?_⟩
  unfold dispatchRemediation
  simp only [hget]
  rw [if_pos heff]

theorem dispatch_of_not_answers (h : ¬repo.Answers (c.key sha256)) :
    dispatchRemediation sha256 d repo c = dispatchFresh d repo (c.key sha256) c := by
  unfold dispatchRemediation
  cases hget : repo.getByIdempotencyKey c.tenantId (c.key sha256) with
  | none => rfl
  | some r =>
    simp only []
    rw [if_neg fun heff => h ((answers_iff c.tenantId).2 ⟨r, hget, heff⟩)]

/-- What is on file after an execution that reported success. -/
def Accounts (repo repo' : AuditRepository) (key : String) (c : DispatchCall) : Prop :=
  (∃ exc, c.verifyAnswer = .error exc) ∨
    ∃ r, repo' = repo.save r ∧ r.idempotencyKey = key ∧ (r.Effective ∨ r.Unverified)

theorem executeAndVerify_executions {dto : RemediationResult} {a : Adapter}
    (hkey : dto.idempotencyKey = key) {x : Execution}
    (hx : x ∈ (executeAndVerify d repo c dto a).executions) (hsuccess : x.success = true) :
    (∃ refId errMsg, c.executeAnswer = .ok (true, refId, errMsg)) ∧
      (executeAndVerify d repo c dto a).executions = [x] ∧ x.request = c.request ∧
      Accounts repo (executeAndVerify d repo c dto a).auditRepo key c := by
  unfold executeAndVerify at hx ⊢
  rcases hexecute : c.executeAnswer with exc | ⟨_ | _, refId, errMsg⟩
  · simp only [hexecute, List.mem_singleton] at hx
    rw [hx] at hsuccess
    cases hsuccess
  · simp only [hexecute, commit, List.mem_singleton] at hx
    rw [hx] at hsuccess
    cases hsuccess
  · rcases hverify : c.verifyAnswer with exc | ⟨_ | _, verMsg⟩
    · simp only [hexecute, hverify, List.mem_singleton] at hx ⊢
      exact ⟨⟨refId, errMsg, rfl⟩, by rw [hx], by rw [hx]; rfl, .inl ⟨exc, hverify⟩⟩
    · simp only [hexecute, hverify, commit, List.mem_singleton] at hx ⊢
      exact ⟨⟨refId, errMsg, rfl⟩, by rw [hx], by rw [hx]; rfl,
        .inr ⟨_, rfl, hkey, .inr ⟨rfl, rfl⟩⟩⟩
    · simp only [hexecute, hverify, commit, List.mem_singleton] at hx ⊢
      exact ⟨⟨refId, errMsg, rfl⟩, by rw [hx], by rw [hx]; rfl,
        .inr ⟨_, rfl, hkey, .inl (.inl rfl)⟩⟩

/-- **An execution that reported success** is the only one of its call, and leaves a record
unless its verification raised. -/
theorem dispatchFresh_executions {x : Execution} (hx : x ∈ (dispatchFresh d repo key c).executions)
    (hsuccess : x.success = true) :
    d.CarriesOut c ∧ (dispatchFresh d repo key c).executions = [x] ∧ x.request = c.request ∧
      Accounts repo (dispatchFresh d repo key c).auditRepo key c := by
  unfold dispatchFresh at hx ⊢
  rcases hdecision : evaluateActionPolicy d.policyEngine c.policyCall with ⟨e, decision⟩
  simp only [hdecision] at hx ⊢
  split_ifs at hx ⊢ with hstop hdry
  · simp [commit] at hx
  · simp [commit] at hx
  · cases hfind : d.adapters.find? (·.supportsAction decision.action) with
    | none => simp [hfind, commit] at hx
    | some a =>
      simp only [hfind] at hx ⊢
      obtain ⟨hsucceeds, haccounts⟩ := executeAndVerify_executions rfl hx hsuccess
      refine ⟨⟨?_, hdry, ⟨a, by rw [hdecision]; exact hfind⟩, hsucceeds⟩, haccounts⟩
      rw [hdecision]
      simpa using hstop

/-- A request that is not answered files nothing, or one record of its key. -/
theorem dispatchFresh_files (d : RemediationDispatcher) (repo : AuditRepository) (key : String)
    (c : DispatchCall) :
    (dispatchFresh d repo key c).auditRepo = repo ∨
      ∃ r, (dispatchFresh d repo key c).auditRepo = repo.save r ∧ r.idempotencyKey = key := by
  rcases dispatchFresh_cases d repo key c with ⟨-, hrepo, -⟩ | ⟨r, hrepo, -, hkey, -⟩
  · exact .inl hrepo
  · exact .inr ⟨r, hrepo, hkey⟩

/-! ## Runs -/

section Deployment

variable {ι : Type} [DecidableEq ι]

/-- No request was carried out twice. -/
def Deployment.AtMostOnce (w : Deployment ι) : Prop :=
  ∀ request : Request, w.executions.countP (fun x => x.success && x.request = request) ≤ 1

/-- A call that is to be carried out, and is, finds no record of an unverified execution
under its key, and its own verification does not raise. -/
def NoUnverifiedRetry (sha256 : String → String) (w : Deployment ι) (call : ι × DispatchCall) : Prop :=
  ¬w.auditRepo.Answers (call.2.key sha256) → (w.dispatchers call.1).CarriesOut call.2 →
    (∀ r ∈ w.auditRepo.records, r.idempotencyKey = call.2.key sha256 → ¬r.Unverified) ∧
      ∃ answer, call.2.verifyAnswer = .ok answer

/-- A request is settled: its latest record is a success, or one of its records is of an
execution that could not be verified. -/
def AuditRepository.Settles (repo : AuditRepository) (key : String) : Prop :=
  repo.Answers key ∨ ∃ r ∈ repo.records, r.idempotencyKey = key ∧ r.Unverified

/-- **The invariant**: every request that was carried out is settled, and no other one was
carried out twice. -/
structure Deployment.Settled (sha256 : String → String) (w : Deployment ι) : Prop where
  filed : ∀ x ∈ w.executions, x.success = true → w.auditRepo.Settles (x.request.key sha256)
  once : w.AtMostOnce

omit [DecidableEq ι] in
theorem settled_init (dispatchers : ι → RemediationDispatcher) :
    (Deployment.init dispatchers).Settled sha256 where
  filed := by simp [Deployment.init]
  once := by simp [Deployment.AtMostOnce, Deployment.init]

/-- A record of a request that is not answered unsettles nothing. -/
theorem settles_save {r : RemediationResult} (h : repo.Settles key)
    (hnot : r.idempotencyKey = key → ¬repo.Answers key) : (repo.save r).Settles key := by
  rcases h with ⟨r', hfind, heff⟩ | ⟨r', hr', hkey, hunverified⟩
  · refine .inl ⟨r', ?_, heff⟩
    have hne : r.idempotencyKey ≠ key := fun heq => hnot heq ⟨r', hfind, heff⟩
    rw [AuditRepository.save, List.find?_cons_of_neg (by simpa using hne), hfind]
  · exact .inr ⟨r', List.mem_cons_of_mem _ hr', hkey, hunverified⟩

/-- The record of an execution that reported success settles its request. -/
theorem settles_of_accounts {repo' : AuditRepository} (h : Accounts repo repo' key c)
    (hverify : ∃ answer, c.verifyAnswer = .ok answer) : repo'.Settles key := by
  rcases h with ⟨exc, hraised⟩ | ⟨r, rfl, hkey, heff | hunverified⟩
  · obtain ⟨answer, hanswer⟩ := hverify
    rw [hraised] at hanswer
    cases hanswer
  · exact .inl ⟨r, List.find?_cons_of_pos (by simpa using hkey), heff⟩
  · exact .inr ⟨r, List.mem_cons_self .., hkey, hunverified⟩

/-- What was settled before a call is settled after it. -/
theorem settles_dispatch (sha256 : String → String) (d : RemediationDispatcher) (c : DispatchCall)
    (h : repo.Settles key) : (dispatchRemediation sha256 d repo c).auditRepo.Settles key := by
  by_cases hanswers : repo.Answers (c.key sha256)
  · obtain ⟨r, ho⟩ := dispatch_of_answers (d := d) hanswers
    rw [ho]
    exact h
  · rw [dispatch_of_not_answers hanswers]
    rcases dispatchFresh_files d repo (c.key sha256) c with hrepo | ⟨r, hrepo, hkey⟩
    · rw [hrepo]
      exact h
    · rw [hrepo]
      exact settles_save h fun heq => by rwa [← heq, hkey]

/-- **A call keeps the invariant** if it is no retry of an unverified execution. -/
theorem settled_step (w : Deployment ι) (call : ι × DispatchCall) (hw : w.Settled sha256)
    (hretry : NoUnverifiedRetry sha256 w call) : (w.step sha256 call).1.Settled sha256 := by
  set o := dispatchRemediation sha256 (w.dispatchers call.1) w.auditRepo call.2 with ho
  have hkept : ∀ x ∈ w.executions, x.success = true →
      o.auditRepo.Settles (x.request.key sha256) :=
    fun x hx hsuccess => settles_dispatch sha256 _ call.2 (hw.filed x hx hsuccess)
  by_cases hnew : ∃ x ∈ o.executions, x.success = true
  · obtain ⟨x, hx, hsuccess⟩ := hnew
    have hanswers : ¬w.auditRepo.Answers (call.2.key sha256) := by
      intro hanswers
      obtain ⟨r, ho'⟩ := dispatch_of_answers (d := w.dispatchers call.1) hanswers
      rw [ho, ho'] at hx
      cases hx
    rw [ho, dispatch_of_not_answers hanswers] at hx
    obtain ⟨hcarried, hone, hrequest, haccounts⟩ := dispatchFresh_executions hx hsuccess
    rw [← dispatch_of_not_answers hanswers, ← ho] at hone haccounts
    obtain ⟨hunverified, hverify⟩ := hretry hanswers hcarried
    -- an earlier execution of this request would have settled it, one way or the other
    have hfirst : ∀ x' ∈ w.executions, ¬(x'.success = true ∧ x'.request = call.2.request) := by
      rintro x' hx' ⟨hsuccess', hrequest'⟩
      have hsettles := hw.filed x' hx' hsuccess'
      rw [hrequest'] at hsettles
      rcases hsettles with hanswers' | ⟨r, hr, hkey, hr'⟩
      · exact hanswers hanswers'
      · exact hunverified r hr hkey hr'
    constructor
    · intro x' hx' hsuccess'
      rw [Deployment.step, ← ho, hone] at hx'
      rcases List.mem_append.1 hx' with hx' | hx'
      · exact hkept x' hx' hsuccess'
      · obtain rfl : x' = x := by simpa using hx'
        rw [hrequest]
        exact settles_of_accounts haccounts hverify
    · intro request
      have honce := hw.once request
      rw [Deployment.step, ← ho, hone]
      simp only [List.countP_append, List.countP_singleton, hsuccess, hrequest, Bool.true_and,
        decide_eq_true_eq]
      split_ifs with heq
      · have hzero : w.executions.countP (fun x => x.success && x.request = request) = 0 := by
          rw [List.countP_eq_zero]
          intro x' hx'
          have hnot := hfirst x' hx'
          rw [heq] at hnot
          simpa using hnot
        omega
      · omega
  · have hnone : ∀ x ∈ o.executions, ¬x.success = true := fun x hx h => hnew ⟨x, hx, h⟩
    constructor
    · intro x hx hsuccess
      rw [Deployment.step, ← ho] at hx
      rcases List.mem_append.1 hx with hx | hx
      · exact hkept x hx hsuccess
      · exact absurd hsuccess (hnone x hx)
    · intro request
      have hzero : o.executions.countP (fun x => x.success && x.request = request) = 0 := by
        rw [List.countP_eq_zero]
        intro x hx
        simp [hnone x hx]
      have honce := hw.once request
      rw [Deployment.step, ← ho]
      simp only [List.countP_append, hzero]
      omega

/-- **A request takes effect at most once.**  In every run over one audit repository in which
no request is carried out again after an execution that could not be verified, and no
verification raises, no request is carried out twice.  A collision of hashes would only keep
another request from being carried out. -/
theorem once_of_noUnverifiedRetry (sha256 : String → String)
    (dispatchers : ι → RemediationDispatcher) (calls : List (ι × DispatchCall))
    (h : Machine.Always (Deployment.step sha256) (NoUnverifiedRetry sha256)
      (Deployment.init dispatchers) calls) :
    Machine.Always (Deployment.step sha256) (fun w call => (w.step sha256 call).1.AtMostOnce)
      (Deployment.init dispatchers) calls :=
  Machine.always_of_inv settled_step (fun w call hw hC => (settled_step w call hw hC).once)
    (settled_init dispatchers) h

end Deployment

/-! ## A retry after a verification that failed -/

/-- A quarantine that the adapter carries out, with this answer to the verification. -/
def quarantineVerified (answer : Bool × String) : DispatchCall :=
  { sampleQuarantine false with verifyAnswer := .ok answer }

/-- Two quarantines of which the first is verified: the second gets its record. -/
theorem once_sampleQuarantine :
    Machine.Always (Deployment.step sampleSha256)
      (fun w call => (w.step sampleSha256 call).1.AtMostOnce)
      (Deployment.init fun _ : Unit => sampleDispatcher)
      [((), quarantineVerified (true, "VERIFIED_MAILBOX_SUCCESS")),
        ((), quarantineVerified (true, "VERIFIED_MAILBOX_SUCCESS"))] := by
  refine once_of_noUnverifiedRetry _ _ _ ⟨?_, ?_, trivial⟩
  · intro _ _
    exact ⟨by simp [Deployment.init], _, rfl⟩
  · intro hnot
    refine absurd ?_ hnot
    set w := ((Deployment.init fun _ : Unit => sampleDispatcher).step sampleSha256
      ((), quarantineVerified (true, "VERIFIED_MAILBOX_SUCCESS"))).1 with hw
    rw [answers_iff (.ofNat 1)]
    have hfiled : (w.auditRepo.getByIdempotencyKey (.ofNat 1)
        ((sampleQuarantine false).key sampleSha256)).map (·.actionStatus) = some .verified := by
      rw [hw]; decide +kernel
    obtain ⟨r, hget, hstatus⟩ := Option.map_eq_some_iff.1 hfiled
    exact ⟨r, hget, .inl hstatus⟩

/-- The first quarantine is carried out and not verified, so the second is carried out too. -/
theorem quarantined_twice :
    ¬Machine.Always (Deployment.step sampleSha256)
      (fun w call => (w.step sampleSha256 call).1.AtMostOnce)
      (Deployment.init fun _ : Unit => sampleDispatcher)
      [((), quarantineVerified (false, "MESSAGE_NOT_FOUND")),
        ((), quarantineVerified (true, "VERIFIED_MAILBOX_SUCCESS"))] := by
  rintro ⟨-, h, -⟩
  have hone := h (sampleQuarantine false).request
  revert hone
  decide +kernel

end ScamOn.Remediation
