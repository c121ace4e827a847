import ScamOn.Common.LeaseLock

/-!
# Lease locks over a client that falls back to memory

`AsyncRedisClient` sends its commands to a remote Redis.  When a call raises, it
repeats the command on an in-memory client of its own and, from then on, uses
that one.  Locks that share such a client may therefore hold leases from two
stores.

* `Cluster` is the client, its two stores and the lock objects that use it; a
  call of a lock object goes through the phases of the source's awaits, and a
  remote call may raise with or without having been carried out.
* `cluster_exclusive`: at most one object at a time holds an unexpired lease of
  either store; at most one holds a lease at all in runs that never grant a lease
  of one store while another object holds one of the other, and so in every run
  without failures.
* `two_leases` is a run with one failure after which two objects hold leases.
-/

namespace ScamOn.Common

open DistributedTenantLock

/-! ## The client -/

/-- The store that carries out a command. -/
inductive Backend
  | remote | fallback
  deriving DecidableEq, Repr

/-- `AsyncRedisClient` with `fallback_to_memory`: whether a connection object
exists, whether the client is degraded, and the two stores. -/
structure AsyncRedisClient where
  redisConn : Bool
  isDegraded : Bool
  remote : Store
  fallback : Store

def AsyncRedisClient.store (c : AsyncRedisClient) : Backend → Store
  | .remote => c.remote
  | .fallback => c.fallback

/-- A command on one of the stores.  The remote one is the reference store, in
which expired keys are absent. -/
def AsyncRedisClient.exec (c : AsyncRedisClient) (a : TimedOp) : Backend → AsyncRedisClient × Reply
  | .remote => ({ c with remote := (referenceStep c.remote a).1 }, (referenceStep c.remote a).2)
  | .fallback => ({ c with fallback := (step c.fallback a).1 }, (step c.fallback a).2)

/-! ## Locks that share it -/

/-- A call of a lock object: an attempt of the acquire loop, or a release. -/
inductive LockCall
  | acquire | release
  deriving DecidableEq, Repr

/-- Where a lock object is: outside any call, in `_get_conn` with a ping under
way, in a remote call, or in the handler of a remote call that raised. -/
inductive Phase
  | idle
  | pinging (c : LockCall)
  | calling (c : LockCall)
  | failed (c : LockCall)
  deriving DecidableEq, Repr

/-- The object is in a release. -/
def Phase.Releasing (p : Phase) : Prop :=
  p = .pinging .release ∨ p = .calling .release ∨ p = .failed .release

instance (p : Phase) : Decidable p.Releasing := inferInstanceAs (Decidable (_ ∨ _ ∨ _))

/-- The client and the lock objects over it.  `since` and `grantedBy` record the
last successful `SET` of each object. -/
structure Cluster (ι : Type*) where
  client : AsyncRedisClient
  phase : ι → Phase
  acquired : ι → Bool
  since : ι → ℚ
  grantedBy : ι → Backend

/-- What happens next to a lock object. -/
inductive ClusterMove (ι : Type*)
  /-- The object makes a call. -/
  | start (i : ι) (c : LockCall)
  /-- The ping of a new connection returns, or raises. -/
  | ping (i : ι) (ok : Bool)
  /-- The remote call is carried out and returns. -/
  | reply (i : ι)
  /-- The remote call raises, after it was carried out or without. -/
  | lose (i : ι) (executed : Bool)
  /-- The handler turns to the fallback client. -/
  | fall (i : ι)

structure ClusterAction (ι : Type*) where
  now : ℚ
  move : ClusterMove ι

section Cluster

variable {ι : Type*} [DecidableEq ι] (locks : ι → DistributedTenantLock)

/-- The command of a call. -/
def callOp (i : ι) : LockCall → Op
  | .acquire => (locks i).setOp
  | .release => (locks i).releaseOp

/-- A store carries out the command of a call, and the call returns.  The answer
says who was granted a lease by which store. -/
def finishOn (b : Backend) (y : Cluster ι) (now : ℚ) (i : ι) (c : LockCall) :
    Cluster ι × Option (ι × Backend) :=
  let result := y.client.exec ⟨now, callOp locks i c⟩ b
  let y' : Cluster ι := { y with client := result.1, phase := Function.update y.phase i .idle }
  match c with
  | .acquire =>
    if result.2 = .flag true then
      ({ y' with
          acquired := Function.update y.acquired i true
          since := Function.update y.since i now
          grantedBy := Function.update y.grantedBy i b }, some (i, b))
    else (y', none)
  | .release => ({ y' with acquired := Function.update y.acquired i false }, none)

/-- `acquire` and `release` down to the point where `_get_conn` has chosen. -/
def startCall (y : Cluster ι) (now : ℚ) (i : ι) (c : LockCall) : Cluster ι × Option (ι × Backend) :=
  if y.phase i ≠ .idle then (y, none)
  else if c = .release ∧ y.acquired i = false then (y, none)
  else if y.client.isDegraded then finishOn locks .fallback y now i c
  else if y.client.redisConn then
    ({ y with phase := Function.update y.phase i (.calling c) }, none)
  else
    ({ y with
        client := { y.client with redisConn := true }
        phase := Function.update y.phase i (.pinging c) }, none)

/-- `_is_degraded = flag`. -/
def setDegraded (y : Cluster ι) (flag : Bool) : Cluster ι :=
  { y with client := { y.client with isDegraded := flag } }

/-- One move; a move that does not fit the phase of its object does nothing. -/
def clusterStep (y : Cluster ι) (a : ClusterAction ι) : Cluster ι × Option (ι × Backend) :=
  match a.move with
  | .start i c => startCall locks y a.now i c
  | .ping i ok =>
    match y.phase i with
    | .pinging c =>
      if ok then
        ({ setDegraded y false with phase := Function.update y.phase i (.calling c) }, none)
      else finishOn locks .fallback (setDegraded y true) a.now i c
    | _ => (y, none)
  | .reply i =>
    match y.phase i with
    | .calling c => finishOn locks .remote y a.now i c
    | _ => (y, none)
  | .lose i executed =>
    match y.phase i with
    | .calling c =>
      ({ y with
          client :=
            if executed then (y.client.exec ⟨a.now, callOp locks i c⟩ .remote).1 else y.client
          phase := Function.update y.phase i (.failed c) }, none)
    | _ => (y, none)
  | .fall i =>
    match y.phase i with
    | .failed c => finishOn locks .fallback (setDegraded y true) a.now i c
    | _ => (y, none)

/-- A client that has not connected yet, and locks nobody has acquired. -/
def Cluster.init : Cluster ι where
  client := ⟨false, false, ∅, ∅⟩
  phase := fun _ => .idle
  acquired := fun _ => false
  since := fun _ => 0
  grantedBy := fun _ => .remote

/-- The object has acquired the lock, has not begun to release it, and its lease
has not run out. -/
def Cluster.Holds (y : Cluster ι) (i : ι) (now : ℚ) : Prop :=
  y.acquired i = true ∧ ¬(y.phase i).Releasing ∧ now ≤ (locks i).leaseEnd (y.since i)

instance (y : Cluster ι) (i : ι) (now : ℚ) : Decidable (y.Holds locks i now) :=
  inferInstanceAs (Decidable (_ ∧ _ ∧ _))

/-- The move does not grant a lease while another object holds an unexpired one
of the other store. -/
def GrantsAlone (y : Cluster ι) (a : ClusterAction ι) : Prop :=
  ∀ i b, (clusterStep locks y a).2 = some (i, b) →
    ∀ j, j ≠ i → y.Holds locks j a.now → y.grantedBy j = b

/-- Each store backs the unexpired leases it has granted. -/
def Cluster.Backed (key : String) (now : ℚ) (y : Cluster ι) : Prop :=
  ∀ b, Backs locks key (y.client.store b) now
    (fun i => y.Holds locks i now ∧ y.grantedBy i = b) y.since

/-! ## What a command does to the leases of a store -/

variable {locks} {key : String} {y : Cluster ι} {now : ℚ}

omit [DecidableEq ι] in
theorem Backs.purge {s : Store} {holds : ι → Prop} {since : ι → ℚ}
    (h : Backs locks key s now holds since) : Backs locks key (purge now s) now holds since := by
  intro i hi
  refine ⟨(h i hi).1, ?_⟩
  rw [get?_purge]
  exact h.liveEntry_eq hi

theorem store_exec_of_ne (c : AsyncRedisClient) (a : TimedOp) {b b' : Backend} (h : b' ≠ b) :
    (c.exec a b).1.store b' = c.store b' := by
  cases b with
  | remote =>
    cases b' with
    | remote => exact absurd rfl h
    | fallback => rfl
  | fallback =>
    cases b' with
    | remote => rfl
    | fallback => exact absurd rfl h

omit [DecidableEq ι] in
/-- Either store runs the command on entries that back the same leases. -/
theorem exec_eq_step (h : y.Backed locks key now) (op : Op) (b : Backend) :
    ∃ s, Backs locks key s now (fun i => y.Holds locks i now ∧ y.grantedBy i = b) y.since ∧
      (y.client.exec ⟨now, op⟩ b).1.store b = (step s ⟨now, op⟩).1 ∧
      (y.client.exec ⟨now, op⟩ b).2 = (step s ⟨now, op⟩).2 := by
  cases b with
  | remote => exact ⟨Common.purge now y.client.remote, (h .remote).purge, rfl, rfl⟩
  | fallback => exact ⟨y.client.fallback, h .fallback, rfl, rfl⟩

omit [DecidableEq ι] in
/-- A call of one object leaves the leases of the others, and its own unless it
is a release. -/
theorem exec_keeps (hkey : ∀ i, (locks i).lockKey = key)
    (hinj : Function.Injective fun i => (locks i).ownerToken) (h : y.Backed locks key now)
    {i j : ι} {c : LockCall} {b : Backend} (hj : y.Holds locks j now ∧ y.grantedBy j = b)
    (hne : c = .release → j ≠ i) :
    ((y.client.exec ⟨now, callOp locks i c⟩ b).1.store b).get? key =
      some ((locks j).leaseEntry (y.since j)) := by
  obtain ⟨s, hs, hstore, -⟩ := exec_eq_step h (callOp locks i c) b
  rw [hstore]
  cases c with
  | acquire =>
    rcases hs.setOp_cases hkey i with ⟨-, hkept⟩ | ⟨-, hfree, -⟩
    · exact (hkept j hj).2
    · exact absurd hj (hfree j)
  | release => exact (hs.get?_releaseOp hkey hinj (hne rfl) hj).trans (hs j hj).2

omit [DecidableEq ι] in
theorem exec_grants (hkey : ∀ i, (locks i).lockKey = key) (h : y.Backed locks key now) {i : ι}
    {b : Backend} (hreply : (y.client.exec ⟨now, callOp locks i .acquire⟩ b).2 = .flag true) :
    ((y.client.exec ⟨now, callOp locks i .acquire⟩ b).1.store b).get? key =
      some ((locks i).leaseEntry now) := by
  obtain ⟨s, hs, hstore, hsame⟩ := exec_eq_step h (callOp locks i .acquire) b
  rw [hstore]
  rw [hsame] at hreply
  rcases hs.setOp_cases hkey i with ⟨hfalse, -⟩ | ⟨-, -, hentry⟩
  · rw [callOp, hfalse] at hreply
    cases hreply
  · exact hentry

/-! ## Where leases come from -/

/-- `j` keeps in `y'` the lease it has in `y`. -/
def SameLease (y y' : Cluster ι) (j : ι) : Prop :=
  y'.since j = y.since j ∧ y'.grantedBy j = y.grantedBy j

/-- Whoever holds a lease after a call was granted it by that call, or held it. -/
theorem finishOn_holds {b : Backend} {i j : ι} {c : LockCall} {t : ℚ}
    (hphase : c = .acquire → ¬(y.phase i).Releasing)
    (hj : (finishOn locks b y now i c).1.Holds locks j t) :
    (j = i ∧ c = .acquire ∧ (y.client.exec ⟨now, callOp locks i c⟩ b).2 = .flag true ∧
      (finishOn locks b y now i c).2 = some (i, b) ∧
      (finishOn locks b y now i c).1.since i = now ∧
      (finishOn locks b y now i c).1.grantedBy i = b) ∨
    (y.Holds locks j t ∧ SameLease y (finishOn locks b y now i c).1 j ∧
      (c = .release → j ≠ i)) := by
  by_cases hji : j = i
  · subst hji
    cases c with
    | release => simp [finishOn, Cluster.Holds] at hj
    | acquire =>
      by_cases hreply : (y.client.exec ⟨now, callOp locks j .acquire⟩ b).2 = .flag true
      · left
        simp [finishOn, hreply]
      · right
        simp only [finishOn, if_neg hreply, Cluster.Holds] at hj ⊢
        exact ⟨⟨hj.1, hphase rfl, hj.2.2⟩, ⟨rfl, rfl⟩, by simp⟩
  · right
    cases c with
    | release =>
      simp only [finishOn, Cluster.Holds, Function.update_of_ne hji] at hj ⊢
      exact ⟨hj, ⟨rfl, rfl⟩, fun _ => hji⟩
    | acquire =>
      by_cases hreply : (y.client.exec ⟨now, callOp locks i .acquire⟩ b).2 = .flag true
      · simp only [finishOn, if_pos hreply, Cluster.Holds, Function.update_of_ne hji] at hj ⊢
        exact ⟨hj, ⟨by simp [hji], by simp [hji]⟩, by simp⟩
      · simp only [finishOn, if_neg hreply, Cluster.Holds, Function.update_of_ne hji] at hj ⊢
        exact ⟨hj, ⟨rfl, rfl⟩, by simp⟩

theorem finishOn_store (b : Backend) (i : ι) (c : LockCall) (b' : Backend) :
    (finishOn locks b y now i c).1.client.store b' =
      (y.client.exec ⟨now, callOp locks i c⟩ b).1.store b' := by
  cases c with
  | release => rfl
  | acquire =>
    unfold finishOn
    simp only
    split_ifs
    · rfl
    · rfl

theorem finishOn_backed (hkey : ∀ i, (locks i).lockKey = key)
    (hinj : Function.Injective fun i => (locks i).ownerToken) (h : y.Backed locks key now)
    (b : Backend) (i : ι) (c : LockCall) (hphase : c = .acquire → ¬(y.phase i).Releasing) :
    (finishOn locks b y now i c).1.Backed locks key now := by
  intro b' j hj
  refine ⟨hj.1.2.2, ?_⟩
  rw [finishOn_store]
  rcases finishOn_holds hphase hj.1 with
    ⟨rfl, rfl, hreply, -, hsince, hby⟩ | ⟨hold, hsame, hne⟩
  · obtain rfl : b' = b := hj.2.symm.trans hby
    rw [hsince]
    exact exec_grants hkey h hreply
  · rw [hsame.1]
    have hby : y.grantedBy j = b' := hsame.2.symm.trans hj.2
    by_cases hb : b' = b
    · subst hb
      exact exec_keeps hkey hinj h ⟨hold, hby⟩ hne
    · rw [store_exec_of_ne _ _ hb]
      exact (h b' j ⟨hold, hby⟩).2

/-! ## What a move can do -/

/-- The leases of `y'` are those of `y`, or fewer. -/
structure NoNewLease (y y' : Cluster ι) : Prop where
  acquired : y'.acquired = y.acquired
  since : y'.since = y.since
  grantedBy : y'.grantedBy = y.grantedBy
  releasing : ∀ i, (y.phase i).Releasing → (y'.phase i).Releasing

/-- What a move comes to: it finishes a call on one of the stores, or it changes
no store and grants nothing, or it carries out a remote call that then raises. -/
inductive MoveResult (locks : ι → DistributedTenantLock) (now : ℚ) (y : Cluster ι) :
    Cluster ι × Option (ι × Backend) → Prop
  | finish (b : Backend) (flag : Bool) (i : ι) (c : LockCall)
      (hphase : c = .acquire → ¬(y.phase i).Releasing) :
      MoveResult locks now y (finishOn locks b (setDegraded y flag) now i c)
  | quiet (y' : Cluster ι) (hnew : NoNewLease y y')
      (hstore : ∀ b, y'.client.store b = y.client.store b) : MoveResult locks now y (y', none)
  | lost (y' : Cluster ι) (hnew : NoNewLease y y') (i : ι) (c : LockCall)
      (hphase : c = .release → (y.phase i).Releasing)
      (hclient : y'.client = (y.client.exec ⟨now, callOp locks i c⟩ .remote).1) :
      MoveResult locks now y (y', none)

theorem noNewLease_phase (client : AsyncRedisClient) {i : ι} {p : Phase}
    (hp : (y.phase i).Releasing → p.Releasing) :
    NoNewLease y { y with client := client, phase := Function.update y.phase i p } := by
  refine ⟨rfl, rfl, rfl, fun j hj => ?_⟩
  by_cases hji : j = i
  · subst hji
    simpa using hp hj
  · simpa [Function.update_of_ne hji] using hj

theorem startCall_result (y : Cluster ι) (now : ℚ) (i : ι) (c : LockCall) :
    MoveResult locks now y (startCall locks y now i c) := by
  have hsame : NoNewLease y y := ⟨rfl, rfl, rfl, fun _ h => h⟩
  unfold startCall
  split_ifs with hphase hguard hdegraded hconn
  · exact .quiet y hsame fun _ => rfl
  · exact .quiet y hsame fun _ => rfl
  all_goals
    have hnot : ¬(y.phase i).Releasing := by
      rw [not_not.1 hphase]
      decide
  · exact .finish .fallback y.client.isDegraded i c fun _ => hnot
  · exact .quiet _ (noNewLease_phase _ fun h => absurd h hnot) fun _ => rfl
  · refine .quiet _ (noNewLease_phase _ fun h => absurd h hnot) fun b => ?_
    cases b with
    | remote => rfl
    | fallback => rfl

theorem clusterStep_result (y : Cluster ι) (a : ClusterAction ι) :
    MoveResult locks a.now y (clusterStep locks y a) := by
  obtain ⟨now, move⟩ := a
  have hquiet : MoveResult locks now y (y, none) :=
    .quiet y ⟨rfl, rfl, rfl, fun _ h => h⟩ fun _ => rfl
  have hacquire : ∀ {i : ι} {c : LockCall} {p : LockCall → Phase},
      p = .pinging ∨ p = .calling ∨ p = .failed → y.phase i = p c →
      (c = .acquire → ¬(y.phase i).Releasing) ∧ (c = .release ↔ (y.phase i).Releasing) := by
    rintro i c p hp hphase
    rw [hphase]
    rcases hp with rfl | rfl | rfl <;> cases c <;> decide
  cases move with
  | start i c => exact startCall_result y now i c
  | ping i ok =>
    unfold clusterStep
    simp only
    split
    · rename_i c hphase
      split_ifs
      · refine .quiet _ (noNewLease_phase _ fun h => ?_) fun b => ?_
        · have hrelease := (hacquire (.inl rfl) hphase).2.2 h
          rw [hrelease]
          decide
        · cases b with
          | remote => rfl
          | fallback => rfl
      · exact .finish .fallback true i c (hacquire (.inl rfl) hphase).1
    · exact hquiet
  | reply i =>
    unfold clusterStep
    simp only
    split
    · rename_i c hphase
      exact .finish .remote y.client.isDegraded i c (hacquire (.inr (.inl rfl)) hphase).1
    · exact hquiet
  | lose i executed =>
    unfold clusterStep
    simp only
    split
    · rename_i c hphase
      have hphases := hacquire (.inr (.inl rfl)) hphase
      have hfailed : (y.phase i).Releasing → (Phase.failed c).Releasing := by
        intro h
        rw [hphases.2.2 h]
        decide
      cases executed with
      | true => exact .lost _ (noNewLease_phase _ hfailed) i c hphases.2.1 rfl
      | false => exact .quiet _ (noNewLease_phase _ hfailed) fun _ => rfl
    · exact hquiet
  | fall i =>
    unfold clusterStep
    simp only
    split
    · rename_i c hphase
      exact .finish .fallback true i c (hacquire (.inr (.inr rfl)) hphase).1
    · exact hquiet

omit [DecidableEq ι] in
theorem NoNewLease.holds {y' : Cluster ι} (h : NoNewLease y y') {j : ι} {t : ℚ}
    (hj : y'.Holds locks j t) : y.Holds locks j t := by
  obtain ⟨hacquired, hphase, hend⟩ := hj
  rw [h.acquired] at hacquired
  rw [h.since] at hend
  exact ⟨hacquired, fun hrel => hphase (h.releasing j hrel), hend⟩

omit [DecidableEq ι] in
theorem setDegraded_backed (h : y.Backed locks key now) (flag : Bool) :
    (setDegraded y flag).Backed locks key now := by
  intro b
  cases b with
  | remote => exact h .remote
  | fallback => exact h .fallback

/-- Whoever holds a lease after a move was granted it by that move, or held it. -/
theorem MoveResult.holds {r : Cluster ι × Option (ι × Backend)} (hr : MoveResult locks now y r)
    {j : ι} {t : ℚ} (hj : r.1.Holds locks j t) :
    (∃ b, r.2 = some (j, b) ∧ r.1.grantedBy j = b) ∨ (y.Holds locks j t ∧ SameLease y r.1 j) := by
  cases hr with
  | finish b flag i c hphase =>
    rcases finishOn_holds (y := setDegraded y flag) hphase hj with ⟨rfl, -, -, hgrant, -, hby⟩ | ⟨hold, hsame, -⟩
    · exact .inl ⟨b, hgrant, hby⟩
    · exact .inr ⟨hold, hsame⟩
  | quiet y' hnew hstore =>
    exact .inr ⟨hnew.holds hj, congrFun hnew.since j, congrFun hnew.grantedBy j⟩
  | lost y' hnew i c hphase hclient =>
    exact .inr ⟨hnew.holds hj, congrFun hnew.since j, congrFun hnew.grantedBy j⟩

/-- Every move keeps each unexpired lease backed by the store that granted it. -/
theorem MoveResult.backed (hkey : ∀ i, (locks i).lockKey = key)
    (hinj : Function.Injective fun i => (locks i).ownerToken) (h : y.Backed locks key now)
    {r : Cluster ι × Option (ι × Backend)} (hr : MoveResult locks now y r) :
    r.1.Backed locks key now := by
  cases hr with
  | finish b flag i c hphase =>
    exact finishOn_backed hkey hinj (setDegraded_backed h flag) b i c hphase
  | quiet y' hnew hstore =>
    intro b j hj
    have hold := h b j ⟨hnew.holds hj.1, (congrFun hnew.grantedBy j).symm.trans hj.2⟩
    rw [hstore, hnew.since]
    exact hold
  | lost y' hnew i c hphase hclient =>
    intro b j hj
    have hholds := hnew.holds hj.1
    have hby : y.grantedBy j = b := (congrFun hnew.grantedBy j).symm.trans hj.2
    refine ⟨hj.1.2.2, ?_⟩
    show (y'.client.store b).get? key = _
    rw [hclient, hnew.since]
    cases b with
    | remote =>
      refine exec_keeps hkey hinj h ⟨hholds, hby⟩ ?_
      rintro hrelease rfl
      exact hholds.2.1 (hphase hrelease)
    | fallback =>
      rw [store_exec_of_ne _ _ (by decide)]
      exact (h .fallback j ⟨hholds, hby⟩).2

omit [DecidableEq ι] in
theorem Cluster.Backed.mono {later : ℚ} (h : y.Backed locks key now) (hle : now ≤ later) :
    y.Backed locks key later := by
  intro b i hi
  obtain ⟨⟨hacquired, hphase, hend⟩, hby⟩ := hi
  exact ⟨hend, (h b i ⟨⟨hacquired, hphase, hle.trans hend⟩, hby⟩).2⟩

omit [DecidableEq ι] in
theorem init_backed (now : ℚ) : (Cluster.init : Cluster ι).Backed locks key now := by
  intro b i hi
  cases hi.1.1

/-! ## Runs without failures -/

/-- The move reports a failure of the remote connection. -/
def ClusterMove.Fails : ClusterMove ι → Prop
  | .ping _ ok => ok = false
  | .lose _ _ => True
  | _ => False

instance : ∀ m : ClusterMove ι, Decidable m.Fails
  | .ping _ ok => inferInstanceAs (Decidable (ok = false))
  | .lose .. => isTrue trivial
  | .start .. | .reply _ | .fall _ => isFalse id

/-- The client has never turned to the fallback. -/
structure Cluster.Healthy (y : Cluster ι) : Prop where
  notDegraded : y.client.isDegraded = false
  notFailed : ∀ i c, y.phase i ≠ .failed c
  remote : ∀ i, y.acquired i = true → y.grantedBy i = .remote

/-- A move ends in a healthy client, and any lease it granted is remote. -/
structure HealthyResult (r : Cluster ι × Option (ι × Backend)) : Prop where
  healthy : r.1.Healthy
  remote : ∀ i b, r.2 = some (i, b) → b = .remote

omit [DecidableEq ι] in
theorem HealthyResult.quiet (h : y.Healthy) : HealthyResult (y, none) :=
  ⟨h, fun i b hgrant => by cases hgrant⟩

theorem Cluster.Healthy.setPhase (h : y.Healthy) (client : AsyncRedisClient)
    (hclient : client.isDegraded = false) (i : ι) (p : Phase) (hp : ∀ c, p ≠ .failed c) :
    ({ y with client := client, phase := Function.update y.phase i p } : Cluster ι).Healthy := by
  refine ⟨hclient, fun j c => ?_, h.remote⟩
  by_cases hji : j = i
  · subst hji
    simpa using hp c
  · simpa [Function.update_of_ne hji] using h.notFailed j c

theorem healthy_finishOn (h : y.Healthy) (i : ι) (c : LockCall) :
    HealthyResult (finishOn locks .remote y now i c) := by
  have hidle := h.setPhase (y.client.exec ⟨now, callOp locks i c⟩ .remote).1 h.notDegraded i .idle
    fun c => by simp
  cases c with
  | release =>
    refine ⟨⟨hidle.notDegraded, hidle.notFailed, fun j hj => h.remote j ?_⟩, fun j b hgrant => ?_⟩
    · by_cases hji : j = i
      · subst hji
        simp [finishOn] at hj
      · simpa [finishOn, Function.update_of_ne hji] using hj
    · cases hgrant
  | acquire =>
    unfold finishOn
    simp only
    split_ifs
    · refine ⟨⟨hidle.notDegraded, hidle.notFailed, fun j hj => ?_⟩, fun j b hgrant => ?_⟩
      · by_cases hji : j = i
        · subst hji
          simp
        · simp only [Function.update_of_ne hji] at hj ⊢
          exact h.remote j hj
      · cases hgrant
        rfl
    · exact .quiet hidle

/-- Without a failure the client stays healthy. -/
theorem healthy_step (h : y.Healthy) (a : ClusterAction ι) (ha : ¬a.move.Fails) :
    HealthyResult (clusterStep locks y a) := by
  obtain ⟨now, move⟩ := a
  cases move with
  | start i c =>
    unfold clusterStep startCall
    simp only
    split_ifs with hphase hguard hdegraded hconn
    · exact .quiet h
    · exact .quiet h
    · rw [h.notDegraded] at hdegraded
      cases hdegraded
    · exact .quiet (h.setPhase y.client h.notDegraded i _ fun c => by simp)
    · exact .quiet (h.setPhase { y.client with redisConn := true } h.notDegraded i (.pinging c)
        fun c => by simp)
  | ping i ok =>
    unfold clusterStep
    simp only
    split
    · have hok : ok = true := by simpa [ClusterMove.Fails] using ha
      rw [if_pos hok]
      exact .quiet (h.setPhase _ rfl i _ fun c => by simp)
    · exact .quiet h
  | reply i =>
    unfold clusterStep
    simp only
    split
    · exact healthy_finishOn h i _
    · exact .quiet h
  | lose i executed => exact absurd trivial ha
  | fall i =>
    unfold clusterStep
    simp only
    split
    · rename_i c hphase
      exact absurd hphase (h.notFailed i c)
    · exact .quiet h

omit [DecidableEq ι] in
theorem init_healthy : (Cluster.init : Cluster ι).Healthy :=
  ⟨rfl, fun i c => by simp [Cluster.init], fun i hi => by cases hi⟩

/-! ## Whole runs -/

/-- At most one object holds an unexpired lease. -/
def Cluster.Exclusive (locks : ι → DistributedTenantLock) (now : ℚ) (y : Cluster ι) : Prop :=
  ∀ i j, y.Holds locks i now → y.Holds locks j now → i = j

omit [DecidableEq ι] in
/-- Two holders of leases of one store are one. -/
theorem Cluster.Backed.unique (hinj : Function.Injective fun i => (locks i).ownerToken)
    (h : y.Backed locks key now) {i j : ι} (hi : y.Holds locks i now) (hj : y.Holds locks j now)
    (hby : y.grantedBy i = y.grantedBy j) : i = j :=
  (h (y.grantedBy j)).unique hinj ⟨hi, hby⟩ ⟨hj, rfl⟩

/-- A move that grants alone keeps the leases exclusive across the stores. -/
theorem exclusive_step (hkey : ∀ i, (locks i).lockKey = key)
    (hinj : Function.Injective fun i => (locks i).ownerToken) {a : ClusterAction ι}
    (hbacked : y.Backed locks key a.now) (hex : y.Exclusive locks a.now)
    (halone : GrantsAlone locks y a) : (clusterStep locks y a).1.Exclusive locks a.now := by
  have hresult : MoveResult locks a.now y (clusterStep locks y a) := clusterStep_result y a
  have hbacked' := hresult.backed hkey hinj hbacked
  -- a holder that was just granted its lease has no rival at either store
  have hgranted : ∀ i j b, (clusterStep locks y a).2 = some (i, b) →
      (clusterStep locks y a).1.grantedBy i = b →
      (clusterStep locks y a).1.Holds locks i a.now →
      (clusterStep locks y a).1.Holds locks j a.now → i = j := by
    intro i j b hgrant hby hi hj
    rcases hresult.holds hj with ⟨b', hgrant', -⟩ | ⟨hold, hsame⟩
    · rw [hgrant] at hgrant'
      cases hgrant'
      rfl
    · by_contra hne
      have hj' : (clusterStep locks y a).1.grantedBy j = b :=
        hsame.2.trans (halone i b hgrant j (Ne.symm hne) hold)
      exact hne (hbacked'.unique hinj hi hj (hby.trans hj'.symm))
  intro i j hi hj
  rcases hresult.holds hi with ⟨b, hgrant, hby⟩ | ⟨holdi, -⟩
  · exact hgranted i j b hgrant hby hi hj
  · rcases hresult.holds hj with ⟨b, hgrant, hby⟩ | ⟨holdj, -⟩
    · exact (hgranted j i b hgrant hby hj hi).symm
    · exact hex i j holdi holdj

omit [DecidableEq ι] in
theorem Cluster.Exclusive.mono {later : ℚ} (h : y.Exclusive locks now) (hle : now ≤ later) :
    y.Exclusive locks later := by
  intro i j hi hj
  exact h i j ⟨hi.1, hi.2.1, hle.trans hi.2.2⟩ ⟨hj.1, hj.2.1, hle.trans hj.2.2⟩

theorem grantsAlone_of_no_failure (as : List (ClusterAction ι)) (h : ∀ a ∈ as, ¬a.move.Fails) :
    Machine.Always (clusterStep locks) (GrantsAlone locks) Cluster.init as := by
  have hfails : ∀ (y : Cluster ι) (as : List (ClusterAction ι)), (∀ a ∈ as, ¬a.move.Fails) →
      Machine.Always (clusterStep locks) (fun _ a => ¬a.move.Fails) y as := by
    intro y as
    induction as generalizing y with
    | nil => exact fun _ => trivial
    | cons a as ih =>
      intro hall
      exact ⟨hall a (List.mem_cons_self ..), ih _ fun b hb => hall b (List.mem_cons_of_mem _ hb)⟩
  refine Machine.always_of_inv (I := Cluster.Healthy)
    (fun y a hy ha => (healthy_step hy a ha).healthy) (fun y a hy ha => ?_) init_healthy
    (hfails _ as h)
  intro i b hgrant j _ hj
  rw [(healthy_step hy a ha).remote i b hgrant]
  exact hy.remote j hj.1

/-- **Mutual exclusion under degradation.**  After any interleaving of calls and
any pattern of remote failures, two objects that hold unexpired leases of the
same store are the same.  If no lease was ever granted while another object held
an unexpired one of the other store, at most one object holds a lease; this is
so in every run without failures. -/
theorem cluster_exclusive (locks : ι → DistributedTenantLock)
    (hkey : ∀ i, (locks i).lockKey = key)
    (hinj : Function.Injective fun i => (locks i).ownerToken) (as : List (ClusterAction ι))
    (hsorted : as.Pairwise fun a b => a.now ≤ b.now) (now : ℚ) (hnow : ∀ a ∈ as, a.now ≤ now) :
    let y := Machine.run (clusterStep locks) Cluster.init as
    (∀ i j, y.Holds locks i now → y.Holds locks j now → y.grantedBy i = y.grantedBy j → i = j) ∧
      (Machine.Always (clusterStep locks) (GrantsAlone locks) Cluster.init as →
        y.Exclusive locks now) ∧
      ((∀ a ∈ as, ¬a.move.Fails) → y.Exclusive locks now) := by
  intro y
  have hbacked : y.Backed locks key now :=
    Machine.timed_inv_run (I := fun t (y : Cluster ι) => y.Backed locks key t)
      (C := fun _ _ => True) (fun _ _ _ h hle => h.mono hle)
      (fun y a h _ => (clusterStep_result y a).backed hkey hinj h) (fun a _ => init_backed a.now)
      (init_backed now) hnow hsorted (Machine.always_of_forall (fun _ _ => trivial) _ _)
  have halone : Machine.Always (clusterStep locks) (GrantsAlone locks) Cluster.init as →
      y.Exclusive locks now := by
    intro h
    have hinit : ∀ t, (Cluster.init : Cluster ι).Exclusive locks t := by
      intro t i j hi
      cases hi.1
    exact (Machine.timed_inv_run
      (I := fun t (y : Cluster ι) => y.Backed locks key t ∧ y.Exclusive locks t)
      (C := GrantsAlone locks) (fun _ _ _ h hle => ⟨h.1.mono hle, h.2.mono hle⟩)
      (fun y a hy ha => ⟨(clusterStep_result y a).backed hkey hinj hy.1,
        exclusive_step hkey hinj hy.1 hy.2 ha⟩)
      (fun a _ => ⟨init_backed a.now, hinit a.now⟩) ⟨init_backed now, hinit now⟩ hnow hsorted h).2
  exact ⟨fun i j hi hj hby => hbacked.unique hinj hi hj hby, halone,
    fun h => halone (grantsAlone_of_no_failure as h)⟩

end Cluster

/-- The first lock connects and takes a lease of the remote store. -/
def sampleRemoteLease : List (ClusterAction Bool) :=
  [⟨0, .start true .acquire⟩, ⟨0, .ping true true⟩, ⟨0, .reply true⟩]

/-- A second lock is turned away while the first holds. -/
theorem cluster_exclusive_sample :
    (Machine.run (clusterStep sampleLocks) Cluster.init
      (sampleRemoteLease ++ [⟨1 / 2, .start false .acquire⟩, ⟨1 / 2, .reply false⟩])).Exclusive
        sampleLocks (1 / 2) := by
  have hkey : ∀ i, (sampleLocks i).lockKey = (sampleLocks true).lockKey := fun _ => rfl
  exact (cluster_exclusive sampleLocks hkey sampleLocks_ownerToken_injective _
    (by decide +kernel) (1 / 2) (by decide +kernel)).2.2 (by decide)

/-- **Two leases.**  The remote call of the second lock raises, and the fallback
store grants it a lease while the first lock's is running. -/
theorem two_leases :
    (Machine.run (clusterStep sampleLocks) Cluster.init
      (sampleRemoteLease ++ [⟨1 / 2, .start false .acquire⟩, ⟨1 / 2, .lose false false⟩,
        ⟨1 / 2, .fall false⟩])).Holds sampleLocks true (1 / 2) ∧
    (Machine.run (clusterStep sampleLocks) Cluster.init
      (sampleRemoteLease ++ [⟨1 / 2, .start false .acquire⟩, ⟨1 / 2, .lose false false⟩,
        ⟨1 / 2, .fall false⟩])).Holds sampleLocks false (1 / 2) := by
  constructor
  · decide +kernel
  · decide +kernel

end ScamOn.Common
