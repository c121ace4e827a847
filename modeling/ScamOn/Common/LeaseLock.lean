import ScamOn.Common.RedisClient

/-!
# The tenant lease lock

`DistributedTenantLock` takes a lease by `SET key token NX PX ttl` and gives it
back by a script that deletes the key if it still holds the token.

* `Backs` says that a store vouches for the leases of a group of objects;
  `Backs.setOp_cases` and `Backs.get?_releaseOp` are what the two commands do then.
* `LockSystem` is any number of lock objects over one in-memory client, with
  their attempts, releases and foreign commands interleaved.  A release whose
  guard was passed earlier may run its script at any later time (`resume`).
* `lease_exclusive`: at every moment at most one object holds an unexpired lease,
  and no release takes away another object's.
-/

namespace ScamOn.Common

/-! ## The lock object -/

/-- `DistributedTenantLock`, without its `_acquired` flag. -/
structure DistributedTenantLock where
  tenantId : Uuid
  resourceName : String
  ttlMs : ℤ
  owner : Uuid
  deriving DecidableEq

namespace DistributedTenantLock

/-- `lock_key`. -/
def lockKey (l : DistributedTenantLock) : String :=
  "scamon:" ++ l.tenantId.str ++ ":lock:" ++ l.resourceName

/-- `owner_token`. -/
def ownerToken (l : DistributedTenantLock) : String := l.owner.str

/-- `RELEASE_LUA`. -/
@[irreducible] def releaseLua : String :=
  "\n    if redis.call(\"get\", KEYS[1]) == ARGV[1] then\n        return redis.call(\"del\", KEYS[1])" ++
    "\n    else\n        return 0\n    end\n    "

/-- The command of an attempt to acquire. -/
def setOp (l : DistributedTenantLock) : Op :=
  .set l.lockKey (.str l.ownerToken) none (some l.ttlMs) true false

/-- The command of a release. -/
def releaseOp (l : DistributedTenantLock) : Op :=
  .evalScript releaseLua [l.lockKey] [.str l.ownerToken]

/-- The last moment of a lease taken at `t`. -/
def leaseEnd (l : DistributedTenantLock) (t : ℚ) : ℚ := t + l.ttlMs / 1000

/-- What the store holds for a lease taken at `t`. -/
def leaseEntry (l : DistributedTenantLock) (t : ℚ) : Entry :=
  ⟨.str l.ownerToken, some (l.leaseEnd t)⟩

end DistributedTenantLock

open DistributedTenantLock

/-! ## The two commands -/

section Commands

variable {s : Store} {l : DistributedTenantLock} {now : ℚ}

theorem looksUp_releaseLua : looksUp releaseLua = true := by decide +kernel

/-- The `SET` of an attempt answers for the entry under the lock's key and writes
that one. -/
theorem step_setOp {entry : Option Entry} {flag : Bool}
    (h : setEntry now (.str l.ownerToken) none (some (l.ttlMs : ℚ)) true false
      (s.get? l.lockKey) = (entry, .flag flag)) :
    (step s ⟨now, l.setOp⟩).2 = .flag flag ∧ (step s ⟨now, l.setOp⟩).1.get? l.lockKey = entry := by
  constructor
  · show (s.access _ _).2 = _
    rw [Dict.access_snd, h]
  · show (s.access _ _).1.get? _ = _
    rw [Dict.get?_access, if_pos rfl, h]

theorem step_setOp_of_live {e : Entry} (h : liveEntry now (s.get? l.lockKey) = some e) :
    (step s ⟨now, l.setOp⟩).2 = .flag false ∧
      (step s ⟨now, l.setOp⟩).1.get? l.lockKey = some e := by
  refine step_setOp ?_
  simp [setEntry, h]

theorem step_setOp_of_free (h : liveEntry now (s.get? l.lockKey) = none) :
    (step s ⟨now, l.setOp⟩).2 = .flag true ∧
      (step s ⟨now, l.setOp⟩).1.get? l.lockKey = some (l.leaseEntry now) := by
  refine step_setOp ?_
  simp [setEntry, h, expiryTs, leaseEntry, leaseEnd]

theorem step_releaseOp :
    step s ⟨now, l.releaseOp⟩ = s.access l.lockKey (releaseEntry now l.ownerToken) := by
  simp only [step, releaseOp, evalScript, looksUp_releaseLua, if_true, expectedOwner?]

/-- The script leaves a live entry of another owner in place. -/
theorem get?_step_releaseOp {l' : DistributedTenantLock} {t : ℚ}
    (hentry : s.get? l.lockKey = some (l'.leaseEntry t)) (hlive : now ≤ l'.leaseEnd t)
    (hne : l'.ownerToken ≠ l.ownerToken) :
    (step s ⟨now, l.releaseOp⟩).1.get? l.lockKey = some (l'.leaseEntry t) := by
  have hexpired : ¬(l'.leaseEntry t).Expired now := by
    rintro ⟨x, hx, hlt⟩
    obtain rfl := Option.mem_some_iff.1 hx
    exact absurd hlive (not_le.2 hlt)
  rw [step_releaseOp, Dict.get?_access, if_pos rfl, hentry]
  simp only [releaseEntry, if_neg hexpired]
  simp only [leaseEntry, if_neg hne]

end Commands

/-! ## Leases that a store backs -/

section Backs

variable {ι : Type*} (locks : ι → DistributedTenantLock) (key : String)

/-- Whoever holds a lease is within its time and has its token in the store. -/
def Backs (s : Store) (now : ℚ) (holds : ι → Prop) (since : ι → ℚ) : Prop :=
  ∀ i, holds i →
    now ≤ (locks i).leaseEnd (since i) ∧ s.get? key = some ((locks i).leaseEntry (since i))

variable {locks key} {s : Store} {now : ℚ} {holds : ι → Prop} {since : ι → ℚ}

/-- Two holders are one. -/
theorem Backs.unique (hinj : Function.Injective fun i => (locks i).ownerToken)
    (h : Backs locks key s now holds since) {i j : ι} (hi : holds i) (hj : holds j) : i = j := by
  have hentry : (locks i).leaseEntry (since i) = (locks j).leaseEntry (since j) :=
    Option.some.inj ((h i hi).2.symm.trans (h j hj).2)
  exact hinj (Value.str.inj (congrArg Entry.value hentry))

/-- A live entry stands behind every holder. -/
theorem Backs.liveEntry_eq (h : Backs locks key s now holds since) {i : ι} (hi : holds i) :
    liveEntry now (s.get? key) = some ((locks i).leaseEntry (since i)) := by
  rw [(h i hi).2]
  refine if_neg ?_
  rintro ⟨x, hx, hlt⟩
  obtain rfl := Option.mem_some_iff.1 hx
  exact absurd (h i hi).1 (not_le.2 hlt)

/-- An attempt fails and leaves the key to its holder, or it succeeds because
there is none. -/
theorem Backs.setOp_cases (hkey : ∀ i, (locks i).lockKey = key)
    (h : Backs locks key s now holds since) (i : ι) :
    ((step s ⟨now, (locks i).setOp⟩).2 = .flag false ∧
      Backs locks key (step s ⟨now, (locks i).setOp⟩).1 now holds since) ∨
    ((step s ⟨now, (locks i).setOp⟩).2 = .flag true ∧ (∀ j, ¬holds j) ∧
      (step s ⟨now, (locks i).setOp⟩).1.get? key = some ((locks i).leaseEntry now)) := by
  cases hlive : liveEntry now (s.get? (locks i).lockKey) with
  | some e =>
    obtain ⟨hreply, hstore⟩ := step_setOp_of_live hlive
    rw [hkey i] at hstore hlive
    refine .inl ⟨hreply, fun j hj => ⟨(h j hj).1, ?_⟩⟩
    rw [hstore, ← hlive]
    exact h.liveEntry_eq hj
  | none =>
    obtain ⟨hreply, hstore⟩ := step_setOp_of_free hlive
    rw [hkey i] at hstore hlive
    refine .inr ⟨hreply, fun j hj => ?_, hstore⟩
    rw [h.liveEntry_eq hj] at hlive
    cases hlive

/-- A release leaves the key of every other holder in place. -/
theorem Backs.get?_releaseOp (hkey : ∀ i, (locks i).lockKey = key)
    (hinj : Function.Injective fun i => (locks i).ownerToken)
    (h : Backs locks key s now holds since) {i j : ι} (hne : j ≠ i) (hj : holds j) :
    (step s ⟨now, (locks i).releaseOp⟩).1.get? key = s.get? key := by
  obtain ⟨hlive, hentry⟩ := h j hj
  rw [hentry]
  rw [← hkey i] at hentry ⊢
  exact get?_step_releaseOp hentry hlive fun heq => hne (hinj heq)

end Backs

/-! ## Locks over one client -/

/-- Lock objects over one in-memory client: the store, each object's `_acquired`
flag, and the moment of its last successful `SET`. -/
structure LockSystem (ι : Type*) where
  store : Store
  acquired : ι → Bool
  since : ι → ℚ

/-- A move: an attempt of the acquire loop, a release, the script of a release
whose guard was passed earlier, or a command of somebody else on other keys. -/
inductive LockMove (ι : Type*) (key : String)
  | attempt (i : ι)
  | release (i : ι)
  | resume (i : ι)
  | other (op : Op) (untouched : key ∉ op.keys)

/-- A move and its moment. -/
structure LockAction (ι : Type*) (key : String) where
  now : ℚ
  move : LockMove ι key

section System

variable {ι : Type*} [DecidableEq ι] {key : String} (locks : ι → DistributedTenantLock)

/-- One round of the loop in `acquire`. -/
def attempt (y : LockSystem ι) (now : ℚ) (i : ι) : LockSystem ι × Bool :=
  match step y.store ⟨now, (locks i).setOp⟩ with
  | (store, .flag true) =>
    (⟨store, Function.update y.acquired i true, Function.update y.since i now⟩, true)
  | (store, _) => ({ y with store := store }, false)

/-- `release` past its guard. -/
def runRelease (y : LockSystem ι) (now : ℚ) (i : ι) : LockSystem ι × Bool :=
  let result := step y.store ⟨now, (locks i).releaseOp⟩
  ({ y with store := result.1, acquired := Function.update y.acquired i false },
    result.2 = .int 1)

def lockStep (y : LockSystem ι) (a : LockAction ι key) : LockSystem ι × Bool :=
  match a.move with
  | .attempt i => attempt locks y a.now i
  | .release i => if y.acquired i then runRelease locks y a.now i else (y, false)
  | .resume i => runRelease locks y a.now i
  | .other op _ => ({ y with store := (step y.store ⟨a.now, op⟩).1 }, true)

/-- A fresh client and locks nobody has acquired. -/
def LockSystem.init : LockSystem ι := ⟨∅, fun _ => false, fun _ => 0⟩

/-- The object has acquired the lock, has not released it, and its lease has not
run out. -/
def LockSystem.Holds (y : LockSystem ι) (i : ι) (now : ℚ) : Prop :=
  y.acquired i = true ∧ now ≤ (locks i).leaseEnd (y.since i)

instance (y : LockSystem ι) (i : ι) (now : ℚ) : Decidable (y.Holds locks i now) :=
  inferInstanceAs (Decidable (_ ∧ _))

/-- The store backs every unexpired lease. -/
def LockSystem.Backed (key : String) (now : ℚ) (y : LockSystem ι) : Prop :=
  Backs locks key y.store now (fun i => y.Holds locks i now) y.since

variable {locks} {y : LockSystem ι} {now : ℚ}

omit [DecidableEq ι] in
theorem LockSystem.Backed.mono {later : ℚ} (h : y.Backed locks key now) (hle : now ≤ later) :
    y.Backed locks key later := by
  intro i hi
  exact ⟨hi.2, (h i ⟨hi.1, hle.trans hi.2⟩).2⟩

theorem attempt_backed (hkey : ∀ i, (locks i).lockKey = key) (h : y.Backed locks key now)
    (i : ι) : (attempt locks y now i).1.Backed locks key now := by
  unfold attempt
  rcases hstep : step y.store ⟨now, (locks i).setOp⟩ with ⟨store, reply⟩
  rcases Backs.setOp_cases hkey h i with ⟨hreply, hkept⟩ | ⟨hreply, hfree, hentry⟩
  · rw [hstep] at hreply hkept
    obtain rfl : reply = .flag false := hreply
    exact hkept
  · rw [hstep] at hreply hentry
    obtain rfl : reply = .flag true := hreply
    intro j hj
    by_cases hij : j = i
    · subst hij
      exact ⟨hj.2, by simpa using hentry⟩
    · have hold : y.Holds locks j now := by
        simpa [LockSystem.Holds, Function.update_of_ne hij] using hj
      exact absurd hold (hfree j)

theorem holds_of_runRelease {i j : ι} (now' : ℚ) (hne : j ≠ i) :
    (runRelease locks y now i).1.Holds locks j now' ↔ y.Holds locks j now' := by
  simp [runRelease, LockSystem.Holds, Function.update_of_ne hne]

theorem runRelease_backed (hkey : ∀ i, (locks i).lockKey = key)
    (hinj : Function.Injective fun i => (locks i).ownerToken) (h : y.Backed locks key now)
    (i : ι) : (runRelease locks y now i).1.Backed locks key now := by
  intro j hj
  have hne : j ≠ i := by
    rintro rfl
    simp [runRelease, LockSystem.Holds] at hj
  have hold := (holds_of_runRelease now hne).1 hj
  exact ⟨hj.2, (Backs.get?_releaseOp hkey hinj h hne hold).trans (h j hold).2⟩

/-- Every move keeps each unexpired lease backed by the store. -/
theorem lockStep_backed (hkey : ∀ i, (locks i).lockKey = key)
    (hinj : Function.Injective fun i => (locks i).ownerToken) (a : LockAction ι key)
    (h : y.Backed locks key a.now) : (lockStep locks y a).1.Backed locks key a.now := by
  obtain ⟨now, move⟩ := a
  cases move with
  | attempt i => exact attempt_backed hkey h i
  | release i =>
    unfold lockStep
    simp only
    split_ifs
    · exact runRelease_backed hkey hinj h i
    · exact h
  | resume i => exact runRelease_backed hkey hinj h i
  | other op untouched =>
    intro j hj
    exact ⟨hj.2, (get?_step_of_notMem untouched _).trans (h j hj).2⟩

/-- **Mutual exclusion and ownership.**  After any interleaving of attempts and
releases at nondecreasing times, at any moment from then on until the next move,
at most one object holds an unexpired lease, and a release by one object, begun
now or resumed now, leaves another object's unexpired lease as it is. -/
theorem lease_exclusive (locks : ι → DistributedTenantLock)
    (hkey : ∀ i, (locks i).lockKey = key)
    (hinj : Function.Injective fun i => (locks i).ownerToken) (as : List (LockAction ι key))
    (hsorted : as.Pairwise fun a b => a.now ≤ b.now) (now : ℚ) (hnow : ∀ a ∈ as, a.now ≤ now) :
    let y := Machine.run (lockStep locks) LockSystem.init as
    (∀ i j, y.Holds locks i now → y.Holds locks j now → i = j) ∧
      ∀ i j, j ≠ i → y.Holds locks j now →
        ∀ move : LockMove ι key, move = .release i ∨ move = .resume i →
          (lockStep locks y ⟨now, move⟩).1.store.get? key = y.store.get? key ∧
            (lockStep locks y ⟨now, move⟩).1.Holds locks j now := by
  intro y
  have hinit : ∀ t, (LockSystem.init : LockSystem ι).Backed locks key t := by
    intro t i hi
    cases hi.1
  have hbacked : y.Backed locks key now :=
    Machine.timed_inv_run (I := fun t (y : LockSystem ι) => y.Backed locks key t)
      (C := fun _ _ => True) (fun _ _ _ h hle => h.mono hle)
      (fun y a h _ => lockStep_backed hkey hinj a h) (fun a _ => hinit a.now) (hinit now) hnow
      hsorted (Machine.always_of_forall (fun _ _ => trivial) _ _)
  refine ⟨fun i j hi hj => Backs.unique hinj hbacked hi hj, ?_⟩
  intro i j hne hj move hmove
  have hrelease : (runRelease locks y now i).1.store.get? key = y.store.get? key ∧
      (runRelease locks y now i).1.Holds locks j now :=
    ⟨Backs.get?_releaseOp hkey hinj hbacked hne hj, (holds_of_runRelease now hne).2 hj⟩
  rcases hmove with rfl | rfl
  · unfold lockStep
    simp only
    split_ifs
    · exact hrelease
    · exact ⟨rfl, hj⟩
  · exact hrelease

end System

/-- Two locks of one second on one resource. -/
def sampleLocks (first : Bool) : DistributedTenantLock :=
  ⟨Uuid.ofNat 1, "r", 1000, Uuid.ofNat (if first then 2 else 3)⟩

theorem sampleLocks_ownerToken_injective :
    Function.Injective fun i => (sampleLocks i).ownerToken := by
  have howner : ∀ i j, (sampleLocks i).owner = (sampleLocks j).owner → i = j := by decide
  intro i j h
  exact howner i j (Uuid.str_injective h)

/-- The first lock's lease runs out, the second takes over, and the first
releases late: the second still holds. -/
theorem lease_exclusive_late_release :
    (lockStep sampleLocks
      (Machine.run (lockStep sampleLocks) LockSystem.init
        [⟨0, .attempt true⟩, (⟨2, .attempt false⟩ : LockAction Bool (sampleLocks true).lockKey)])
      (⟨2, .release true⟩ : LockAction Bool (sampleLocks true).lockKey)).1.Holds
        sampleLocks false 2 :=
  ((lease_exclusive sampleLocks (fun _ => rfl) sampleLocks_ownerToken_injective _
    (by simp) 2 (by simp)).2 true false (by decide) (by decide +kernel) _ (.inl rfl)).2

end ScamOn.Common
