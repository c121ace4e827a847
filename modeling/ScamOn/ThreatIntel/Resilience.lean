import Mathlib.Algebra.Order.Field.Rat
import ScamOn.Lib.LruCache

/-!
# Circuit breakers, rate limiters and the reputation cache

What stands between `ThreatIntelManager` and the providers: a circuit breaker and a
token bucket for each of them, and one least-recently-used cache of answers with a time
to live.

* `CircuitBreaker`, `RateLimiter` and `ReputationCache` are the three, with the clock as
  an argument.
* `ReputationCache.get_eq_some_iff` says what the cache answers, `get?_of_get` and
  `get?_of_put` what it still holds after an operation.
-/

namespace ScamOn.ThreatIntel

/-! ## The circuit breaker -/

/-- `CircuitState`. -/
inductive CircuitState
  | closed | opened | halfOpen
  deriving DecidableEq, Repr

/-- `ProviderCircuitBreaker`. -/
structure CircuitBreaker where
  failureThreshold : ℤ
  recoveryTimeout : ℚ
  state : CircuitState
  failureCount : ℤ
  lastStateChange : ℚ

namespace CircuitBreaker

/-- A breaker as the manager builds it: three failures, thirty seconds. -/
def init (now : ℚ) : CircuitBreaker := ⟨3, 30, .closed, 0, now⟩

/-- `allow_request`. -/
def allowRequest (cb : CircuitBreaker) (now : ℚ) : CircuitBreaker × Bool :=
  if cb.state = .opened then
    if cb.recoveryTimeout ≤ now - cb.lastStateChange then
      ({ cb with state := .halfOpen, lastStateChange := now }, true)
    else (cb, false)
  else (cb, true)

/-- `record_success`. -/
def recordSuccess (cb : CircuitBreaker) (now : ℚ) : CircuitBreaker :=
  let cb :=
    if cb.state = .halfOpen then { cb with state := .closed, lastStateChange := now } else cb
  { cb with failureCount := 0 }

/-- `record_failure`. -/
def recordFailure (cb : CircuitBreaker) (now : ℚ) : CircuitBreaker :=
  let cb := { cb with failureCount := cb.failureCount + 1 }
  if cb.failureThreshold ≤ cb.failureCount ∧ cb.state ≠ .opened then
    { cb with state := .opened, lastStateChange := now }
  else cb

end CircuitBreaker

/-! ## The rate limiter -/

/-- `ProviderRateLimiter`. -/
structure RateLimiter where
  maxQueries : ℤ
  tokens : ℚ
  lastRefill : ℚ

namespace RateLimiter

/-- A limiter as the manager builds it: sixty queries a minute. -/
def init (now : ℚ) : RateLimiter := ⟨60, 60, now⟩

/-- `acquire`. -/
def acquire (rl : RateLimiter) (now : ℚ) : RateLimiter × Bool :=
  let elapsed := now - rl.lastRefill
  let tokens := min (rl.maxQueries : ℚ) (rl.tokens + elapsed * (rl.maxQueries / 60))
  if 1 ≤ tokens then ({ rl with tokens := tokens - 1, lastRefill := now }, true)
  else ({ rl with tokens := tokens, lastRefill := now }, false)

end RateLimiter

/-! ## The cache -/

/-- `ReputationCacheEntry`, over any observations. -/
structure CacheEntry (ω : Type*) where
  observations : List ω
  createdAt : ℚ
  ttlSeconds : ℚ

/-- `is_expired`. -/
def CacheEntry.isExpired {ω : Type*} (entry : CacheEntry ω) (now : ℚ) : Bool :=
  entry.ttlSeconds < now - entry.createdAt

/-- `ReputationCache`: the least recently used key comes first. -/
structure ReputationCache (ω : Type*) where
  ttlSeconds : ℚ
  maxSize : ℤ
  cache : Dict String (CacheEntry ω)

namespace ReputationCache

variable {ω : Type*} {c : ReputationCache ω} {key : String} {now : ℚ}

def init (ttlSeconds : ℚ) (maxSize : ℤ) : ReputationCache ω := ⟨ttlSeconds, maxSize, ∅⟩

/-- `get`. -/
def get (c : ReputationCache ω) (key : String) (now : ℚ) :
    ReputationCache ω × Option (List ω) :=
  let found := LruCache.get CacheEntry.isExpired c.cache key now
  ({ c with cache := found.1 }, found.2.map CacheEntry.observations)

/-- `put`; `none` is the `KeyError` of `popitem` on an empty dictionary. -/
def put (c : ReputationCache ω) (key : String) (observations : List ω) (now : ℚ) :
    Option (ReputationCache ω) :=
  (LruCache.put? c.maxSize c.cache key ⟨observations, now, c.ttlSeconds⟩).map fun cache =>
    { c with cache := cache }

/-- **What `get` answers**: the observations of an entry that has not expired. -/
theorem get_eq_some_iff {observations : List ω} :
    (c.get key now).2 = some observations ↔
      ∃ entry, c.cache.get? key = some entry ∧ now - entry.createdAt ≤ entry.ttlSeconds ∧
        entry.observations = observations := by
  have hage : ∀ entry : CacheEntry ω,
      ¬entry.isExpired now = true ↔ now - entry.createdAt ≤ entry.ttlSeconds := fun entry => by
    rw [CacheEntry.isExpired, decide_eq_true_iff, not_lt]
  rw [get]
  obtain ⟨hnone, hget⟩ | ⟨entry, hentry, hexpired, hget⟩ | ⟨entry, hentry, hlive, hget⟩ :=
    LruCache.get_cases CacheEntry.isExpired c.cache key now
  · simp [hget, hnone]
  · simp [hget, hentry, ← hage, hexpired]
  · simp [hget, hentry, ← hage, hlive]

/-- What is there after `get` was there before. -/
theorem get?_of_get {key' : String} {entry : CacheEntry ω}
    (h : (c.get key now).1.cache.get? key' = some entry) : c.cache.get? key' = some entry :=
  LruCache.get?_of_get h

/-- A `get` that answers nothing leaves nothing under the key. -/
theorem get?_of_get_eq_none (h : (c.get key now).2 = none) :
    (c.get key now).1.cache.get? key = none :=
  LruCache.get?_of_get_eq_none (Option.map_eq_none_iff.1 h)

@[simp] theorem get_ttlSeconds : (c.get key now).1.ttlSeconds = c.ttlSeconds := rfl

/-- What is there after `put` was put, or is of another key and was there before. -/
theorem get?_of_put {c' : ReputationCache ω} {observations : List ω} {key' : String}
    {entry : CacheEntry ω} (hput : c.put key observations now = some c')
    (h : c'.cache.get? key' = some entry) :
    (key' = key ∧ entry = ⟨observations, now, c.ttlSeconds⟩) ∨
      key' ≠ key ∧ c.cache.get? key' = some entry := by
  obtain ⟨cache, hcache, rfl⟩ := Option.map_eq_some_iff.1 hput
  exact LruCache.get?_of_put? hcache h

theorem put_ttlSeconds {c' : ReputationCache ω} {observations : List ω}
    (hput : c.put key observations now = some c') : c'.ttlSeconds = c.ttlSeconds := by
  obtain ⟨cache, -, rfl⟩ := Option.map_eq_some_iff.1 hput
  rfl

end ReputationCache
end ScamOn.ThreatIntel
