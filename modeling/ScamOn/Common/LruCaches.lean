import ScamOn.Authentication.DnsResolver
import ScamOn.ThreatIntel.Resilience

/-!
# The two LRU caches

`ReputationCache` and `CachedDNSResolver` keep their entries in the same way: both make room for a key
before they look whether it is there.

* `ReputationCache.isCache`: the reputation cache, too, is a cache in the sense of `LruCache`.
* `lruCaches_answer_as_lru`: both stay bounded and answer what was put last, and in which runs they keep
  what an LRU cache of their size keeps.
-/

namespace ScamOn
namespace ThreatIntel
namespace ReputationCache

variable {ω : Type*} {c : ReputationCache ω}

/-- What `put` stores. -/
def kind (ω : Type*) (ttlSeconds : ℚ) : LruCache.Kind ℚ (List ω) (CacheEntry ω) (List ω) where
  entry now observations := ⟨observations, now, ttlSeconds⟩
  expired := CacheEntry.isExpired
  value := CacheEntry.observations

/-- A call of `get` or `put`. -/
def step (c : ReputationCache ω) (a : LruCache.Call ℚ String (List ω)) :
    ReputationCache ω × Option (List ω) :=
  match a.action with
  | .get key => c.get key a.now
  | .put key observations => ((c.put key observations a.now).getD c, none)

theorem put_eq {n : ℕ} (hn : 1 ≤ n) (hc : c.maxSize = n) (key : String) (observations : List ω)
    (now : ℚ) :
    c.put key observations now =
      some { c with cache := LruCache.put n c.cache key ⟨observations, now, c.ttlSeconds⟩ } := by
  rw [put, hc, LruCache.put?_eq hn]
  rfl

/-- **The reputation cache is a cache.** -/
theorem isCache (ttlSeconds : ℚ) {n : ℕ} (hn : 1 ≤ n) : LruCache.IsCache (kind ω ttlSeconds) n
    (fun c : ReputationCache ω => c.ttlSeconds = ttlSeconds ∧ c.maxSize = n) cache step where
  keeps c a hc := by
    obtain ⟨now, action⟩ := a
    cases action with
    | get key => exact hc
    | put key observations =>
      simp only [step, put_eq hn hc.2]
      exact hc
  get c now key _ := ⟨rfl, rfl⟩
  put c now key observations hc := by
    simp only [step, put_eq hn hc.2, ← hc.1]
    rfl

end ReputationCache
end ThreatIntel

namespace Common

open ThreatIntel Authentication

/-- A run is that of a bounded LRU cache: no call leaves more than `n` entries, a lookup answers
only what was last put for its key and is not over, and it does answer that while fewer than `n`
other keys were used since. -/
def RunsAsLru {τ κ β ε ν σ : Type*} [DecidableEq κ] (kind : LruCache.Kind τ β ε ν) (n : ℕ)
    (view : σ → Dict κ ε) (step : σ → LruCache.Call τ κ β → σ × Option ν) (s : σ)
    (as : List (LruCache.Call τ κ β)) : Prop :=
  Machine.Always (Machine.recorded step)
    (fun s a => LruCache.BoundedSound kind n view step s a ∧ LruCache.Complete kind n step s a)
    (s, []) as

/-- **In which runs the caches answer as LRU caches**: at nondecreasing times, those in which no put
of a key that is there, into a full cache, evicts another key whose entry is not over. -/
theorem lruCaches_answer_as_lru {n : ℕ} (hn : 1 ≤ n) {ω : Type*} :
    (∀ (c : ReputationCache ω), c.maxSize = n → c.cache = ∅ → ∀ as,
      as.Pairwise (fun a b => a.now ≤ b.now) →
      Machine.Always ReputationCache.step
        (fun s => LruCache.Spares (ReputationCache.kind ω c.ttlSeconds) n s.cache) c as →
      RunsAsLru (ReputationCache.kind ω c.ttlSeconds) n ReputationCache.cache ReputationCache.step
        c as) ∧
      ∀ (r : CachedDnsResolver), r.maxCacheSize = n → r.cache = ∅ → ∀ as,
        as.Pairwise (fun a b => a.now ≤ b.now) →
        Machine.Always CachedDnsResolver.step
          (fun s => LruCache.Spares CachedDnsResolver.kind n s.cache) r as →
        RunsAsLru CachedDnsResolver.kind n CachedDnsResolver.cache CachedDnsResolver.step r as := by
  have hlater : ∀ {ttl created now now' : ℚ}, now ≤ now' →
      decide (ttl < now - created) = true → decide (ttl < now' - created) = true :=
    fun hle hlt => decide_eq_true
      (lt_of_lt_of_le (of_decide_eq_true hlt) (sub_le_sub_right hle _))
  constructor
  · intro c hc hempty as hsorted hspares
    exact (ReputationCache.isCache c.ttlSeconds hn).complete hn (fun _ _ _ => hlater) ⟨rfl, hc⟩
      hempty hsorted hspares
  · intro r hr hempty as hsorted hspares
    exact (CachedDnsResolver.isCache hn).complete hn (fun _ _ _ => hlater) hr hempty hsorted hspares

/-- A resolver with room for two answers. -/
def sampleResolver : CachedDnsResolver := ⟨2, ∅⟩

/-- Two keys are put, each once more while nothing else is evicted for it, and both are read. -/
def bothRead {κ β : Type*} (first second : κ) (b : β) : List (LruCache.Call ℚ κ β) :=
  [⟨0, .put first b⟩, ⟨1, .put first b⟩, ⟨2, .put second b⟩, ⟨3, .get first⟩, ⟨4, .put second b⟩,
    ⟨5, .get first⟩, ⟨6, .get second⟩]

/-- Two keys are put, the second once more, and the first is read. -/
def secondRefreshed {κ β : Type*} (first second : κ) (b : β) : List (LruCache.Call ℚ κ β) :=
  [⟨0, .put first b⟩, ⟨1, .put second b⟩, ⟨2, .put second b⟩, ⟨3, .get first⟩]

theorem lruCaches_answer_both_read :
    RunsAsLru (ReputationCache.kind String 300) 2 ReputationCache.cache ReputationCache.step
        (.init 300 2) (bothRead "a" "b" ["seen"]) ∧
      RunsAsLru CachedDnsResolver.kind 2 CachedDnsResolver.cache CachedDnsResolver.step
        sampleResolver (bothRead (['A'], ['a']) (['A'], ['b']) ([], 60)) := by
  obtain ⟨hreputation, hresolver⟩ := lruCaches_answer_as_lru (n := 2) (by decide) (ω := String)
  constructor
  · exact hreputation (.init 300 2) rfl rfl _ (by decide +kernel) (by decide +kernel)
  · exact hresolver sampleResolver rfl rfl _ (by decide +kernel) (by decide +kernel)

/-- With room for two keys, to put the second once more evicts the first. -/
theorem lruCaches_forget_first :
    (secondRefreshed "a" "b" ["seen"]).Pairwise (fun a b => a.now ≤ b.now) ∧
      ¬RunsAsLru (ReputationCache.kind String 300) 2 ReputationCache.cache ReputationCache.step
        (.init 300 2) (secondRefreshed "a" "b" ["seen"]) ∧
      ¬RunsAsLru CachedDnsResolver.kind 2 CachedDnsResolver.cache CachedDnsResolver.step
        sampleResolver (secondRefreshed (['A'], ['a']) (['A'], ['b']) ([], 60)) := by
  refine ⟨by decide +kernel, ?_, ?_⟩
  · rintro ⟨-, -, -, ⟨-, hcomplete⟩, -⟩
    exact nomatch hcomplete "a" 0 ["seen"] rfl rfl (by decide +kernel) (by decide +kernel)
  · rintro ⟨-, -, -, ⟨-, hcomplete⟩, -⟩
    exact nomatch hcomplete (['A'], ['a']) 0 ([], 60) rfl rfl (by decide +kernel) (by decide +kernel)

end Common
end ScamOn
