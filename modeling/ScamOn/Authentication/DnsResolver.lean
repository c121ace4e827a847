import Mathlib.Algebra.Order.Field.Rat
import ScamOn.Lib.Chars
import ScamOn.Lib.LruCache

/-!
# The cache of the DNS resolver

`CachedDNSResolver` keeps what it looked up, a failed lookup too, in an LRU cache with a time to live
for each entry.

* `getFromCache` and `putInCache` are the cache.
* `isCache`: the resolver is a cache in the sense of `LruCache`.
-/

namespace ScamOn.Authentication

/-- `DNSCacheEntry`. -/
structure DnsCacheEntry where
  records : List Str
  createdAt : ℚ
  ttlSeconds : ℚ

/-- `is_expired`. -/
def DnsCacheEntry.isExpired (entry : DnsCacheEntry) (now : ℚ) : Bool :=
  entry.ttlSeconds < now - entry.createdAt

/-- `CachedDNSResolver`: the least recently used key, a record type and a domain, comes first. -/
structure CachedDnsResolver where
  maxCacheSize : ℤ
  cache : Dict (Str × Str) DnsCacheEntry

namespace CachedDnsResolver

/-! ## The cache -/

/-- `_get_from_cache`. -/
def getFromCache (r : CachedDnsResolver) (key : Str × Str) (now : ℚ) :
    CachedDnsResolver × Option (List Str) :=
  let found := LruCache.get DnsCacheEntry.isExpired r.cache key now
  ({ r with cache := found.1 }, found.2.map DnsCacheEntry.records)

/-- `_put_in_cache`; `none` is the `KeyError` of `popitem` on an empty dictionary. -/
def putInCache (r : CachedDnsResolver) (key : Str × Str) (records : List Str) (ttl now : ℚ) :
    Option CachedDnsResolver :=
  (LruCache.put? r.maxCacheSize r.cache key ⟨records, now, ttl⟩).map fun cache =>
    { r with cache := cache }

/-! ## As a cache -/

/-- What `_put_in_cache` stores, for its records and their time to live. -/
def kind : LruCache.Kind ℚ (List Str × ℚ) DnsCacheEntry (List Str) where
  entry now put := ⟨put.1, now, put.2⟩
  expired := DnsCacheEntry.isExpired
  value := DnsCacheEntry.records

/-- A call of `_get_from_cache` or `_put_in_cache`. -/
def step (r : CachedDnsResolver) (a : LruCache.Call ℚ (Str × Str) (List Str × ℚ)) :
    CachedDnsResolver × Option (List Str) :=
  match a.action with
  | .get key => r.getFromCache key a.now
  | .put key (records, ttl) => ((r.putInCache key records ttl a.now).getD r, none)

theorem putInCache_eq {r : CachedDnsResolver} {n : ℕ} (hn : 1 ≤ n) (hr : r.maxCacheSize = n)
    (key : Str × Str) (records : List Str) (ttl now : ℚ) :
    r.putInCache key records ttl now =
      some { r with cache := LruCache.put n r.cache key ⟨records, now, ttl⟩ } := by
  rw [putInCache, hr, LruCache.put?_eq hn]
  rfl

/-- **The resolver is a cache.** -/
theorem isCache {n : ℕ} (hn : 1 ≤ n) : LruCache.IsCache kind n
    (fun r : CachedDnsResolver => r.maxCacheSize = n) cache step where
  keeps r a hr := by
    obtain ⟨now, action⟩ := a
    cases action with
    | get key => exact hr
    | put key b =>
      simp only [step, putInCache_eq hn hr]
      exact hr
  get r now key _ := ⟨rfl, rfl⟩
  put r now key b hr := by
    simp only [step, putInCache_eq hn hr]
    rfl

end CachedDnsResolver
end ScamOn.Authentication
