import ScamOn.Lib.Machine
import ScamOn.Lib.Text
import ScamOn.ThreatIntel.Resilience

/-!
# The threat-intelligence manager

`ThreatIntelManager.lookup_indicator` answers from a cache, or asks every registered
provider that its circuit breaker and its rate limiter let through, and caches what came
back.

* `Registry`, `Guards.consult`, `Manager.lookupIndicator` follow the source.  A `Lookup`
  carries what the clocks show and how each provider answers.
* `consultAll_answered`: when every provider is asked and answers.
* `cache_transparent`: an answer from the cache is the complete answer to an earlier
  lookup of the same target, in every run whose lookups are complete and find no live entry
  of another target.
* `partial_answer_cached`: an answer without the providers that failed or were skipped,
  or for another spelling of the target, is cached all the same.
-/

namespace ScamOn.ThreatIntel

/-! ## Data -/

/-- `ThreatIntelTargetType`. -/
inductive TargetType
  | ip | domain | url | hash | email | certificate
  deriving DecidableEq, Repr

/-- The text of a `StrEnum` member. -/
def TargetType.value : TargetType → String
  | ip => "ip"
  | domain => "domain"
  | url => "url"
  | hash => "hash"
  | email => "email"
  | certificate => "certificate"

/-- `ThreatIntelProviderRegistry`: the providers' names, under their lower-cased names.
`lower` is `str.lower`. -/
structure Registry (lower : String → String) where
  providers : Dict String String
  keyed : ∀ p ∈ providers.entries, p.1 = lower p.2

/-- What happens at a provider's turn: the readings of the monotonic clock, and the
outcome of `lookup`, if it comes to that. -/
structure Attempt (ω : Type*) where
  createdAt : ℚ
  allowedAt : ℚ
  acquiredAt : ℚ
  recordedAt : ℚ
  outcome : Except String (Option ω)

/-- How a provider's turn ends. -/
inductive Turn (ω : Type*)
  | breakerOpen
  | rateLimited
  | answered (obs : Option ω)
  | failed (exc : String)
  deriving DecidableEq

/-- The observation a turn adds. -/
def Turn.observation {ω : Type*} : Turn ω → Option ω
  | answered obs => obs
  | _ => none

/-- A call of `lookup_indicator`: its arguments, the wall clock when the cache is asked
and when an entry is made, and each provider's turn. -/
structure Lookup (ω : Type*) where
  target : String
  targetType : TargetType
  now : ℚ
  storedAt : ℚ
  attempts : String → Attempt ω

/-- `circuit_breakers` and `rate_limiters`. -/
structure Guards where
  circuitBreakers : Dict String CircuitBreaker
  rateLimiters : Dict String RateLimiter

/-- `ThreatIntelManager`. -/
structure Manager (lower : String → String) (ω : Type*) where
  registry : Registry lower
  cache : ReputationCache ω
  guards : Guards

/-- What a lookup returns (`none` is the `KeyError` of a cache without room), whether from
the cache, and the providers' turns otherwise. -/
structure Answer (ω : Type*) where
  observations : Option (List ω)
  fromCache : Bool
  turns : List (String × Turn ω)

variable {lower : String → String} {ω : Type*}

namespace Registry

def empty : Registry lower := ⟨∅, by rintro p ⟨⟩⟩

/-- `register`. -/
def register (r : Registry lower) (providerName : String) : Registry lower where
  providers := r.providers.set (lower providerName) providerName
  keyed := by
    rintro ⟨key, name⟩ hp
    rw [Dict.mem_entries_iff, Dict.get?_set] at hp
    split_ifs at hp with hkey
    · cases hp
      exact hkey
    · exact r.keyed _ (Dict.mem_entries_iff.2 hp)

/-- `get_all_providers`. -/
def getAllProviders (r : Registry lower) : List String := r.providers.values

/-- No two registered providers have the same name. -/
theorem nodup_getAllProviders (r : Registry lower) : r.getAllProviders.Nodup := by
  rw [getAllProviders, Dict.values, List.Nodup, List.pairwise_map]
  have hkeys : r.providers.entries.Pairwise fun p q => p.1 ≠ q.1 :=
    List.pairwise_map.1 r.providers.nodup
  refine hkeys.imp_of_mem fun {p q} hp hq hne hname => hne ?_
  rw [r.keyed p hp, r.keyed q hq, hname]

end Registry

/-! ## A provider's turn -/

namespace Guards

/-- The provider's breaker, a new one if it has none. -/
def breaker (g : Guards) (name : String) (now : ℚ) : CircuitBreaker :=
  (g.circuitBreakers.get? name).getD (.init now)

/-- The provider's limiter, a new one if it has none. -/
def limiter (g : Guards) (name : String) (now : ℚ) : RateLimiter :=
  (g.rateLimiters.get? name).getD (.init now)

def setBreaker (g : Guards) (name : String) (cb : CircuitBreaker) : Guards :=
  { g with circuitBreakers := g.circuitBreakers.set name cb }

def setLimiter (g : Guards) (name : String) (rl : RateLimiter) : Guards :=
  { g with rateLimiters := g.rateLimiters.set name rl }

/-- The body of the loop over the providers. -/
def consult (g : Guards) (name : String) (a : Attempt ω) : Guards × Turn ω :=
  let cb := g.breaker name a.createdAt
  let rl := g.limiter name a.createdAt
  let allowed := cb.allowRequest a.allowedAt
  let g := (g.setBreaker name allowed.1).setLimiter name rl
  if allowed.2 = false then (g, .breakerOpen)
  else
    let acquired := rl.acquire a.acquiredAt
    let g := g.setLimiter name acquired.1
    if acquired.2 = false then (g, .rateLimited)
    else
      match a.outcome with
      | .ok obs => (g.setBreaker name (allowed.1.recordSuccess a.recordedAt), .answered obs)
      | .error exc => (g.setBreaker name (allowed.1.recordFailure a.recordedAt), .failed exc)

/-- The loop, with every turn in order. -/
def consultAll (attempts : String → Attempt ω) :
    Guards → List String → Guards × List (String × Turn ω)
  | g, [] => (g, [])
  | g, name :: rest =>
    let first := g.consult name (attempts name)
    let later := consultAll attempts first.1 rest
    (later.1, (name, first.2) :: later.2)

/-- The breaker and the limiter let the provider be asked, and it answers. -/
structure Consults (g : Guards) (name : String) (a : Attempt ω) : Prop where
  allowed : ((g.breaker name a.createdAt).allowRequest a.allowedAt).2 = true
  acquired : ((g.limiter name a.createdAt).acquire a.acquiredAt).2 = true
  answered : ∃ obs, a.outcome = .ok obs

variable {g : Guards} {name other : String} {a : Attempt ω}

@[simp] theorem breaker_setBreaker_of_ne (h : other ≠ name) (cb : CircuitBreaker) (now : ℚ) :
    (g.setBreaker name cb).breaker other now = g.breaker other now := by
  rw [breaker, breaker, setBreaker, Dict.get?_set_of_ne _ _ h]

@[simp] theorem breaker_setLimiter (rl : RateLimiter) (now : ℚ) :
    (g.setLimiter name rl).breaker other now = g.breaker other now := rfl

@[simp] theorem limiter_setBreaker (cb : CircuitBreaker) (now : ℚ) :
    (g.setBreaker name cb).limiter other now = g.limiter other now := rfl

@[simp] theorem limiter_setLimiter_of_ne (h : other ≠ name) (rl : RateLimiter) (now : ℚ) :
    (g.setLimiter name rl).limiter other now = g.limiter other now := by
  rw [limiter, limiter, setLimiter, Dict.get?_set_of_ne _ _ h]

/-- A turn leaves the guards of the other providers alone. -/
theorem consult_frame (h : other ≠ name) (a : Attempt ω) (now : ℚ) :
    (g.consult name a).1.breaker other now = g.breaker other now ∧
      (g.consult name a).1.limiter other now = g.limiter other now := by
  unfold consult
  dsimp only
  split_ifs
  · simp [h]
  · simp [h]
  · rcases a.outcome with exc | obs
    · simp [h]
    · simp [h]

theorem Consults.turn (h : g.Consults name a) : ∃ obs, (g.consult name a).2 = .answered obs := by
  obtain ⟨obs, hobs⟩ := h.answered
  refine ⟨obs, ?_⟩
  unfold consult
  simp only [h.allowed, h.acquired, hobs, Bool.true_eq_false, if_false]

theorem Consults.after (h : g.Consults other a) (hne : other ≠ name) (b : Attempt ω) :
    (g.consult name b).1.Consults other a := by
  obtain ⟨hbreaker, hlimiter⟩ := consult_frame (g := g) hne b a.createdAt
  exact ⟨hbreaker ▸ h.allowed, hlimiter ▸ h.acquired, h.answered⟩

theorem map_fst_consultAll (attempts : String → Attempt ω) (g : Guards) (names : List String) :
    (consultAll attempts g names).2.map Prod.fst = names := by
  induction names generalizing g with
  | nil => rfl
  | cons name rest ih => simp [consultAll, ih]

/-- **When the answer is complete**: every provider is let through by the guards it had
before the lookup, and answers. -/
theorem consultAll_answered {attempts : String → Attempt ω} {names : List String}
    (hnodup : names.Nodup) (h : ∀ name ∈ names, g.Consults name (attempts name)) :
    ∀ turn ∈ (consultAll attempts g names).2, ∃ obs, turn.2 = .answered obs := by
  induction names generalizing g with
  | nil =>
    intro turn hturn
    cases hturn
  | cons name rest ih =>
    obtain ⟨hname, hrest⟩ := List.nodup_cons.1 hnodup
    intro turn hturn
    rcases List.mem_cons.1 hturn with rfl | hturn
    · exact (h name (List.mem_cons_self ..)).turn
    · refine ih hrest (fun other hother => ?_) turn hturn
      have hne : other ≠ name := by
        rintro rfl
        exact hname hother
      exact (h other (List.mem_cons_of_mem _ hother)).after hne _

end Guards

/-! ## Lookups -/

/-- The observations of the turns, in order. -/
def observationsOf (turns : List (String × Turn ω)) : List ω :=
  turns.filterMap fun turn => turn.2.observation

/-- `target.strip()`. -/
def Lookup.targetClean (a : Lookup ω) : String := Text.strip a.target

/-- `f"{target_type.value}:{target_clean.lower()}"`. -/
def Lookup.cacheKey (lower : String → String) (a : Lookup ω) : String :=
  a.targetType.value ++ ":" ++ lower a.targetClean

namespace Manager

/-- The names of the providers a manager registers by itself. -/
def defaultProviders : List String :=
  ["VirusTotal", "AbuseIPDB", "AlienVaultOTX", "WHOIS/RDAP", "Google Safe Browsing", "PhishTank",
    "OpenPhish"]

/-- `ThreatIntelManager(registry, cache)`. -/
def init (registry : Registry lower) (ttlSeconds : ℚ) (maxSize : ℤ) : Manager lower ω where
  registry :=
    if registry.getAllProviders = [] then defaultProviders.foldl Registry.register registry
    else registry
  cache := .init ttlSeconds maxSize
  guards := ⟨∅, ∅⟩

/-- `lookup_indicator`. -/
def lookupIndicator (s : Manager lower ω) (a : Lookup ω) : Manager lower ω × Answer ω :=
  let cacheKey := a.cacheKey lower
  let found := s.cache.get cacheKey a.now
  match found.2 with
  | some cached => ({ s with cache := found.1 }, ⟨some cached, true, []⟩)
  | none =>
    let asked := s.guards.consultAll a.attempts s.registry.getAllProviders
    let observations := observationsOf asked.2
    match found.1.put cacheKey observations a.storedAt with
    | some cache =>
      ({ s with cache := cache, guards := asked.1 }, ⟨some observations, false, asked.2⟩)
    | none => ({ s with cache := found.1, guards := asked.1 }, ⟨none, false, asked.2⟩)

/-! ## Runs -/

/-- A manager with the history of its lookups. -/
abbrev History (lower : String → String) (ω : Type*) : Type _ :=
  Manager lower ω × List (Machine.Record (Manager lower ω) (Lookup ω) (Answer ω))

/-- The record is of a lookup in which all these providers were asked and answered, with
these observations. -/
structure CompleteAnswer (r : Machine.Record (Manager lower ω) (Lookup ω) (Answer ω))
    (providers : List String) (observations : List ω) : Prop where
  providers_eq : r.answer.turns.map Prod.fst = providers
  answered : ∀ turn ∈ r.answer.turns, ∃ obs, turn.2 = .answered obs
  observations_eq : observationsOf r.answer.turns = observations

/-- An answer from the cache is the complete answer of an earlier lookup of the same
target, no older than the time to live. -/
def AnswersAsAsked (h : History lower ω) (a : Lookup ω) : Prop :=
  (h.1.lookupIndicator a).2.fromCache = true →
    ∃ observations, (h.1.lookupIndicator a).2.observations = some observations ∧
      ∃ r ∈ h.2, CompleteAnswer r h.1.registry.getAllProviders observations ∧
        r.action.targetType = a.targetType ∧ r.action.targetClean = a.targetClean ∧
        a.now - r.action.storedAt ≤ h.1.cache.ttlSeconds

/-- The record is of a lookup under a key that the cache could not answer. -/
def MissedUnder (key : String) (r : Machine.Record (Manager lower ω) (Lookup ω) (Answer ω)) : Prop :=
  r.action.cacheKey lower = key ∧ (r.state.cache.get key r.action.now).2 = none

/-- A lookup the cache cannot answer gets an answer from every provider, and one that finds a
live entry finds that of the same target: the last one its key was missed for. -/
structure AsksAll (h : History lower ω) (a : Lookup ω) : Prop where
  consults : (h.1.cache.get (a.cacheKey lower) a.now).2 = none →
    ∀ name ∈ h.1.registry.getAllProviders, h.1.guards.Consults name (a.attempts name)
  sameTarget : (h.1.cache.get (a.cacheKey lower) a.now).2 ≠ none →
    ∀ r, Machine.IsLast (MissedUnder (a.cacheKey lower)) h.2 r →
      r.action.targetType = a.targetType ∧ r.action.targetClean = a.targetClean

/-- Every entry of the cache is the complete answer to the lookup that last missed its key. -/
def Backed (h : History lower ω) : Prop :=
  ∀ key entry, h.1.cache.cache.get? key = some entry →
    entry.ttlSeconds = h.1.cache.ttlSeconds ∧
    ∃ r, Machine.IsLast (MissedUnder key) h.2 r ∧ r.action.storedAt = entry.createdAt ∧
      CompleteAnswer r h.1.registry.getAllProviders entry.observations

variable {s : Manager lower ω} {h : History lower ω} {a : Lookup ω}

/-- **What a lookup does**: it answers from the cache, or asks the providers and puts what
they answer into the cache, if there is room. -/
theorem lookupIndicator_cases (s : Manager lower ω) (a : Lookup ω) :
    (∃ cached, (s.cache.get (a.cacheKey lower) a.now).2 = some cached ∧
      s.lookupIndicator a =
        ({ s with cache := (s.cache.get (a.cacheKey lower) a.now).1 }, ⟨some cached, true, []⟩)) ∨
    ((s.cache.get (a.cacheKey lower) a.now).2 = none ∧ ∃ asked,
      asked = s.guards.consultAll a.attempts s.registry.getAllProviders ∧
      ((∃ cache, (s.cache.get (a.cacheKey lower) a.now).1.put (a.cacheKey lower)
          (observationsOf asked.2) a.storedAt = some cache ∧
        s.lookupIndicator a = ({ s with cache := cache, guards := asked.1 },
          ⟨some (observationsOf asked.2), false, asked.2⟩)) ∨
      s.lookupIndicator a =
        ({ s with cache := (s.cache.get (a.cacheKey lower) a.now).1, guards := asked.1 },
          ⟨none, false, asked.2⟩))) := by
  unfold lookupIndicator
  dsimp only
  rcases hfound : (s.cache.get (a.cacheKey lower) a.now).2 with _ | cached
  · refine .inr ⟨rfl, _, rfl, ?_⟩
    dsimp only
    rcases hput : (s.cache.get (a.cacheKey lower) a.now).1.put (a.cacheKey lower)
      (observationsOf (s.guards.consultAll a.attempts s.registry.getAllProviders).2) a.storedAt
      with _ | cache
    · exact .inr rfl
    · exact .inl ⟨cache, rfl, rfl⟩
  · exact .inl ⟨cached, rfl, rfl⟩

/-- A lookup keeps the registry and the time to live. -/
theorem lookupIndicator_frame (s : Manager lower ω) (a : Lookup ω) :
    (s.lookupIndicator a).1.registry = s.registry ∧
      (s.lookupIndicator a).1.cache.ttlSeconds = s.cache.ttlSeconds := by
  rcases lookupIndicator_cases s a with
    ⟨cached, -, hlookup⟩ | ⟨-, asked, -, ⟨cache, hput, hlookup⟩ | hlookup⟩
  · rw [hlookup]
    exact ⟨rfl, ReputationCache.get_ttlSeconds⟩
  · rw [hlookup]
    exact ⟨rfl, (ReputationCache.put_ttlSeconds hput).trans ReputationCache.get_ttlSeconds⟩
  · rw [hlookup]
    exact ⟨rfl, ReputationCache.get_ttlSeconds⟩

theorem backed_step (hbacked : Backed h) (ha : AsksAll h a) :
    Backed (Machine.recorded lookupIndicator h a).1 := by
  obtain ⟨hregistry, httl⟩ := lookupIndicator_frame h.1 a
  intro key entry hget
  show entry.ttlSeconds = (h.1.lookupIndicator a).1.cache.ttlSeconds ∧
    ∃ r, Machine.IsLast (MissedUnder key) (h.2 ++ [_]) r ∧ r.action.storedAt = entry.createdAt ∧
      CompleteAnswer r (h.1.lookupIndicator a).1.registry.getAllProviders entry.observations
  rw [hregistry, httl]
  -- an entry that was there before, and whose key is not missed, keeps its record
  have hold (hget : h.1.cache.cache.get? key = some entry)
      (hnot : ¬MissedUnder key ⟨h.1, a, (h.1.lookupIndicator a).2⟩) :
      entry.ttlSeconds = h.1.cache.ttlSeconds ∧
      ∃ r, Machine.IsLast (MissedUnder key) (h.2 ++ [⟨h.1, a, (h.1.lookupIndicator a).2⟩]) r ∧
        r.action.storedAt = entry.createdAt ∧
        CompleteAnswer r h.1.registry.getAllProviders entry.observations := by
    obtain ⟨hentry, r, hr, hcomplete⟩ := hbacked key entry hget
    exact ⟨hentry, r, hr.concat hnot, hcomplete⟩
  have hcache : (h.1.lookupIndicator a).1.cache.cache.get? key = some entry := hget
  rcases lookupIndicator_cases h.1 a with
    ⟨cached, hhit, hlookup⟩ | ⟨hmiss, asked, hasked, ⟨cache, hput, hlookup⟩ | hlookup⟩
  · rw [hlookup] at hcache
    refine hold (ReputationCache.get?_of_get hcache) ?_
    rintro ⟨rfl, hnone⟩
    cases hhit.symm.trans hnone
  · rw [hlookup] at hcache
    rcases ReputationCache.get?_of_put hput hcache with ⟨rfl, hentry⟩ | ⟨hkey, hcache⟩
    · refine ⟨?_, _, Machine.isLast_concat _ ⟨rfl, hmiss⟩, ?_, ?_⟩
      · rw [hentry, ReputationCache.get_ttlSeconds]
      · rw [hentry]
      · rw [hlookup, hentry]
        refine ⟨?_, ?_, rfl⟩
        · rw [hasked]
          exact Guards.map_fst_consultAll ..
        · rw [hasked]
          exact Guards.consultAll_answered h.1.registry.nodup_getAllProviders (ha.consults hmiss)
    · exact hold (ReputationCache.get?_of_get hcache) fun hmissed => hkey hmissed.1.symm
  · rw [hlookup] at hcache
    refine hold (ReputationCache.get?_of_get hcache) ?_
    rintro ⟨rfl, -⟩
    cases (ReputationCache.get?_of_get_eq_none hmiss).symm.trans hcache

theorem answersAsAsked_of_backed (hbacked : Backed h) (ha : AsksAll h a) : AnswersAsAsked h a := by
  intro hcached
  rcases lookupIndicator_cases h.1 a with
    ⟨cached, hhit, hlookup⟩ | ⟨-, asked, -, ⟨cache, -, hlookup⟩ | hlookup⟩
  · rw [hlookup]
    obtain ⟨entry, hget, hage, hobservations⟩ := ReputationCache.get_eq_some_iff.1 hhit
    obtain ⟨httl, r, hr, hstored, hcomplete⟩ := hbacked _ _ hget
    obtain ⟨htype, htarget⟩ := ha.sameTarget (by simp [hhit]) r hr
    rw [httl, ← hstored] at hage
    rw [hobservations] at hcomplete
    exact ⟨cached, rfl, r, hr.mem, hcomplete, htype, htarget, hage⟩
  · rw [hlookup] at hcached
    cases hcached
  · rw [hlookup] at hcached
    cases hcached

/-- **The cache is transparent** in every run in which each lookup that the cache cannot
answer is answered by every provider, and no lookup finds the live entry of another target: what
the cache returns is then the complete answer of an earlier lookup of the same target. -/
theorem cache_transparent (registry : Registry lower) (ttlSeconds : ℚ) (maxSize : ℤ)
    (lookups : List (Lookup ω))
    (h : Machine.Always (Machine.recorded lookupIndicator) AsksAll
      (init registry ttlSeconds maxSize, []) lookups) :
    Machine.Always (Machine.recorded lookupIndicator) AnswersAsAsked
      (init registry ttlSeconds maxSize, []) lookups := by
  refine Machine.always_of_inv (I := Backed) (fun _ _ => backed_step)
    (fun _ _ => answersAsAsked_of_backed) ?_ h
  intro key entry hget
  cases hget

/-- A manager with one provider. -/
def sampleManager : Manager Text.asciiLower String :=
  init (Registry.empty.register "PhishTank") 300 1000

/-- A lookup of a link, with what the provider does if it is asked. -/
def sampleLookup (target : String) (now : ℚ) (outcome : Except String (Option String)) :
    Lookup String :=
  ⟨target, .url, now, now, fun _ => ⟨now, now, now, now, outcome⟩⟩

/-- A listed link is looked up twice; the second time the provider is not asked. -/
def sampleLookups : List (Lookup String) :=
  [sampleLookup "http://evil.test/A" 0 (.ok (some "phishing")),
    sampleLookup " http://evil.test/A" 10 (.error "timeout")]

theorem cache_transparent_sampleLookups :
    Machine.Always (Machine.recorded lookupIndicator) AnswersAsAsked (sampleManager, [])
      sampleLookups := by
  refine cache_transparent _ 300 1000 _ ⟨⟨?_, ?_⟩, ⟨?_, ?_⟩, trivial⟩
  · intro _ name hname
    cases List.mem_singleton.1 hname
    exact ⟨by decide +kernel, by decide +kernel, _, rfl⟩
  · intro hhit
    exact absurd rfl hhit
  · intro hmiss
    exact absurd hmiss (by decide +kernel)
  · intro _ r hr
    cases List.mem_singleton.1 hr.mem
    exact ⟨rfl, by decide +kernel⟩

/-- **What is cached is not always an answer.**  The only provider fails, and ten seconds
later the empty list is returned from the cache; and the answer for one link is returned
for another that differs in the case of its path. -/
theorem partial_answer_cached :
    (¬Machine.Always (Machine.recorded lookupIndicator) AnswersAsAsked (sampleManager, [])
      [sampleLookup "http://evil.test/A" 0 (.error "timeout"),
        sampleLookup "http://evil.test/A" 10 (.ok (some "phishing"))]) ∧
    ¬Machine.Always (Machine.recorded lookupIndicator) AnswersAsAsked (sampleManager, [])
      [sampleLookup "http://evil.test/a" 0 (.ok none),
        sampleLookup "http://evil.test/A" 10 (.ok (some "phishing"))] := by
  constructor
  · rintro ⟨-, hsecond, -⟩
    obtain ⟨observations, -, r, hr, hcomplete, -⟩ := hsecond (by decide +kernel)
    cases List.mem_singleton.1 hr
    obtain ⟨obs, hobs⟩ := hcomplete.answered ("PhishTank", .failed "timeout") (by decide +kernel)
    cases hobs
  · rintro ⟨-, hsecond, -⟩
    obtain ⟨observations, -, r, hr, -, -, htarget, -⟩ := hsecond (by decide +kernel)
    cases List.mem_singleton.1 hr
    exact absurd htarget (by decide +kernel)

end Manager
end ScamOn.ThreatIntel
