import Mathlib.Tactic.Linarith
import ScamOn.Lib.SlidingWindow
import ScamOn.ThreatIntel.Manager

/-!
# What the guards of a provider promise

A provider is reached through a circuit breaker and a rate limiter.  This file follows
each of them over whole runs.

* `CircuitBreaker.visit` is one turn of the loop in `lookup_indicator` as the breaker sees
  it, and `breaker_consult` says so; `calls` are the provider calls of a run.
* `breaker_discipline`: after as many failures in a row as the threshold the provider
  rests for the recovery timeout, and the first call after that decides.
* `RateLimiter.granted` are the calls of `acquire` that are answered `True`;
  `bucket_rate` bounds them in every interval of time.
-/

namespace ScamOn.ThreatIntel

open Machine SlidingWindow

/-! ## The breaker and its provider -/

/-- A turn of the provider: whether the rate limiter skips the lookup and how the provider
answers, if it comes to that, with the clock in `allow_request` and at the end. -/
structure Visit where
  allowedAt : ℚ
  skipped : Bool
  failed : Bool
  recordedAt : ℚ
  deriving DecidableEq

/-- A call of the provider. -/
structure ProviderCall where
  allowedAt : ℚ
  recordedAt : ℚ
  failed : Bool
  deriving DecidableEq

namespace CircuitBreaker

/-- `ProviderCircuitBreaker.__init__`. -/
def new (failureThreshold : ℤ) (recoveryTimeout now : ℚ) : CircuitBreaker :=
  ⟨failureThreshold, recoveryTimeout, .closed, 0, now⟩

/-- A turn, with the provider call it makes. -/
def visit (cb : CircuitBreaker) (v : Visit) : CircuitBreaker × Option ProviderCall :=
  let allowed := cb.allowRequest v.allowedAt
  if allowed.2 = false then (allowed.1, none)
  else if v.skipped then (allowed.1, none)
  else if v.failed then
    (allowed.1.recordFailure v.recordedAt, some ⟨v.allowedAt, v.recordedAt, true⟩)
  else (allowed.1.recordSuccess v.recordedAt, some ⟨v.allowedAt, v.recordedAt, false⟩)

/-- The provider calls of a run, in order. -/
def calls (cb : CircuitBreaker) (visits : List Visit) : List ProviderCall :=
  (outputs visit cb visits).flatMap Option.toList

/-- The clock does not run backwards. -/
def Ordered : ℚ → List Visit → Prop
  | _, [] => True
  | now, v :: visits =>
    now ≤ v.allowedAt ∧ v.allowedAt ≤ v.recordedAt ∧ Ordered v.recordedAt visits

instance Ordered.decidable : ∀ (now : ℚ) (visits : List Visit), Decidable (Ordered now visits)
  | _, [] => isTrue trivial
  | now, v :: visits =>
    have : Decidable (Ordered v.recordedAt visits) := Ordered.decidable _ _
    inferInstanceAs (Decidable (now ≤ v.allowedAt ∧ v.allowedAt ≤ v.recordedAt ∧ _))

/-- The failures since the last success. -/
def streak (history : List ProviderCall) : ℕ :=
  (history.reverse.takeWhile ProviderCall.failed).length

/-- In the closed state the failures stay below the threshold. -/
def BelowThreshold (cb : CircuitBreaker) : Prop :=
  cb.state = .closed → cb.failureCount < cb.failureThreshold

/-- After `threshold` failures in a row there is no call until `timeout` has passed since
the last of them. -/
def RestsAfterFailures (threshold : ℤ) (timeout : ℚ) (history : List ProviderCall) : Prop :=
  ∀ pre fails post, history = pre ++ fails ++ post → (fails.length : ℤ) = threshold →
    (∀ f ∈ fails, f.failed) → ∀ f ∈ fails.getLast?, ∀ c ∈ post, f.recordedAt + timeout ≤ c.allowedAt

/-- If the first call after `threshold` failures in a row fails as well, there is no call
for another `timeout`. -/
def RestsAfterTrial (threshold : ℤ) (timeout : ℚ) (history : List ProviderCall) : Prop :=
  ∀ pre fails trial post, history = pre ++ fails ++ trial :: post →
    (fails.length : ℤ) = threshold → (∀ f ∈ fails, f.failed) → trial.failed →
    ∀ c ∈ post, trial.recordedAt + timeout ≤ c.allowedAt

variable {cb : CircuitBreaker} {v : Visit} {visits : List Visit} {history : List ProviderCall}
  {now : ℚ}

/-! ### The history of a run -/

theorem calls_cons :
    cb.calls (v :: visits) = (cb.visit v).2.toList ++ (cb.visit v).1.calls visits := rfl

@[simp] theorem streak_nil : streak [] = 0 := rfl

theorem streak_concat_of_failed {c : ProviderCall} (h : c.failed = true) :
    streak (history ++ [c]) = streak history + 1 := by
  simp [streak, h]

theorem streak_concat_of_succeeded {c : ProviderCall} (h : c.failed = false) :
    streak (history ++ [c]) = 0 := by
  simp [streak, h]

theorem length_le_streak {pre fails : List ProviderCall} (h : ∀ f ∈ fails, f.failed) :
    fails.length ≤ streak (pre ++ fails) := by
  induction fails using List.reverseRecOn with
  | nil => exact Nat.zero_le _
  | append_singleton fails f ih =>
    have hf : f.failed = true := h f (by simp)
    have hold := ih fun g hg => h g (List.mem_append_left _ hg)
    rw [← List.append_assoc, streak_concat_of_failed hf, List.length_append, List.length_singleton]
    omega

/-! ### The invariant -/

/-- What state, counter and timestamp say about the history at the time `now`. -/
structure Inv (threshold : ℤ) (timeout : ℚ) (cb : CircuitBreaker) (history : List ProviderCall)
    (now : ℚ) : Prop where
  threshold_eq : cb.failureThreshold = threshold
  timeout_eq : cb.recoveryTimeout = timeout
  count_eq : cb.failureCount = streak history
  closed_iff : cb.state = .closed ↔ (streak history : ℤ) < threshold
  opened_since : cb.state = .opened → ∀ c ∈ history.getLast?, c.recordedAt = cb.lastStateChange
  half_since : cb.state = .halfOpen →
    (∀ c ∈ history.getLast?, c.recordedAt + timeout ≤ cb.lastStateChange) ∧
      cb.lastStateChange ≤ now
  past : ∀ c ∈ history, c.allowedAt ≤ now
  rests : RestsAfterFailures threshold timeout history

variable {threshold : ℤ} {timeout : ℚ}

theorem inv_new (hthreshold : 1 ≤ threshold) (timeout now : ℚ) :
    Inv threshold timeout (new threshold timeout now) [] now where
  threshold_eq := rfl
  timeout_eq := rfl
  count_eq := rfl
  closed_iff := by
    simp only [new, streak_nil, Nat.cast_zero, true_iff]
    omega
  opened_since := by simp
  half_since := by simp [new]
  past := by simp
  rests := by
    intro pre fails post h _ _ f _ c hc
    have hpost : post = [] := by simp_all
    rw [hpost] at hc
    cases hc

/-- A call that follows `threshold` failures comes late enough, if the last of them is long
past. -/
theorem RestsAfterFailures.concat {c : ProviderCall}
    (h : RestsAfterFailures threshold timeout history)
    (hpast : ∀ d ∈ history, d.allowedAt ≤ c.allowedAt)
    (hgap : threshold ≤ streak history →
      ∀ f ∈ history.getLast?, f.recordedAt + timeout ≤ c.allowedAt) :
    RestsAfterFailures threshold timeout (history ++ [c]) := by
  intro pre fails post heq hlength hfails f hf d hd
  rcases List.eq_nil_or_concat post with rfl | ⟨post, e, rfl⟩
  · cases hd
  rw [List.concat_eq_append, ← List.append_assoc] at heq
  obtain ⟨hhistory, hlast⟩ := List.append_inj' heq rfl
  cases hlast
  rw [List.concat_eq_append] at hd
  rcases List.mem_append.1 hd with hd | hd
  · exact h pre fails post hhistory hlength hfails f hf d hd
  · rw [List.mem_singleton.1 hd]
    -- the call comes right after the failures, or after another call that was late enough
    rcases post with _ | ⟨e, post⟩
    · rw [List.append_nil] at hhistory
      refine hgap ?_ f ?_
      · have hstreak : fails.length ≤ streak (pre ++ fails) := length_le_streak hfails
        rw [← hhistory] at hstreak
        omega
      · rw [hhistory, List.getLast?_append, hf]
        rfl
    · have hearlier := h pre fails (e :: post) hhistory hlength hfails f hf e (by simp)
      exact hearlier.trans (hpast e (by rw [hhistory]; simp))

/-- `allow_request` keeps the invariant. -/
theorem inv_allowRequest (h : Inv threshold timeout cb history now) {t : ℚ} (ht : now ≤ t) :
    Inv threshold timeout (cb.allowRequest t).1 history t := by
  have hpast : ∀ c ∈ history, c.allowedAt ≤ t := fun c hc => (h.past c hc).trans ht
  unfold allowRequest
  split_ifs with hopened hdue
  · refine ⟨h.threshold_eq, h.timeout_eq, h.count_eq, ?_, by simp, fun _ => ⟨?_, le_rfl⟩, hpast,
      h.rests⟩
    · have hclosed := h.closed_iff
      simp only [hopened, reduceCtorEq, false_iff] at hclosed
      simpa using hclosed
    · intro c hc
      have hc := h.opened_since hopened c hc
      have hdue := h.timeout_eq ▸ hdue
      show c.recordedAt + timeout ≤ t
      linarith
  · exact { h with
      half_since := by simp [hopened]
      past := hpast }
  · exact { h with
      half_since := fun hhalf => ⟨(h.half_since hhalf).1, (h.half_since hhalf).2.trans ht⟩
      past := hpast }

/-- A breaker that lets a request through is closed or half open, and the failures that
opened it are long past. -/
theorem allowed_cases (h : Inv threshold timeout cb history now) {t : ℚ} (ht : now ≤ t)
    (hallowed : (cb.allowRequest t).2 = true) :
    (cb.allowRequest t).1.state ≠ .opened ∧
      (threshold ≤ streak history → ∀ c ∈ history.getLast?, c.recordedAt + timeout ≤ t) := by
  have hafter := inv_allowRequest h ht
  have hstate : (cb.allowRequest t).1.state ≠ .opened := by
    unfold allowRequest at hallowed ⊢
    split_ifs at hallowed ⊢ with hopened hdue
    · simp
    · exact hopened
  refine ⟨hstate, fun hstreak c hc => ?_⟩
  have hhalf : (cb.allowRequest t).1.state = .halfOpen := by
    rcases hcases : (cb.allowRequest t).1.state with _ | _ | _
    · have hbelow := hafter.closed_iff.1 hcases
      omega
    · exact absurd hcases hstate
    · rfl
  obtain ⟨hgap, hle⟩ := hafter.half_since hhalf
  exact (hgap c hc).trans hle

/-- `record_success` after a call. -/
theorem inv_recordSuccess (h : Inv threshold timeout cb history now) (hthreshold : 1 ≤ threshold)
    (hstate : cb.state ≠ .opened) {c : ProviderCall} (hc : c.failed = false)
    (hallowed : c.allowedAt ≤ c.recordedAt) (hnow : now ≤ c.recordedAt)
    (hrests : RestsAfterFailures threshold timeout (history ++ [c])) :
    Inv threshold timeout (cb.recordSuccess c.recordedAt) (history ++ [c]) c.recordedAt ∧
      (cb.recordSuccess c.recordedAt).state = .closed ∧
      (cb.recordSuccess c.recordedAt).failureCount = 0 := by
  have hclosed : (cb.recordSuccess c.recordedAt).state = .closed := by
    unfold recordSuccess
    rcases hcases : cb.state with _ | _ | _
    · simp [hcases]
    · exact absurd hcases hstate
    · simp
  have hfields : (cb.recordSuccess c.recordedAt).failureThreshold = cb.failureThreshold ∧
      (cb.recordSuccess c.recordedAt).recoveryTimeout = cb.recoveryTimeout ∧
      (cb.recordSuccess c.recordedAt).failureCount = 0 := by
    unfold recordSuccess
    split_ifs <;> exact ⟨rfl, rfl, rfl⟩
  refine ⟨⟨hfields.1.trans h.threshold_eq, hfields.2.1.trans h.timeout_eq, ?_, ?_, ?_, ?_, ?_,
    hrests⟩, hclosed, hfields.2.2⟩
  · rw [streak_concat_of_succeeded hc, hfields.2.2]
    rfl
  · rw [streak_concat_of_succeeded hc, Nat.cast_zero]
    exact iff_of_true hclosed (by omega)
  · simp [hclosed]
  · simp [hclosed]
  · intro d hd
    rcases List.mem_append.1 hd with hd | hd
    · exact (h.past d hd).trans hnow
    · rw [List.mem_singleton.1 hd]
      exact hallowed

/-- `record_failure` after a call. -/
theorem inv_recordFailure (h : Inv threshold timeout cb history now) (hstate : cb.state ≠ .opened)
    {c : ProviderCall} (hc : c.failed = true) (hallowed : c.allowedAt ≤ c.recordedAt)
    (hnow : now ≤ c.recordedAt) (hrests : RestsAfterFailures threshold timeout (history ++ [c])) :
    Inv threshold timeout (cb.recordFailure c.recordedAt) (history ++ [c]) c.recordedAt := by
  have hpast : ∀ d ∈ history ++ [c], d.allowedAt ≤ c.recordedAt := by
    intro d hd
    rcases List.mem_append.1 hd with hd | hd
    · exact (h.past d hd).trans hnow
    · rw [List.mem_singleton.1 hd]
      exact hallowed
  have hcount : cb.failureCount + 1 = (streak (history ++ [c]) : ℤ) := by
    rw [streak_concat_of_failed hc, h.count_eq, Nat.cast_add, Nat.cast_one]
  unfold recordFailure
  dsimp only
  split_ifs with htrip
  · refine ⟨h.threshold_eq, h.timeout_eq, hcount, ?_, by simp, by simp, hpast, hrests⟩
    have hreached : threshold ≤ cb.failureCount + 1 := h.threshold_eq ▸ htrip.1
    simp only [reduceCtorEq, false_iff]
    omega
  · -- below the threshold the breaker was closed and stays so
    have hbelow : cb.failureCount + 1 < threshold := by
      by_contra hreached
      exact htrip ⟨h.threshold_eq ▸ not_lt.1 hreached, hstate⟩
    have hclosed : cb.state = .closed := h.closed_iff.2 (by rw [← h.count_eq]; omega)
    refine ⟨h.threshold_eq, h.timeout_eq, hcount, ?_, by simp [hclosed], by simp [hclosed], hpast,
      hrests⟩
    exact iff_of_true hclosed (by omega)

/-- **One turn** keeps the invariant, and a successful call closes the circuit. -/
theorem inv_visit (hthreshold : 1 ≤ threshold) (h : Inv threshold timeout cb history now)
    (hnow : now ≤ v.allowedAt) (hrecorded : v.allowedAt ≤ v.recordedAt) :
    Inv threshold timeout (cb.visit v).1 (history ++ (cb.visit v).2.toList) v.recordedAt ∧
      ∀ c ∈ (cb.visit v).2, c.failed = false →
        (cb.visit v).1.state = .closed ∧ (cb.visit v).1.failureCount = 0 := by
  have hafter := inv_allowRequest h hnow
  have hidle : Inv threshold timeout (cb.allowRequest v.allowedAt).1 history v.recordedAt := {
    hafter with
    half_since := fun hhalf => ⟨(hafter.half_since hhalf).1,
      (hafter.half_since hhalf).2.trans hrecorded⟩
    past := fun c hc => (hafter.past c hc).trans hrecorded }
  unfold visit
  dsimp only
  split_ifs with hrefused hskipped hfailed
  · simpa using hidle
  · simpa using hidle
  all_goals
    obtain ⟨hstate, hgap⟩ := allowed_cases h hnow (by simpa using hrefused)
    have hrests := h.rests.concat (c := ⟨v.allowedAt, v.recordedAt, v.failed⟩) hafter.past hgap
  · rw [hfailed] at hrests
    exact ⟨inv_recordFailure hafter hstate rfl hrecorded hrecorded hrests, by simp⟩
  · rw [Bool.not_eq_true] at hfailed
    rw [hfailed] at hrests
    obtain ⟨hinv, hclosed⟩ :=
      inv_recordSuccess hafter hthreshold hstate rfl hrecorded hrecorded hrests
    exact ⟨hinv, fun _ _ _ => hclosed⟩

/-- **A whole run** keeps the invariant, and what comes after it comes later. -/
theorem inv_run (hthreshold : 1 ≤ threshold) (h : Inv threshold timeout cb history now)
    {rest : List Visit} (hordered : Ordered now (visits ++ rest)) :
    ∃ later, Inv threshold timeout (run visit cb visits) (history ++ cb.calls visits) later ∧
      Ordered later rest := by
  induction visits generalizing cb history now with
  | nil => exact ⟨now, by simpa [calls, outputs] using h, hordered⟩
  | cons v visits ih =>
    obtain ⟨hallowed, hrecorded, hrest⟩ := hordered
    rw [run_cons, calls_cons, ← List.append_assoc]
    exact ih (inv_visit hthreshold h hallowed hrecorded).1 hrest

/-! ### The discipline -/

/-- A failing trial is the last of `threshold` failures in a row. -/
theorem RestsAfterFailures.trial (hthreshold : 1 ≤ threshold)
    (h : RestsAfterFailures threshold timeout history) :
    RestsAfterTrial threshold timeout history := by
  intro pre fails trial post heq hlength hfails htrial c hc
  obtain ⟨first, fails, rfl⟩ : ∃ first rest, fails = first :: rest :=
    List.exists_cons_of_length_pos (by omega)
  have hsplit : history = (pre ++ [first]) ++ (fails ++ [trial]) ++ post := by
    rw [heq]
    simp
  refine h _ _ post hsplit ?_ ?_ trial (by simp) c hc
  · rw [← hlength]
    simp
  · intro f hf
    rcases List.mem_append.1 hf with hf | hf
    · exact hfails f (List.mem_cons_of_mem _ hf)
    · rw [List.mem_singleton.1 hf]
      exact htrial

/-- **The discipline of the breaker.**  After as many failures in a row as the threshold
there is no provider call until the recovery timeout has passed since the last of them; if
the first call after that fails there is none for another timeout; a successful call leaves
the circuit closed with no failures counted; and a closed circuit has counted fewer failures
than the threshold. -/
theorem breaker_discipline (threshold : ℤ) (timeout createdAt : ℚ) (visits : List Visit)
    (hthreshold : 1 ≤ threshold) (hordered : Ordered createdAt visits) :
    let cb := new threshold timeout createdAt
    RestsAfterFailures threshold timeout (cb.calls visits) ∧
    RestsAfterTrial threshold timeout (cb.calls visits) ∧
    (∀ pre v, pre ++ [v] <+: visits → ∀ c ∈ ((run visit cb pre).visit v).2, c.failed = false →
      (run visit cb (pre ++ [v])).state = .closed ∧
        (run visit cb (pre ++ [v])).failureCount = 0) ∧
    ∀ pre, pre <+: visits → (run visit cb pre).BelowThreshold := by
  intro cb
  have hinv : ∀ pre rest, Ordered createdAt (pre ++ rest) →
      ∃ later, Inv threshold timeout (run visit cb pre) (cb.calls pre) later ∧
        Ordered later rest := fun pre rest hpre => by
    simpa using inv_run hthreshold (inv_new hthreshold timeout createdAt) hpre
  obtain ⟨_, hend, _⟩ := hinv visits [] (by simpa using hordered)
  refine ⟨hend.rests, hend.rests.trial hthreshold, ?_, ?_⟩
  · rintro pre v ⟨rest, rfl⟩ c hc hsuccess
    rw [List.append_assoc] at hordered
    obtain ⟨_, hthere, hallowed, hrecorded, _⟩ := hinv pre _ hordered
    rw [run_append]
    exact (inv_visit hthreshold hthere hallowed hrecorded).2 c hc hsuccess
  · rintro pre ⟨rest, rfl⟩ hclosed
    obtain ⟨_, hthere, _⟩ := hinv pre _ hordered
    rw [hthere.count_eq, hthere.threshold_eq]
    exact hthere.closed_iff.1 hclosed

/-- Two failures, a refused turn, a skipped trial, a trial that fails, another rest, and a
trial that succeeds. -/
theorem breaker_discipline_two :
    let visits : List Visit := [⟨0, false, true, 1⟩, ⟨2, false, true, 3⟩, ⟨5, false, false, 5⟩,
      ⟨13, true, false, 13⟩, ⟨14, false, true, 15⟩, ⟨20, false, false, 20⟩, ⟨25, false, false, 26⟩]
    let cb := new 2 10 0
    cb.calls visits = [⟨0, 1, true⟩, ⟨2, 3, true⟩, ⟨14, 15, true⟩, ⟨25, 26, false⟩] ∧
      RestsAfterFailures 2 10 (cb.calls visits) ∧ RestsAfterTrial 2 10 (cb.calls visits) := by
  intro visits cb
  have h := breaker_discipline 2 10 0 visits (by decide) (by decide +kernel)
  exact ⟨by decide +kernel, h.1, h.2.1⟩

end CircuitBreaker

/-- **The manager drives the breaker so**: a turn of the loop over the providers is a visit,
skipped when the limiter has no token. -/
theorem Guards.breaker_consult {ω : Type*} (g : Guards) (name : String) (a : Attempt ω) (now : ℚ) :
    (g.consult name a).1.breaker name now =
      ((g.breaker name a.createdAt).visit
        ⟨a.allowedAt, !((g.limiter name a.createdAt).acquire a.acquiredAt).2,
          !a.outcome.isOk, a.recordedAt⟩).1 := by
  have hset : ∀ (g : Guards) cb, (g.setBreaker name cb).breaker name now = cb := by
    intro g cb
    rw [breaker, setBreaker, Dict.get?_set_self, Option.getD_some]
  unfold consult CircuitBreaker.visit
  cases hallowed : ((g.breaker name a.createdAt).allowRequest a.allowedAt).2 with
  | false => simp [hset, hallowed]
  | true =>
    cases hacquired : ((g.limiter name a.createdAt).acquire a.acquiredAt).2 with
    | false => simp [hset, hallowed, hacquired]
    | true => cases a.outcome <;> simp [hset, hallowed, hacquired, Except.isOk, Except.toBool]

/-! ## The limiter -/

namespace RateLimiter

/-- `ProviderRateLimiter.__init__`. -/
def new (maxQueriesPerMinute : ℤ) (now : ℚ) : RateLimiter :=
  ⟨maxQueriesPerMinute, maxQueriesPerMinute, now⟩

/-- The instants at which `acquire` answers `True`. -/
def granted (rl : RateLimiter) (times : List ℚ) : List ℚ :=
  selected acquire (fun _ answer => answer) rl times

/-- How many of the instants lie between `a` and `b`, both included. -/
abbrev countBetween (a b : ℚ) (times : List ℚ) : ℕ :=
  load id (fun _ => 1) (Set.Icc a b) times

variable {rl : RateLimiter} {now : ℚ}

/-- The tokens after refilling. -/
def refilled (rl : RateLimiter) (now : ℚ) : ℚ :=
  min (rl.maxQueries : ℚ) (rl.tokens + (now - rl.lastRefill) * (rl.maxQueries / 60))

/-- **What `acquire` does**: it refills, and takes a token if there is a whole one. -/
theorem acquire_cases (rl : RateLimiter) (now : ℚ) :
    (1 ≤ rl.refilled now ∧
      rl.acquire now = ({ rl with tokens := rl.refilled now - 1, lastRefill := now }, true)) ∨
    (rl.refilled now < 1 ∧
      rl.acquire now = ({ rl with tokens := rl.refilled now, lastRefill := now }, false)) := by
  unfold acquire
  by_cases h : 1 ≤ rl.refilled now
  · exact .inl ⟨h, if_pos h⟩
  · exact .inr ⟨not_le.1 h, if_neg h⟩

/-- The bucket is neither overdrawn nor overfull. -/
structure Level (m : ℤ) (rl : RateLimiter) : Prop where
  pos : 0 ≤ m
  max_eq : rl.maxQueries = m
  nonneg : 0 ≤ rl.tokens
  le_max : rl.tokens ≤ m

variable {m : ℤ} {a b t : ℚ} {times : List ℚ}

theorem level_new (hm : 0 ≤ m) (now : ℚ) : Level m (new m now) :=
  ⟨hm, rfl, Int.cast_nonneg hm, le_rfl⟩

theorem Level.rate_nonneg (h : Level m rl) : (0 : ℚ) ≤ m / 60 :=
  div_nonneg (Int.cast_nonneg h.pos) (by norm_num)

theorem Level.refilled_nonneg (h : Level m rl) (hnow : rl.lastRefill ≤ now) :
    0 ≤ rl.refilled now := by
  have hgain := mul_nonneg (sub_nonneg.2 hnow) h.rate_nonneg
  rw [refilled, h.max_eq]
  exact le_min (Int.cast_nonneg h.pos) (add_nonneg h.nonneg hgain)

theorem Level.refilled_le (h : Level m rl) (now : ℚ) : rl.refilled now ≤ m :=
  h.max_eq ▸ min_le_left _ _

theorem Level.refilled_le_add (h : Level m rl) (now : ℚ) :
    rl.refilled now ≤ rl.tokens + (now - rl.lastRefill) * (m / 60) :=
  h.max_eq ▸ min_le_right _ _

theorem level_acquire (h : Level m rl) (hnow : rl.lastRefill ≤ now) :
    Level m (rl.acquire now).1 := by
  have hnonneg := h.refilled_nonneg hnow
  have hle := h.refilled_le now
  rcases acquire_cases rl now with ⟨htoken, heq⟩ | ⟨-, heq⟩
  · rw [heq]
    exact ⟨h.pos, h.max_eq, sub_nonneg.2 htoken, by show rl.refilled now - 1 ≤ m; linarith⟩
  · rw [heq]
    exact ⟨h.pos, h.max_eq, hnonneg, hle⟩

@[simp] theorem lastRefill_acquire : (rl.acquire now).1.lastRefill = now := by
  rcases acquire_cases rl now with ⟨-, heq⟩ | ⟨-, heq⟩ <;> rw [heq]

theorem mem_of_mem_granted (h : t ∈ rl.granted times) : t ∈ times :=
  (selected_sublist ..).subset h

variable (rl a b t times) in
/-- A grant costs a token: what a call adds to the count and leaves in the bucket was there
after refilling. -/
theorem count_add_tokens_le :
    (countBetween a b (rl.granted (t :: times)) : ℚ) + (rl.acquire t).1.tokens ≤
      countBetween a b ((rl.acquire t).1.granted times) + rl.refilled t := by
  rw [granted, selected]
  rcases acquire_cases rl t with ⟨-, heq⟩ | ⟨-, heq⟩
  · rw [heq]
    simp only [if_true, load_cons, granted]
    split_ifs <;> push_cast <;> linarith
  · rw [heq]
    simp [granted]

/-- Nothing is granted before the next call. -/
theorem count_eq_zero (htb : b < t) (hsorted : (t :: times).Pairwise (· ≤ ·)) :
    countBetween a b (rl.granted (t :: times)) = 0 := by
  refine load_eq_zero fun u hu hin => ?_
  rcases List.mem_cons.1 (mem_of_mem_granted hu) with rfl | hu
  · exact absurd hin.2 (not_le.2 htb)
  · exact absurd (((List.pairwise_cons.1 hsorted).1 u hu).trans hin.2) (not_le.2 htb)

/-- Grants are paid for by the tokens in the bucket and by those that come in. -/
theorem count_le_of_level (h : Level m rl) (hb : rl.lastRefill ≤ b)
    (hsorted : (rl.lastRefill :: times).Pairwise (· ≤ ·)) :
    (countBetween a b (rl.granted times) : ℚ) ≤ rl.tokens + (b - rl.lastRefill) * (m / 60) := by
  induction times generalizing rl with
  | nil =>
    have hgain := mul_nonneg (sub_nonneg.2 hb) h.rate_nonneg
    simpa [granted, selected] using add_nonneg h.nonneg hgain
  | cons t times ih =>
    obtain ⟨hfirst, hrest⟩ := List.pairwise_cons.1 hsorted
    have ht : rl.lastRefill ≤ t := hfirst t (List.mem_cons_self ..)
    rcases le_or_gt t b with htb | htb
    · have hlater := ih (level_acquire h ht) (by simpa using htb) (by simpa using hrest)
      have hpaid := count_add_tokens_le rl a b t times
      have hrefill := h.refilled_le_add t
      rw [lastRefill_acquire] at hlater
      linarith
    · have hgain := mul_nonneg (sub_nonneg.2 hb) h.rate_nonneg
      rw [count_eq_zero htb hrest, Nat.cast_zero]
      exact add_nonneg h.nonneg hgain

/-- Whatever there was before the interval, at its first call the bucket is at most full. -/
theorem count_le_of_full (h : Level m rl) (hab : a ≤ b)
    (hsorted : (rl.lastRefill :: times).Pairwise (· ≤ ·)) :
    (countBetween a b (rl.granted times) : ℚ) ≤ m + (b - a) * (m / 60) := by
  induction times generalizing rl with
  | nil =>
    have hgain := mul_nonneg (sub_nonneg.2 hab) h.rate_nonneg
    simpa [granted, selected] using add_nonneg (Int.cast_nonneg h.pos) hgain
  | cons t times ih =>
    obtain ⟨hfirst, hrest⟩ := List.pairwise_cons.1 hsorted
    have ht : rl.lastRefill ≤ t := hfirst t (List.mem_cons_self ..)
    have hlevel := level_acquire h ht
    have hlater : ((rl.acquire t).1.lastRefill :: times).Pairwise (· ≤ ·) := by simpa using hrest
    rcases lt_or_ge t a with hta | hta
    · have hout : t ∉ Set.Icc a b := fun hin => absurd hin.1 (not_le.2 hta)
      have hskip : countBetween a b (rl.granted (t :: times)) =
          countBetween a b ((rl.acquire t).1.granted times) := by
        rw [granted, selected]
        split_ifs
        · simp only [load_cons, id, if_neg hout, zero_add, granted]
        · rfl
      rw [hskip]
      exact ih hlevel hlater
    · rcases le_or_gt t b with htb | htb
      · have hrest := count_le_of_level (a := a) hlevel (by simpa using htb) hlater
        have hpaid := count_add_tokens_le rl a b t times
        have hfull := h.refilled_le t
        have hshorter := mul_le_mul_of_nonneg_right (sub_le_sub_left hta b) h.rate_nonneg
        rw [lastRefill_acquire] at hrest
        linarith
      · have hgain := mul_nonneg (sub_nonneg.2 hab) h.rate_nonneg
        rw [count_eq_zero htb hrest, Nat.cast_zero]
        exact add_nonneg (Int.cast_nonneg h.pos) hgain

/-- **The rate of the bucket.**  It is never overdrawn and never overfull, and in an interval
of `b - a` seconds it grants at most a full bucket and what comes in meanwhile. -/
theorem bucket_rate (m : ℤ) (createdAt : ℚ) (times : List ℚ) (hm : 0 ≤ m)
    (hsorted : (createdAt :: times).Pairwise (· ≤ ·)) :
    (∀ pre, pre <+: times →
      0 ≤ (run acquire (new m createdAt) pre).tokens ∧
        (run acquire (new m createdAt) pre).tokens ≤ m) ∧
    ∀ a b, a ≤ b →
      (countBetween a b ((new m createdAt).granted times) : ℚ) ≤ m + (b - a) * (m / 60) := by
  constructor
  · intro pre hpre
    have hsortedPre := hsorted.sublist (List.cons_prefix_cons.2 ⟨rfl, hpre⟩).sublist
    have hlevel : ∀ {rl : RateLimiter} {times : List ℚ}, Level m rl →
        (rl.lastRefill :: times).Pairwise (· ≤ ·) → Level m (run acquire rl times) := by
      intro rl times
      induction times generalizing rl with
      | nil => exact fun h _ => h
      | cons t times ih =>
        intro h hsorted
        obtain ⟨hfirst, hrest⟩ := List.pairwise_cons.1 hsorted
        exact ih (level_acquire h (hfirst t (List.mem_cons_self ..))) (by simpa using hrest)
    have hend := hlevel (level_new hm createdAt) hsortedPre
    exact ⟨hend.nonneg, hend.le_max⟩
  · intro a b hab
    exact count_le_of_full (level_new hm createdAt) hab hsorted

/-- Two queries a minute: five calls within half a minute get the bucket and one token. -/
theorem bucket_rate_two :
    let times : List ℚ := [0, 0, 0, 30, 30]
    (new 2 0).granted times = [0, 0, 30] ∧
      (countBetween 0 30 ((new 2 0).granted times) : ℚ) ≤ (2 : ℤ) + (30 - 0) * ((2 : ℤ) / 60) := by
  intro times
  have h := bucket_rate 2 0 times (by decide) (by norm_num [times])
  exact ⟨by decide +kernel, h.2 0 30 (by norm_num)⟩

end RateLimiter
end ScamOn.ThreatIntel
