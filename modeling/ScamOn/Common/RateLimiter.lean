import Mathlib.Algebra.Order.Floor.Ring
import Mathlib.Data.Int.ConditionallyCompleteOrder
import Mathlib.Data.Rat.Floor
import Mathlib.Tactic.Linarith
import ScamOn.Common.RedisClient
import ScamOn.Lib.Decimal
import ScamOn.Lib.SlidingWindow

/-!
# The distributed rate limiter

`DistributedRateLimiter` counts the cost of its calls in Redis, under a key that changes
with every full `window_sec` of the clock, and allows a call while the count of its bucket
is within the limit.  It is called a sliding-window limiter.

* `isAllowed` follows the source, over the in-memory client.
* `tally` is what a bucket has counted after given calls, and `admitted` are the calls that
  fit into their buckets; both are functions of the calls alone.
* `Holds` and `allowedCalls_eq`: the store holds the tallies, so that the calls that are allowed
  are those admitted.
* `respects_iff_fits`: no window of `window_sec` holds more than the limit exactly when no
  admitted call finds too much left over from the bucket before.
* `straddling_window`: the shortest run that fails.
-/

namespace ScamOn.Common

open Machine SlidingWindow

/-! ## The limiter -/

/-- `DistributedRateLimiter`, without its client. -/
structure DistributedRateLimiter where
  tenantId : Uuid
  resourceName : String
  limit : ℤ
  windowSec : ℕ

/-- A call of `is_allowed`, at one instant: over the in-memory client it never waits. -/
structure RateCall where
  now : ℚ
  cost : ℤ
  deriving DecidableEq

namespace DistributedRateLimiter

/-- `int(time.time() // self.window_sec)`. -/
def bucket (l : DistributedRateLimiter) (now : ℚ) : ℤ := ⌊now / l.windowSec⌋

/-- The key of a bucket. -/
def key (l : DistributedRateLimiter) (bucket : ℤ) : String :=
  "scamon:" ++ l.tenantId.str ++ ":ratelimit:" ++ l.resourceName ++ ":" ++ toString bucket

/-- `_get_bucket_key`. -/
def getBucketKey (l : DistributedRateLimiter) (now : ℚ) : String := l.key (l.bucket now)

/-- `is_allowed`: whether the call is allowed and what remains; `none` is a `ValueError` of the
client. -/
def isAllowed (l : DistributedRateLimiter) (s : Store) (c : RateCall) : Store × Option (Bool × ℤ) :=
  let key := l.getBucketKey c.now
  let incremented := step s ⟨c.now, .incr key c.cost⟩
  match incremented.2 with
  | .int count =>
    let s :=
      if count = c.cost then (step incremented.1 ⟨c.now, .expire key (l.windowSec * 2)⟩).1
      else incremented.1
    (s, some (decide (count ≤ l.limit), max 0 (l.limit - count)))
  | _ => (incremented.1, none)

/-- The calls of a run that are allowed. -/
def allowedCalls (l : DistributedRateLimiter) (s : Store) (calls : List RateCall) : List RateCall :=
  selected l.isAllowed (fun _ answer => answer.any Prod.fst) s calls

/-! ## What a bucket counts -/

/-- A count that can be written. -/
def Writable (n : ℤ) : Prop := (Text.strOfInt? n).isSome

instance (n : ℤ) : Decidable (Writable n) := inferInstanceAs (Decidable (_ = true))

/-- The count of a bucket after given calls. -/
def tally (l : DistributedRateLimiter) (b : ℤ) (calls : List RateCall) : ℤ :=
  calls.foldl (fun n c => if l.bucket c.now = b ∧ Writable (n + c.cost) then n + c.cost else n) 0

/-- What a call counts up to, after the calls before it. -/
def countOf (l : DistributedRateLimiter) (calls : List RateCall) (c : RateCall) : ℤ :=
  l.tally (l.bucket c.now) calls + c.cost

/-- A call fits into its bucket. -/
def FitsBucket (l : DistributedRateLimiter) (calls : List RateCall) (c : RateCall) : Prop :=
  Writable (l.countOf calls c) ∧ l.countOf calls c ≤ l.limit

instance (l : DistributedRateLimiter) (calls : List RateCall) (c : RateCall) :
    Decidable (l.FitsBucket calls c) := inferInstanceAs (Decidable (_ ∧ _))

/-- The calls that fit into their buckets. -/
def admitted (l : DistributedRateLimiter) (calls : List RateCall) : List RateCall :=
  selected (fun done c => (done ++ [c], decide (l.FitsBucket done c))) (fun _ fits => fits) [] calls

/-- What is left over, when a call is made, from the bucket before: the cost of the admitted
calls that came less than a window earlier, but before the call's own bucket began. -/
def leftOver (l : DistributedRateLimiter) (calls : List RateCall) (c : RateCall) : ℤ :=
  load RateCall.now RateCall.cost
    (Set.Ioo (c.now - l.windowSec) (l.bucket c.now * l.windowSec)) (l.admitted calls)

/-- No admitted call finds more left over than the limit leaves room for. -/
def Fits (l : DistributedRateLimiter) (calls : List RateCall) : Prop :=
  0 ≤ l.limit ∧ ∀ pre c, pre ++ [c] <+: calls → l.FitsBucket pre c →
    l.leftOver pre c + l.countOf pre c ≤ l.limit

variable {l : DistributedRateLimiter} {s : Store} {calls : List RateCall} {c : RateCall} {b : ℤ}

theorem tally_concat :
    l.tally b (calls ++ [c]) =
      if l.bucket c.now = b ∧ Writable (l.tally b calls + c.cost) then l.tally b calls + c.cost
      else l.tally b calls := by
  rw [tally, tally, List.foldl_append]
  rfl

theorem admitted_concat :
    l.admitted (calls ++ [c]) =
      l.admitted calls ++ (if l.FitsBucket calls c then [c] else []) := by
  have hrun : ∀ done, run (fun done c => (done ++ [c], decide (l.FitsBucket done c))) done calls =
      done ++ calls := by
    induction calls with
    | nil => simp
    | cons d calls ih => simp [ih]
  rw [admitted, selected_concat, hrun, ← admitted]
  simp

theorem mem_of_mem_admitted (h : c ∈ l.admitted calls) : c ∈ calls :=
  (selected_sublist ..).subset h

/-! ## Buckets of time -/

theorem bucket_eq_iff (hwindow : 0 < l.windowSec) {t : ℚ} :
    l.bucket t = b ↔ t ∈ Set.Ico ((b : ℚ) * l.windowSec) (b * l.windowSec + l.windowSec) := by
  have hpos : (0 : ℚ) < l.windowSec := by exact_mod_cast hwindow
  rw [bucket, Int.floor_eq_iff, le_div_iff₀ hpos, div_lt_iff₀ hpos, add_mul, one_mul, Set.mem_Ico]

theorem key_injective (l : DistributedRateLimiter) : Function.Injective l.key := by
  intro b b' h
  refine Text.toString_int_injective (String.toList_injective ?_)
  have hlist := congrArg String.toList h
  simpa [key] using hlist

/-! ## The store -/

/-- `INCRBY` of an entry that reads `n`. -/
theorem incrEntry_eq {now : ℚ} {amount n : ℤ} {entry : Option Entry} {base : Entry}
    (hbase : (liveEntry now entry).getD ⟨.str "0", none⟩ = base) (hn : base.value.int? = some n) :
    incrEntry now amount entry =
      match Text.strOfInt? (n + amount) with
      | some text => (some ⟨.str text, base.expiry⟩, .int (n + amount))
      | none => (entry, .valueError) := by
  cases htext : Text.strOfInt? (n + amount) with
  | some text => simp only [incrEntry, hbase, hn, htext]
  | none => simp only [incrEntry, hbase, hn, htext]

/-- A call whose `INCRBY` fails changes nothing. -/
theorem isAllowed_of_valueError
    (h : incrEntry c.now c.cost (s.get? (l.getBucketKey c.now)) =
      (s.get? (l.getBucketKey c.now), .valueError)) :
    (l.isAllowed s c).2 = none ∧ ∀ k, (l.isAllowed s c).1.get? k = s.get? k := by
  have hreply : (step s ⟨c.now, .incr (l.getBucketKey c.now) c.cost⟩).2 = .valueError := by
    show (s.access _ _).2 = _
    rw [Dict.access_snd, h]
  have hcall : l.isAllowed s c = ((step s ⟨c.now, .incr (l.getBucketKey c.now) c.cost⟩).1, none) := by
    simp only [isAllowed, hreply]
  refine ⟨by rw [hcall], fun k => ?_⟩
  rw [hcall]
  show (s.access _ _).1.get? k = _
  rw [Dict.get?_access, h]
  split_ifs with hk
  · rw [hk]
  · rfl

/-- A call whose `INCRBY` counts up writes the entry of its bucket; the first one gives it a
time to live of two windows. -/
theorem isAllowed_of_int {e : Entry} {count : ℤ}
    (h : incrEntry c.now c.cost (s.get? (l.getBucketKey c.now)) = (some e, .int count)) :
    (l.isAllowed s c).2 = some (decide (count ≤ l.limit), max 0 (l.limit - count)) ∧
      ∀ k, (l.isAllowed s c).1.get? k =
        if k = l.getBucketKey c.now then
          some (if count = c.cost then { e with expiry := some (c.now + l.windowSec * 2) } else e)
        else s.get? k := by
  have hreply : (step s ⟨c.now, .incr (l.getBucketKey c.now) c.cost⟩).2 = .int count := by
    show (s.access _ _).2 = _
    rw [Dict.access_snd, h]
  have hget : ∀ k, (step s ⟨c.now, .incr (l.getBucketKey c.now) c.cost⟩).1.get? k =
      if k = l.getBucketKey c.now then some e else s.get? k := by
    intro k
    show (s.access _ _).1.get? k = _
    rw [Dict.get?_access, h]
  constructor
  · simp only [isAllowed, hreply]
  · intro k
    simp only [isAllowed, hreply]
    split_ifs with hfirst hk hk
    · show (Dict.access _ _ _).1.get? k = _
      rw [Dict.get?_access, if_pos hk, hget, if_pos rfl]
      rfl
    · show (Dict.access _ _ _).1.get? k = _
      rw [Dict.get?_access, if_neg hk, hget, if_neg hk]
    · rw [hget, if_pos hk]
    · rw [hget, if_neg hk]

/-- The store holds what each bucket has counted, and keeps it until the bucket is over. -/
def Holds (l : DistributedRateLimiter) (s : Store) (calls : List RateCall) : Prop :=
  ∀ b, (l.tally b calls = 0 ∧ s.get? (l.key b) = none) ∨
    (0 < l.tally b calls ∧ ∃ text x, Text.strOfInt? (l.tally b calls) = some text ∧
      s.get? (l.key b) = some ⟨.str text, some x⟩ ∧ (b : ℚ) * l.windowSec + l.windowSec ≤ x)

theorem holds_empty (l : DistributedRateLimiter) : l.Holds ∅ [] := fun _ => .inl ⟨rfl, rfl⟩

/-- **What `INCRBY` finds**: the tally of the bucket, with an expiry unless it is zero. -/
theorem Holds.incr_eq (h : l.Holds s calls) (hwindow : 0 < l.windowSec) (c : RateCall) :
    ∃ base : Entry,
      (base.expiry = none ∧ l.tally (l.bucket c.now) calls = 0 ∨
        0 < l.tally (l.bucket c.now) calls ∧ ∃ x, base.expiry = some x ∧
          (l.bucket c.now : ℚ) * l.windowSec + l.windowSec ≤ x) ∧
      incrEntry c.now c.cost (s.get? (l.getBucketKey c.now)) =
        match Text.strOfInt? (l.countOf calls c) with
        | some text => (some ⟨.str text, base.expiry⟩, .int (l.countOf calls c))
        | none => (s.get? (l.getBucketKey c.now), .valueError) := by
  rcases h (l.bucket c.now) with ⟨hzero, hget⟩ | ⟨hpos, text, x, htext, hget, hx⟩
  · refine ⟨⟨.str "0", none⟩, .inl ⟨rfl, hzero⟩, ?_⟩
    rw [countOf, hzero]
    refine incrEntry_eq ?_ (by decide +kernel)
    rw [getBucketKey, hget]
    rfl
  · refine ⟨⟨.str text, some x⟩, .inr ⟨hpos, x, rfl, hx⟩, ?_⟩
    refine incrEntry_eq ?_ (Text.intOfStr?_of_strOfInt? htext)
    rw [getBucketKey, hget, liveEntry, if_neg, Option.getD_some]
    rintro ⟨x', hx', hlt⟩
    cases hx'
    have hnow := (bucket_eq_iff hwindow (t := c.now)).1 rfl
    exact absurd (hx.trans_lt hlt) (not_lt.2 hnow.2.le)

/-- **One call** answers by the tally, and the store holds the new one. -/
theorem Holds.isAllowed (h : l.Holds s calls) (hwindow : 0 < l.windowSec) (hcost : 0 < c.cost) :
    (l.isAllowed s c).2.any Prod.fst = decide (l.FitsBucket calls c) ∧
      l.Holds (l.isAllowed s c).1 (calls ++ [c]) := by
  obtain ⟨base, hbase, hincr⟩ := h.incr_eq hwindow c
  cases htext : Text.strOfInt? (l.countOf calls c) with
  | none =>
    have hunwritable : ¬Writable (l.countOf calls c) := by simp [Writable, htext]
    rw [htext] at hincr
    obtain ⟨hanswer, hget⟩ := isAllowed_of_valueError hincr
    refine ⟨?_, fun b => ?_⟩
    · rw [hanswer, Option.any_none, eq_comm, decide_eq_false_iff_not]
      exact fun hfits => hunwritable hfits.1
    · have htally : l.tally b (calls ++ [c]) = l.tally b calls := by
        rw [tally_concat]
        refine if_neg ?_
        rintro ⟨rfl, hwritable⟩
        exact hunwritable hwritable
      rw [htally, hget]
      exact h b
  | some text =>
    have hwritable : Writable (l.countOf calls c) := by simp [Writable, htext]
    rw [htext] at hincr
    obtain ⟨hanswer, hget⟩ := isAllowed_of_int hincr
    refine ⟨?_, fun b => ?_⟩
    · rw [hanswer, Option.any_some]
      simp [FitsBucket, hwritable]
    · rw [hget, tally_concat]
      by_cases hb : l.bucket c.now = b
      · subst hb
        have hcount : l.tally (l.bucket c.now) calls + c.cost = l.countOf calls c := rfl
        have hnow := (bucket_eq_iff hwindow (t := c.now)).1 rfl
        have hpos : (0 : ℚ) < l.windowSec := by exact_mod_cast hwindow
        have hkey : l.key (l.bucket c.now) = l.getBucketKey c.now := rfl
        rw [if_pos ⟨rfl, hwritable⟩, hcount, if_pos hkey]
        -- the entry has its time to live from the first call of the bucket
        rcases hbase with ⟨-, hzero⟩ | ⟨hcounted, x, hx, hle⟩
        · have hfirst : l.countOf calls c = c.cost := by rw [countOf, hzero, zero_add]
          refine .inr ⟨hfirst ▸ hcost, text, c.now + l.windowSec * 2, htext, ?_, ?_⟩
          · rw [if_pos hfirst]
          · linarith [hnow.1]
        · have hlater : l.countOf calls c ≠ c.cost := by
            rw [countOf]
            omega
          refine .inr ⟨?_, text, x, htext, ?_, hle⟩
          · rw [countOf]
            omega
          · rw [if_neg hlater, hx]
      · have hkey : l.key b ≠ l.getBucketKey c.now := fun heq => hb (key_injective l heq).symm
        rw [if_neg fun hin => hb hin.1, if_neg hkey]
        exact h b

/-- **The answers** of a run allow the calls that fit into their buckets. -/
theorem allowedCalls_eq (hwindow : 0 < l.windowSec) (hcost : ∀ c ∈ calls, 0 < c.cost) :
    l.Holds (run l.isAllowed ∅ calls) calls ∧ l.allowedCalls ∅ calls = l.admitted calls := by
  induction calls using List.reverseRecOn with
  | nil => exact ⟨holds_empty l, rfl⟩
  | append_singleton calls c ih =>
    obtain ⟨hholds, hold⟩ := ih fun d hd => hcost d (List.mem_append_left _ hd)
    obtain ⟨hanswer, hafter⟩ := hholds.isAllowed hwindow (hcost c (by simp))
    constructor
    · rw [run_append]
      exact hafter
    · rw [allowedCalls, selected_concat, ← allowedCalls, hold, admitted_concat, hanswer]
      simp

/-! ## Windows and buckets -/

/-- The instants of a bucket. -/
abbrev bucketTimes (l : DistributedRateLimiter) (b : ℤ) : Set ℚ := {t | l.bucket t = b}

/-- As long as a bucket is within the limit, every call it has counted was admitted. -/
theorem load_bucket (hcost : ∀ d ∈ calls, 0 < d.cost) (hle : l.tally b calls ≤ l.limit) :
    load RateCall.now RateCall.cost (l.bucketTimes b) (l.admitted calls) = l.tally b calls := by
  induction calls using List.reverseRecOn with
  | nil => rfl
  | append_singleton calls c ih =>
    have hcostOld : ∀ d ∈ calls, 0 < d.cost := fun d hd => hcost d (List.mem_append_left _ hd)
    have hc : 0 < c.cost := hcost c (by simp)
    have htally : l.tally b (calls ++ [c]) = _ := tally_concat
    rw [admitted_concat, load_append]
    by_cases hb : l.bucket c.now = b
    · subst hb
      by_cases hwritable : Writable (l.countOf calls c)
      · rw [if_pos ⟨rfl, hwritable⟩] at htally
        rw [htally] at hle ⊢
        have hfits : l.FitsBucket calls c := ⟨hwritable, hle⟩
        have hin : c.now ∈ l.bucketTimes (l.bucket c.now) := rfl
        rw [if_pos hfits, load_cons, if_pos hin, load_nil, add_zero, ih hcostOld (by omega)]
      · rw [if_neg fun hin => hwritable hin.2] at htally
        rw [htally] at hle ⊢
        rw [if_neg fun hfits => hwritable hfits.1, load_nil, add_zero, ih hcostOld hle]
    · rw [if_neg fun hin => hb hin.1] at htally
      rw [htally] at hle ⊢
      rw [ih hcostOld hle]
      have hout : c.now ∉ l.bucketTimes b := hb
      split_ifs
      · rw [load_cons, if_neg hout, load_nil, add_zero, add_zero]
      · rw [load_nil, add_zero]

/-- **Looking back from an admitted call**: what is left over from the bucket before, and what
its own bucket has counted. -/
theorem load_trailing (hwindow : 0 < l.windowSec) (hcost : ∀ d ∈ calls, 0 < d.cost)
    (hc : 0 < c.cost) (hlatest : ∀ d ∈ calls, d.now ≤ c.now) (hfits : l.FitsBucket calls c) :
    load RateCall.now RateCall.cost (Set.Ioc (c.now - l.windowSec) c.now) (l.admitted calls ++ [c]) =
      l.leftOver calls c + l.countOf calls c := by
  have hpos : (0 : ℚ) < l.windowSec := by exact_mod_cast hwindow
  have hnow := (bucket_eq_iff hwindow (t := c.now)).1 rfl
  have hself : c.now ∈ Set.Ioc (c.now - (l.windowSec : ℚ)) c.now := ⟨by linarith, le_rfl⟩
  have hbucket : l.tally (l.bucket c.now) calls ≤ l.limit := by
    have hcount := hfits.2
    rw [countOf] at hcount
    omega
  rw [load_append, load_cons, if_pos hself, load_nil, add_zero, countOf, ← add_assoc, leftOver,
    ← load_bucket hcost hbucket]
  congr 1
  refine load_eq_add (fun d hd => ?_) fun d hd hbefore hin => ?_
  · have hle := hlatest d (mem_of_mem_admitted hd)
    show d.now ∈ Set.Ioc _ _ ↔ d.now ∈ Set.Ioo _ _ ∨ l.bucket d.now = _
    rw [bucket_eq_iff hwindow]
    constructor
    · rintro ⟨hlow, -⟩
      rcases lt_or_ge d.now (l.bucket c.now * l.windowSec) with hbefore | hafter
      · exact .inl ⟨hlow, hbefore⟩
      · exact .inr ⟨hafter, hle.trans_lt hnow.2⟩
    · rintro (hbefore | hin)
      · exact ⟨hbefore.1, hle⟩
      · exact ⟨by linarith [hin.1, hnow.2], hle⟩
  · have hin := (bucket_eq_iff hwindow).1 (show l.bucket d.now = l.bucket c.now from hin)
    exact absurd hbefore.2 (not_lt.2 hin.1)

theorem trailing_admitted_iff (hwindow : 0 < l.windowSec) (hcost : ∀ c ∈ calls, 0 < c.cost)
    (hsorted : calls.Pairwise fun c d => c.now ≤ d.now) :
    TrailingWithin RateCall.now RateCall.cost (l.windowSec : ℚ) l.limit (l.admitted calls) ↔
      ∀ pre c, pre ++ [c] <+: calls → l.FitsBucket pre c →
        l.leftOver pre c + l.countOf pre c ≤ l.limit := by
  induction calls using List.reverseRecOn with
  | nil =>
    constructor
    · intro _ pre c hpre
      simp at hpre
    · intro _ pre c hpre
      simp [admitted, selected] at hpre
  | append_singleton calls c ih =>
    have hcostOld : ∀ d ∈ calls, 0 < d.cost := fun d hd => hcost d (List.mem_append_left _ hd)
    obtain ⟨hsortedOld, -, hlast⟩ := List.pairwise_append.1 hsorted
    have hlatest : ∀ d ∈ calls, d.now ≤ c.now := fun d hd => hlast d hd c (by simp)
    rw [forall_prefix_concat, admitted_concat, ← ih hcostOld hsortedOld]
    split_ifs with hfits
    · rw [trailingWithin_concat, load_trailing hwindow hcostOld (hcost c (by simp)) hlatest hfits]
      simp [hfits]
    · simp [hfits]

/-- **When the window slides.**  The calls that are allowed keep the limit in every window of
`window_sec` exactly when the limit is not negative and every admitted call has room for what
is left over from the bucket before. -/
theorem respects_iff_fits (l : DistributedRateLimiter) (calls : List RateCall)
    (hwindow : 0 < l.windowSec) (hcost : ∀ c ∈ calls, 0 < c.cost)
    (hsorted : calls.Pairwise fun c d => c.now ≤ d.now) :
    Respects RateCall.now RateCall.cost (l.windowSec : ℚ) l.limit (l.allowedCalls ∅ calls) ↔
      l.Fits calls := by
  have hcostAdmitted : ∀ c ∈ l.admitted calls, 0 ≤ c.cost := fun c hc =>
    (hcost c (mem_of_mem_admitted hc)).le
  rw [(allowedCalls_eq hwindow hcost).2, Fits, ← trailing_admitted_iff hwindow hcost hsorted]
  constructor
  · intro h
    have hlimit : 0 ≤ l.limit := (load_nonneg hcostAdmitted).trans (h 0).1
    exact ⟨hlimit, (respects_iff_trailing hlimit hcostAdmitted
      (hsorted.sublist (selected_sublist ..))).1 h⟩
  · rintro ⟨hlimit, h⟩
    exact (respects_iff_trailing hlimit hcostAdmitted
      (hsorted.sublist (selected_sublist ..))).2 h

/-- The whole limit just before a bucket ends, and again a minute later. -/
theorem respects_apart :
    let l : DistributedRateLimiter := ⟨.ofNat 1, "embed", 2, 60⟩
    l.allowedCalls ∅ [⟨59, 2⟩, ⟨119, 2⟩] = [⟨59, 2⟩, ⟨119, 2⟩] ∧
      Respects RateCall.now RateCall.cost (60 : ℕ) 2 (l.allowedCalls ∅ [⟨59, 2⟩, ⟨119, 2⟩]) := by
  intro l
  refine ⟨by decide +kernel, (respects_iff_fits l [⟨59, 2⟩, ⟨119, 2⟩] (by decide) (by decide)
    (by norm_num)).2 ⟨by decide, ?_⟩⟩
  rintro (_ | ⟨d, _ | ⟨e, pre⟩⟩) c hpre
  · obtain rfl : c = ⟨59, 2⟩ := by simpa using hpre
    decide +kernel
  · obtain ⟨rfl, rfl⟩ : d = ⟨59, 2⟩ ∧ c = ⟨119, 2⟩ := by simpa using hpre
    decide +kernel
  · simp at hpre

/-- The whole limit just before a bucket ends, and again just after: four in two seconds. -/
theorem straddling_window :
    let l : DistributedRateLimiter := ⟨.ofNat 1, "embed", 2, 60⟩
    l.allowedCalls ∅ [⟨59, 2⟩, ⟨61, 2⟩] = [⟨59, 2⟩, ⟨61, 2⟩] ∧
      ¬Respects RateCall.now RateCall.cost (60 : ℕ) 2 (l.allowedCalls ∅ [⟨59, 2⟩, ⟨61, 2⟩]) := by
  intro l
  have hallowed : l.allowedCalls ∅ [⟨59, 2⟩, ⟨61, 2⟩] = [⟨59, 2⟩, ⟨61, 2⟩] := by decide +kernel
  refine ⟨hallowed, fun h => ?_⟩
  rw [hallowed] at h
  exact absurd (h 59).1 (by decide +kernel)

end DistributedRateLimiter
end ScamOn.Common
