import Mathlib.Algebra.Order.BigOperators.Group.List
import Mathlib.Algebra.Order.Group.Basic
import Mathlib.Data.List.Induction
import Mathlib.Order.Interval.Set.Basic

/-!
# Loads over windows of time

A history is a list of entries, each with an instant and a cost.  A limit over a
sliding window bounds the total cost of the entries in *every* interval of a given
length, while a program that enforces one can only look back from the entry it is about
to admit.

* `load` is the total cost of the entries whose instants lie in a set.
* `Respects` bounds it on every half-open interval of a given length.
* `respects_iff_trailing`: it is enough to look back from each entry when it is made.
-/

namespace ScamOn.SlidingWindow

variable {ι τ μ : Type*}

section Load

variable [AddCommMonoid μ] (time : ι → τ) (cost : ι → μ)

/-- The total cost of the entries whose instants lie in a set. -/
def load (S : Set τ) [DecidablePred (· ∈ S)] (history : List ι) : μ :=
  ((history.filter fun x => time x ∈ S).map cost).sum

variable {time cost} {S T : Set τ} [DecidablePred (· ∈ S)] [DecidablePred (· ∈ T)]

@[simp] theorem load_nil : load time cost S [] = 0 := rfl

theorem load_cons (x : ι) (history : List ι) :
    load time cost S (x :: history) =
      (if time x ∈ S then cost x else 0) + load time cost S history := by
  by_cases hx : time x ∈ S
  · simp [load, hx]
  · simp [load, hx]

theorem load_append (h k : List ι) :
    load time cost S (h ++ k) = load time cost S h + load time cost S k := by
  simp [load]

theorem load_eq_zero {history : List ι} (h : ∀ x ∈ history, time x ∉ S) :
    load time cost S history = 0 := by
  induction history with
  | nil => rfl
  | cons x history ih =>
    rw [load_cons, if_neg (h x (List.mem_cons_self ..)), zero_add]
    exact ih fun y hy => h y (List.mem_cons_of_mem _ hy)

/-- The load of a set that falls into two parts. -/
theorem load_eq_add {U : Set τ} [DecidablePred (· ∈ U)] {history : List ι}
    (hunion : ∀ x ∈ history, (time x ∈ U ↔ time x ∈ S ∨ time x ∈ T))
    (hdisjoint : ∀ x ∈ history, time x ∈ S → time x ∉ T) :
    load time cost U history = load time cost S history + load time cost T history := by
  induction history with
  | nil => simp
  | cons x history ih =>
    have hrest := ih (fun y hy => hunion y (List.mem_cons_of_mem _ hy))
      (fun y hy => hdisjoint y (List.mem_cons_of_mem _ hy))
    have hx : (if time x ∈ U then cost x else 0) =
        (if time x ∈ S then cost x else 0) + (if time x ∈ T then cost x else 0) := by
      have hU := hunion x (List.mem_cons_self ..)
      have hdis := hdisjoint x (List.mem_cons_self ..)
      by_cases hS : time x ∈ S
      · simp [hU, hS, hdis hS]
      · simp [hU, hS]
    rw [load_cons, load_cons, load_cons, hrest, hx, add_add_add_comm]

variable [PartialOrder μ] [IsOrderedAddMonoid μ]

theorem load_nonneg {history : List ι} (hcost : ∀ x ∈ history, 0 ≤ cost x) :
    0 ≤ load time cost S history := by
  refine List.sum_nonneg fun c hc => ?_
  obtain ⟨x, hx, rfl⟩ := List.mem_map.1 hc
  exact hcost x (List.mem_of_mem_filter hx)

/-- A set that holds more of the instants carries more load. -/
theorem load_mono {history : List ι} (hcost : ∀ x ∈ history, 0 ≤ cost x)
    (h : ∀ x ∈ history, time x ∈ S → time x ∈ T) :
    load time cost S history ≤ load time cost T history := by
  induction history with
  | nil => rfl
  | cons x history ih =>
    have hrest := ih (fun y hy => hcost y (List.mem_cons_of_mem _ hy))
      (fun y hy => h y (List.mem_cons_of_mem _ hy))
    rw [load_cons, load_cons]
    refine add_le_add ?_ hrest
    by_cases hS : time x ∈ S
    · rw [if_pos hS, if_pos (h x (List.mem_cons_self ..) hS)]
    · rw [if_neg hS]
      split_ifs
      · exact hcost x (List.mem_cons_self ..)
      · rfl

/-- A longer history carries more load. -/
theorem load_le_append {h k : List ι} (hcost : ∀ x ∈ k, 0 ≤ cost x) :
    load time cost S h ≤ load time cost S (h ++ k) := by
  rw [load_append]
  exact le_add_of_nonneg_right (load_nonneg hcost)

omit [PartialOrder μ] [IsOrderedAddMonoid μ] in
theorem load_concat_of_notMem {history : List ι} {x : ι} (h : time x ∉ S) :
    load time cost S (history ++ [x]) = load time cost S history := by
  have hx : load time cost S [x] = 0 := load_eq_zero (by simpa using h)
  rw [load_append, hx, add_zero]

end Load

section Windows

variable [AddCommGroup τ] [LinearOrder τ] [AddCommMonoid μ] [PartialOrder μ]
variable (time : ι → τ) (cost : ι → μ)

/-- No half-open interval of the given length carries more than the limit. -/
def Respects (length : τ) (limit : μ) (history : List ι) : Prop :=
  ∀ start,
    load time cost (Set.Ico start (start + length)) history ≤ limit ∧
      load time cost (Set.Ioc start (start + length)) history ≤ limit

/-- Whenever an entry is made, no more than the limit lies within the length before it. -/
def TrailingWithin (length : τ) (limit : μ) (history : List ι) : Prop :=
  ∀ pre x, pre ++ [x] <+: history →
    load time cost (Set.Ioc (time x - length) (time x)) (pre ++ [x]) ≤ limit

variable {time cost} {length : τ} {limit : μ} {history : List ι} {x : ι}

omit [AddCommGroup τ] [LinearOrder τ] [AddCommMonoid μ] [PartialOrder μ] in
/-- What holds of every entry and those before it, entry by entry. -/
theorem forall_prefix_concat {P : List ι → ι → Prop} {history : List ι} {x : ι} :
    (∀ pre y, pre ++ [y] <+: history ++ [x] → P pre y) ↔
      (∀ pre y, pre ++ [y] <+: history → P pre y) ∧ P history x := by
  constructor
  · intro h
    exact ⟨fun pre y hpre => h pre y (hpre.trans (List.prefix_append ..)),
      h history x (List.prefix_refl _)⟩
  · rintro ⟨h, hx⟩ pre y hpre
    rcases List.prefix_concat_iff.1 hpre with heq | hpre
    · obtain ⟨rfl, hxy⟩ := List.append_inj' heq rfl
      cases hxy
      exact hx
    · exact h pre y hpre

theorem trailingWithin_concat :
    TrailingWithin time cost length limit (history ++ [x]) ↔
      TrailingWithin time cost length limit history ∧
        load time cost (Set.Ioc (time x - length) (time x)) (history ++ [x]) ≤ limit :=
  forall_prefix_concat

variable [IsOrderedAddMonoid μ]

/-- Of the entries that a window holds together with the latest one, none is older than
the window's length. -/
theorem load_le_trailing (hcost : ∀ y ∈ history ++ [x], 0 ≤ cost y)
    (hlatest : ∀ y ∈ history, time y ≤ time x) {S : Set τ} [DecidablePred (· ∈ S)]
    (hS : ∀ t ∈ S, time x - length < t) :
    load time cost S (history ++ [x]) ≤
      load time cost (Set.Ioc (time x - length) (time x)) (history ++ [x]) := by
  refine load_mono hcost fun y hy hyS => ⟨hS _ hyS, ?_⟩
  rcases List.mem_append.1 hy with hy | hy
  · exact hlatest y hy
  · rw [List.mem_singleton.1 hy]

/-- **Looking back is enough.**  A history in the order of time respects the limit in
every window of the length exactly when each entry did, looking back, when it was made. -/
theorem respects_iff_trailing [IsOrderedAddMonoid τ] (hlimit : 0 ≤ limit) (hcost : ∀ y ∈ history, 0 ≤ cost y)
    (hsorted : history.Pairwise fun y z => time y ≤ time z) :
    Respects time cost length limit history ↔ TrailingWithin time cost length limit history := by
  constructor
  · rintro h pre x ⟨post, hpost⟩
    have hpostCost : ∀ y ∈ post, 0 ≤ cost y := by
      intro y hy
      exact hcost y (hpost ▸ List.mem_append_right _ hy)
    have hwhole := (h (time x - length)).2
    rw [← hpost] at hwhole
    simp only [sub_add_cancel] at hwhole
    exact (load_le_append hpostCost).trans hwhole
  · induction history using List.reverseRecOn with
    | nil =>
      intro _ start
      exact ⟨hlimit, hlimit⟩
    | append_singleton history x ih =>
      intro h start
      obtain ⟨hold, hx⟩ := trailingWithin_concat.1 h
      obtain ⟨hsortedOld, -, hlatest⟩ := List.pairwise_append.1 hsorted
      have hlatest : ∀ y ∈ history, time y ≤ time x := fun y hy => hlatest y hy x (by simp)
      obtain ⟨hico, hioc⟩ :=
        ih (fun y hy => hcost y (List.mem_append_left _ hy)) hsortedOld hold start
      constructor
      · by_cases hin : time x ∈ Set.Ico start (start + length)
        · refine (load_le_trailing hcost hlatest fun t ht => ?_).trans hx
          exact (sub_lt_iff_lt_add.2 hin.2).trans_le ht.1
        · rw [load_concat_of_notMem hin]
          exact hico
      · by_cases hin : time x ∈ Set.Ioc start (start + length)
        · refine (load_le_trailing hcost hlatest fun t ht => ?_).trans hx
          exact (sub_le_iff_le_add.2 hin.2).trans_lt ht.1
        · rw [load_concat_of_notMem hin]
          exact hioc

end Windows
end ScamOn.SlidingWindow
