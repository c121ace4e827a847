import Mathlib.Data.Finset.Sort
import Mathlib.Data.List.Sort
import Mathlib.Order.Basic

/-!
# Rankings

A list in descending order of a key, as a stable sort leaves it, and the first entries of it.

* `ranked_filter`: it does not matter whether one filters before or after the sort.
* `filter_take_eq_iff`: it does matter whether one filters before or after the cut, and says
  exactly when it does not.
* `ranked_unique`: with distinct keys there is only one ranking.
* `sortedSet` is a set in ascending order.
-/

namespace ScamOn

variable {α κ : Type*} [LinearOrder κ]

/-- `l.sort(key=key, reverse=True)`: the largest key first, equal keys in their order. -/
def ranked (key : α → κ) (l : List α) : List α := l.insertionSort fun a b => key b ≤ key a

variable (key : α → κ)

theorem ranked_perm (l : List α) : (ranked key l).Perm l := List.perm_insertionSort _ l

@[simp] theorem mem_ranked {l : List α} {a : α} : a ∈ ranked key l ↔ a ∈ l :=
  (ranked_perm key l).mem_iff

theorem pairwise_ranked (l : List α) : (ranked key l).Pairwise fun a b => key b ≤ key a := by
  have htotal : Std.Total fun a b : α => key b ≤ key a := ⟨fun _ _ => le_total _ _⟩
  have htrans : IsTrans α fun a b => key b ≤ key a := ⟨fun _ _ _ h h' => le_trans h' h⟩
  exact List.pairwise_insertionSort _ l

theorem ranked_map {β : Type*} (f : β → α) (l : List β) :
    ranked key (l.map f) = (ranked (fun b => key (f b)) l).map f := by
  refine (List.map_insertionSort _ _ f l fun a _ b _ => ?_).symm
  exact Iff.rfl

theorem orderedInsert_of_forall_le {l : List α} {a : α} (h : ∀ b ∈ l, key b ≤ key a) :
    l.orderedInsert (fun a b => key b ≤ key a) a = a :: l := by
  cases l with
  | nil => rfl
  | cons b l => exact if_pos (h b (List.mem_cons_self ..))

theorem filter_orderedInsert (p : α → Bool) (a : α) {l : List α}
    (h : l.Pairwise fun a b => key b ≤ key a) :
    (l.orderedInsert (fun a b => key b ≤ key a) a).filter p =
      if p a then (l.filter p).orderedInsert (fun a b => key b ≤ key a) a else l.filter p := by
  induction l with
  | nil =>
    cases hpa : p a with
    | true => simp [hpa]
    | false => simp [hpa]
  | cons b l ih =>
    obtain ⟨hb, hl⟩ := List.pairwise_cons.1 h
    by_cases hab : key b ≤ key a
    · -- The insertion is at the head, before and after the filter.
      have hall : ∀ c ∈ (b :: l).filter p, key c ≤ key a := by
        intro c hc
        rcases List.mem_cons.1 (List.mem_filter.1 hc).1 with rfl | hc
        · exact hab
        · exact (hb c hc).trans hab
      rw [List.orderedInsert_cons, if_pos hab, orderedInsert_of_forall_le key hall, List.filter_cons]
    · rw [List.orderedInsert_cons, if_neg hab, List.filter_cons, List.filter_cons, ih hl]
      cases hpb : p b with
      | true =>
        cases hpa : p a with
        | true => simp [hab]
        | false => simp
      | false => simp

/-- **Filtering commutes with ranking.** -/
theorem ranked_filter (p : α → Bool) (l : List α) :
    (ranked key l).filter p = ranked key (l.filter p) := by
  induction l with
  | nil => rfl
  | cons a l ih =>
    have hinsert := filter_orderedInsert key p a (pairwise_ranked key l)
    have hcons : ranked key (a :: l) =
        (ranked key l).orderedInsert (fun a b => key b ≤ key a) a := rfl
    rw [hcons, hinsert, ih]
    cases hpa : p a with
    | true =>
      rw [List.filter_cons_of_pos hpa]
      rfl
    | false =>
      rw [List.filter_cons_of_neg (by simp [hpa])]
      rfl

/-- Any list in descending order of distinct keys is the ranking. -/
theorem ranked_unique {l l' : List α} (hperm : l'.Perm l)
    (hsorted : l'.Pairwise fun a b => key b ≤ key a)
    (hdistinct : ∀ a ∈ l, ∀ b ∈ l, key a = key b → a = b) : l' = ranked key l := by
  refine (hperm.trans (ranked_perm key l).symm).eq_of_pairwise ?_ hsorted (pairwise_ranked key l)
  intro a b ha hb hba hab
  exact hdistinct a (hperm.mem_iff.1 ha) b ((mem_ranked key).1 hb) (le_antisymm hab hba)

/-- **Filtering commutes with the cut** exactly when the filter keeps the whole of the first part,
or nothing of the second. -/
theorem filter_take_eq_iff (p : α → Bool) (l : List α) (k : ℕ) :
    (l.take k).filter p = (l.filter p).take k ↔
      (∀ a ∈ l.take k, p a) ∨ ∀ a ∈ l.drop k, ¬p a := by
  have hsplit : l.filter p = (l.take k).filter p ++ (l.drop k).filter p := by
    rw [← List.filter_append, List.take_append_drop]
  have hle : ((l.take k).filter p).length ≤ k :=
    (List.length_filter_le _ _).trans (List.length_take_le ..)
  have htake : (l.filter p).take k =
      (l.take k).filter p ++ ((l.drop k).filter p).take (k - ((l.take k).filter p).length) := by
    rw [hsplit, List.take_append, List.take_of_length_le hle]
  rw [htake, List.self_eq_append_right, List.take_eq_nil_iff, List.filter_eq_nil_iff]
  refine or_congr_left' fun hsome => ?_
  constructor
  · intro hzero
    -- The first part lost nothing, as what is left of it has its length.
    have hfull : ((l.take k).filter p).length = (l.take k).length := by
      have hlength : (l.take k).length ≤ k := List.length_take_le ..
      have hshort : ((l.take k).filter p).length ≤ (l.take k).length := List.length_filter_le _ _
      omega
    exact List.filter_eq_self.1 (List.filter_sublist.eq_of_length hfull)
  · intro hall
    rw [List.filter_eq_self.2 hall, List.length_take]
    have hlong : k < l.length := by
      by_contra hnot
      rw [List.drop_of_length_le (by omega)] at hsome
      exact hsome fun a ha => by cases ha
    omega

/-! ## Sets in order -/

/-- `sorted(s)`, for a set. -/
def sortedSet (s : Finset κ) : List κ := s.sort

@[simp] theorem mem_sortedSet {s : Finset κ} {a : κ} : a ∈ sortedSet s ↔ a ∈ s := Finset.mem_sort _

theorem pairwise_sortedSet (s : Finset κ) : (sortedSet s).Pairwise (· < ·) :=
  (Finset.sortedLT_sort s).pairwise

theorem length_sortedSet (s : Finset κ) : (sortedSet s).length = s.card := Finset.length_sort _

end ScamOn
