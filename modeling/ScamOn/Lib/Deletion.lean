import Mathlib.Data.List.Infix
import Mathlib.Order.Nat

/-!
# Deleting elements from a text

A scan from left to right that deletes the elements it comes upon.  An element is recognised by what
stands at the front of a text: `cut s = some r` says that one stands there, and that `r` follows it.

* `erase` is the scan, and `erase_eq_self_iff` says when it changes nothing.
* `Reads` describes a stretch of the scan: what it keeps of a text up to some point.
* `exists_reads`: whatever is found in the result was read off the text, a piece at a time.
* `Reads.eq_append`: a piece that stands in the text as it is, and in which no element can begin, was
  read without a gap.
-/

namespace ScamOn.Deletion

variable {α : Type*} (cut : List α → Option (List α))

/-- An element is not empty, and ends within the text. -/
def Shortens : Prop := ∀ s r, cut s = some r → r <:+ s ∧ r.length < s.length

/-- The scan, with at most so many steps. -/
def eraseFrom : ℕ → List α → List α
  | 0, s => s
  | _ + 1, [] => []
  | n + 1, c :: s =>
    match cut (c :: s) with
    | some r => eraseFrom n r
    | none => c :: eraseFrom n s

/-- The text without its elements. -/
def erase (s : List α) : List α := eraseFrom cut s.length s

/-- From `s` the scan keeps `w`, and comes to `s'`. -/
inductive Reads : List α → List α → List α → Prop
  | nil (s : List α) : Reads s [] s
  | keep {c : α} {s w s' : List α} : cut (c :: s) = none → Reads s w s' → Reads (c :: s) (c :: w) s'
  | skip {s r w s' : List α} : cut s = some r → Reads r w s' → Reads s w s'

variable {cut} {s s' t u v w r : List α} {c : α}

/-! ## The scan -/

@[simp] theorem eraseFrom_nil (n : ℕ) : eraseFrom cut n [] = [] := by
  cases n <;> rfl

theorem eraseFrom_eq (hcut : Shortens cut) {n : ℕ} {s : List α} (hn : s.length ≤ n) :
    eraseFrom cut n s = erase cut s := by
  induction n using Nat.strong_induction_on generalizing s with
  | _ n ih =>
    cases s with
    | nil => rw [eraseFrom_nil, erase, eraseFrom_nil]
    | cons c s =>
      cases n with
      | zero => exact absurd hn (Nat.not_succ_le_zero _)
      | succ n =>
        have hle : s.length ≤ n := Nat.le_of_succ_le_succ hn
        rw [erase, List.length_cons, eraseFrom, eraseFrom]
        cases hc : cut (c :: s) with
        | none =>
          rw [ih n (Nat.lt_succ_self n) hle]
          rfl
        | some r =>
          have hr : r.length ≤ s.length := Nat.le_of_lt_succ (hcut _ _ hc).2
          have hn' := ih n (Nat.lt_succ_self n) (hr.trans hle)
          have hs' : eraseFrom cut s.length r = erase cut r :=
            ih s.length (Nat.lt_succ_of_le hle) hr
          exact hn'.trans hs'.symm

@[simp] theorem erase_nil : erase cut [] = [] := rfl

theorem erase_cons_of_none (h : cut (c :: s) = none) : erase cut (c :: s) = c :: erase cut s := by
  rw [erase, List.length_cons, eraseFrom, h]
  rfl

theorem erase_of_cut (hcut : Shortens cut) (h : cut s = some r) : erase cut s = erase cut r := by
  cases s with
  | nil => exact absurd (hcut _ _ h).2 (Nat.not_lt_zero _)
  | cons c s =>
    rw [erase, List.length_cons, eraseFrom, h]
    exact eraseFrom_eq hcut (Nat.le_of_lt_succ (hcut _ _ h).2)

/-- The scan goes by the two cases of `cut`. -/
theorem erase_induction (hcut : Shortens cut) {P : List α → Prop} (hnil : P [])
    (hkeep : ∀ c s, cut (c :: s) = none → P s → P (c :: s))
    (hskip : ∀ s r, cut s = some r → P r → P s) (s : List α) : P s := by
  induction hn : s.length using Nat.strong_induction_on generalizing s with
  | _ n ih =>
    subst hn
    cases s with
    | nil => exact hnil
    | cons c s =>
      cases hc : cut (c :: s) with
      | none => exact hkeep c s hc (ih s.length (Nat.lt_succ_self _) s rfl)
      | some r => exact hskip _ r hc (ih r.length (hcut _ _ hc).2 r rfl)

theorem length_erase_le (hcut : Shortens cut) (s : List α) : (erase cut s).length ≤ s.length := by
  induction s using erase_induction hcut with
  | hnil => exact Nat.le_refl _
  | hkeep c s hc ih =>
    rw [erase_cons_of_none hc]
    exact Nat.succ_le_succ ih
  | hskip s r hc ih =>
    rw [erase_of_cut hcut hc]
    exact ih.trans (hcut s r hc).2.le

/-- **The scan changes nothing** exactly if no element stands anywhere. -/
theorem erase_eq_self_iff (hcut : Shortens cut) (s : List α) :
    erase cut s = s ↔ ∀ t, t <:+ s → cut t = none := by
  induction s with
  | nil =>
    refine ⟨fun _ t ht => ?_, fun _ => rfl⟩
    rw [List.suffix_nil.1 ht]
    cases hc : cut ([] : List α) with
    | none => rfl
    | some r => exact absurd (hcut _ _ hc).2 (Nat.not_lt_zero _)
  | cons c s ih =>
    cases hc : cut (c :: s) with
    | some r =>
      refine ⟨fun h => ?_, fun h => ?_⟩
      · have hshort := ((length_erase_le hcut r).trans_lt (hcut _ _ hc).2).ne
        rw [erase_of_cut hcut hc] at h
        exact absurd (congrArg List.length h) hshort
      · have hnone := h _ (List.suffix_refl _)
        rw [hc] at hnone
        exact nomatch hnone
    | none =>
      rw [erase_cons_of_none hc, List.cons_inj_right, ih]
      refine ⟨fun h t ht => ?_, fun h t ht => h t (ht.trans (List.suffix_cons c s))⟩
      rcases List.suffix_cons_iff.1 ht with rfl | ht
      · exact hc
      · exact h t ht

/-! ## Stretches of the scan -/

theorem Reads.isSuffix (hcut : Shortens cut) (h : Reads cut s w s') : s' <:+ s := by
  induction h with
  | nil s => exact List.suffix_refl s
  | keep _ _ ih => exact ih.trans (List.suffix_cons _ _)
  | skip hc _ ih => exact ih.trans (hcut _ _ hc).1

/-- What a stretch keeps is what the scan keeps of it. -/
theorem Reads.erase_eq (hcut : Shortens cut) (h : Reads cut s w s') :
    erase cut s = w ++ erase cut s' := by
  induction h with
  | nil s => rfl
  | keep hc _ ih => rw [erase_cons_of_none hc, ih, List.cons_append]
  | skip hc _ ih => rw [erase_of_cut hcut hc, ih]

/-- **What stands in the result** was read off the text. -/
theorem exists_reads (hcut : Shortens cut) (h : erase cut s = w ++ v) :
    ∃ s', Reads cut s w s' ∧ erase cut s' = v := by
  induction s using erase_induction hcut generalizing w with
  | hnil =>
    have hw := List.append_eq_nil_iff.1 h.symm
    rw [hw.1, hw.2]
    exact ⟨[], .nil [], rfl⟩
  | hkeep c s hc ih =>
    cases w with
    | nil => exact ⟨c :: s, .nil _, h⟩
    | cons d w =>
      rw [erase_cons_of_none hc, List.cons_append, List.cons.injEq] at h
      obtain ⟨s', hreads, herase⟩ := ih h.2
      rw [← h.1]
      exact ⟨s', .keep hc hreads, herase⟩
  | hskip s r hc ih =>
    rw [erase_of_cut hcut hc] at h
    obtain ⟨s', hreads, herase⟩ := ih h
    exact ⟨s', .skip hc hreads, herase⟩

/-- A stretch that keeps something comes to a point where it keeps the first character. -/
theorem Reads.head (h : Reads cut s (c :: w) s') :
    ∃ t, Reads cut s [] (c :: t) ∧ cut (c :: t) = none ∧ Reads cut t w s' := by
  generalize hcw : c :: w = cw at h
  induction h with
  | nil s => exact nomatch hcw
  | @keep d s w' s' hc htail ih =>
    obtain ⟨rfl, rfl⟩ := List.cons.inj hcw
    exact ⟨s, .nil _, hc, htail⟩
  | @skip s r w' s' hc _ ih =>
    obtain ⟨t, hskip, hnone, htail⟩ := ih hcw
    exact ⟨t, .skip hc hskip, hnone, htail⟩

theorem Reads.append (h : Reads cut s u t) (h' : Reads cut t v s') : Reads cut s (u ++ v) s' := by
  induction h with
  | nil s => exact h'
  | keep hc _ ih => exact .keep hc (ih h')
  | skip hc _ ih => exact .skip hc (ih h')

/-- A stretch is two stretches, one behind the other. -/
theorem Reads.split (h : Reads cut s (u ++ v) s') : ∃ t, Reads cut s u t ∧ Reads cut t v s' := by
  generalize huv : u ++ v = w at h
  induction h generalizing u with
  | nil s =>
    obtain ⟨rfl, rfl⟩ := List.append_eq_nil_iff.1 huv
    exact ⟨s, .nil s, .nil s⟩
  | @keep d s w s' hc htail ih =>
    cases u with
    | nil => exact ⟨d :: s, .nil _, by rw [List.nil_append] at huv; rw [huv]; exact .keep hc htail⟩
    | cons c u =>
      rw [List.cons_append, List.cons.injEq] at huv
      obtain ⟨t, hreads, hreads'⟩ := ih huv.2
      rw [huv.1]
      exact ⟨t, .keep hc hreads, hreads'⟩
  | skip hc _ ih =>
    obtain ⟨t, hreads, hreads'⟩ := ih huv
    exact ⟨t, .skip hc hreads, hreads'⟩

/-- **A piece without a gap.**  If a piece stands at the front of a text, and no element begins in it,
a stretch that keeps the piece comes behind it, up to elements. -/
theorem Reads.eq_append (h : Reads cut (w ++ u) w s')
    (hnone : ∀ v v', v' ≠ [] → w = v ++ v' → ∀ z, cut (v' ++ z) = none) : Reads cut u [] s' := by
  induction w generalizing s' with
  | nil => exact h
  | cons c w ih =>
    have hc : cut (c :: (w ++ u)) = none := hnone [] (c :: w) (List.cons_ne_nil _ _) rfl u
    refine ih ?_ fun v v' hv' hw z => hnone (c :: v) v' hv' (by rw [hw, List.cons_append]) z
    cases h with
    | keep _ htail => exact htail
    | skip hc' _ => exact nomatch hc.symm.trans hc'

end ScamOn.Deletion
