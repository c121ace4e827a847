import Mathlib.Order.Bounds.Basic
import Mathlib.Order.MinMax
import Mathlib.Data.List.Basic

/-!
# Edit distance

How many insertions, deletions and substitutions it takes to turn one list into another.

* `Edit` is one of them, at any place, and `Edits n` is `n` of them in a row.
* `editDistance` is the usual recursion, on the first elements.
* `isLeast_editDistance`: it is the least number of edits.
* `scan` is a row of the table of distances, and `getLastD_scan` its last entry.
-/

namespace ScamOn.EditDistance

variable {α : Type*} {s t u : List α} {m n : ℕ}

/-! ## Edits -/

/-- One element is inserted, deleted or substituted. -/
inductive Edit : List α → List α → Prop
  | insert (front rest : List α) (c : α) : Edit (front ++ rest) (front ++ c :: rest)
  | delete (front rest : List α) (c : α) : Edit (front ++ c :: rest) (front ++ rest)
  | substitute (front rest : List α) (c d : α) : Edit (front ++ c :: rest) (front ++ d :: rest)

/-- So many edits, one after another. -/
inductive Edits : ℕ → List α → List α → Prop
  | refl (s : List α) : Edits 0 s s
  | step {n : ℕ} {s t u : List α} : Edit s t → Edits n t u → Edits (n + 1) s u

theorem Edit.symm (h : Edit s t) : Edit t s := by
  cases h with
  | insert front rest c => exact .delete front rest c
  | delete front rest c => exact .insert front rest c
  | substitute front rest c d => exact .substitute front rest d c

theorem Edit.cons (h : Edit s t) (c : α) : Edit (c :: s) (c :: t) := by
  cases h with
  | insert front rest d => exact .insert (c :: front) rest d
  | delete front rest d => exact .delete (c :: front) rest d
  | substitute front rest d e => exact .substitute (c :: front) rest d e

theorem Edit.reverse (h : Edit s t) : Edit s.reverse t.reverse := by
  cases h with
  | insert front rest c => simpa using Edit.insert rest.reverse front.reverse c
  | delete front rest c => simpa using Edit.delete rest.reverse front.reverse c
  | substitute front rest c d => simpa using Edit.substitute rest.reverse front.reverse c d

theorem Edits.trans (h : Edits m s t) (h' : Edits n t u) : Edits (m + n) s u := by
  induction h with
  | refl s => rwa [Nat.zero_add]
  | @step m _ _ _ hedit _ ih =>
    rw [Nat.add_right_comm]
    exact .step hedit (ih h')

theorem Edits.single (h : Edit s t) : Edits 1 s t := .step h (.refl t)

theorem Edits.symm (h : Edits n s t) : Edits n t s := by
  induction h with
  | refl s => exact .refl s
  | step hedit _ ih => exact ih.trans (.single hedit.symm)

theorem Edits.cons (h : Edits n s t) (c : α) : Edits n (c :: s) (c :: t) := by
  induction h with
  | refl s => exact .refl _
  | step hedit _ ih => exact .step (hedit.cons c) ih

theorem Edits.reverse (h : Edits n s t) : Edits n s.reverse t.reverse := by
  induction h with
  | refl s => exact .refl _
  | step hedit _ ih => exact .step hedit.reverse ih

@[simp] theorem edits_zero_iff : Edits 0 s t ↔ s = t := by
  constructor
  · rintro ⟨⟩
    rfl
  · rintro rfl
    exact .refl s

theorem edits_nil_left (t : List α) : Edits t.length [] t := by
  induction t with
  | nil => exact .refl []
  | cons c t ih => exact (ih.trans (.single (.insert [] t c)))

theorem edits_nil_right (s : List α) : Edits s.length s [] := (edits_nil_left s).symm

/-! ## The distance -/

variable [DecidableEq α]

/-- The distance, from the first elements on. -/
def editDistance : List α → List α → ℕ
  | [], t => t.length
  | s, [] => s.length
  | c :: s, d :: t =>
    min (min (editDistance s (d :: t) + 1) (editDistance (c :: s) t + 1))
      (editDistance s t + if c ≠ d then 1 else 0)
termination_by s t => s.length + t.length

@[simp] theorem editDistance_nil_left (t : List α) : editDistance [] t = t.length := by
  rw [editDistance]

@[simp] theorem editDistance_nil_right (s : List α) : editDistance s [] = s.length := by
  cases s with
  | nil => rw [editDistance]
  | cons c s =>
    rw [editDistance]
    simp

theorem editDistance_cons_cons (c d : α) (s t : List α) :
    editDistance (c :: s) (d :: t) =
      min (min (editDistance s (d :: t) + 1) (editDistance (c :: s) t + 1))
        (editDistance s t + if c ≠ d then 1 else 0) := by
  rw [editDistance]

theorem edits_editDistance (s t : List α) : Edits (editDistance s t) s t := by
  fun_induction editDistance s t with
  | case1 t => exact edits_nil_left t
  | case2 s => exact edits_nil_right s
  | case3 c s d t hdelete hinsert hkeep =>
    have hdelete' : Edits (editDistance s (d :: t) + 1) (c :: s) (d :: t) :=
      .step (.delete [] s c) hdelete
    have hinsert' : Edits (editDistance (c :: s) t + 1) (c :: s) (d :: t) :=
      hinsert.trans (.single (.insert [] t d))
    have hkeep' : Edits (editDistance s t + if c ≠ d then 1 else 0) (c :: s) (d :: t) := by
      split_ifs with hne
      · exact (hkeep.cons c).trans (.single (.substitute [] t c d))
      · obtain rfl := not_not.1 hne
        exact hkeep.cons c
    -- the least of three numbers of edits is one of them
    rcases min_choice (min (editDistance s (d :: t) + 1) (editDistance (c :: s) t + 1))
      (editDistance s t + if c ≠ d then 1 else 0) with heq | heq
    · rw [heq]
      rcases min_choice (editDistance s (d :: t) + 1) (editDistance (c :: s) t + 1) with heq | heq
      · rwa [heq]
      · rwa [heq]
    · rwa [heq]

theorem editDistance_cons_left_le (c : α) (s t : List α) :
    editDistance (c :: s) t ≤ editDistance s t + 1 := by
  cases t with
  | nil => simp
  | cons d t =>
    rw [editDistance_cons_cons]
    omega

theorem editDistance_cons_right_le (s : List α) (d : α) (t : List α) :
    editDistance s (d :: t) ≤ editDistance s t + 1 := by
  cases s with
  | nil => simp
  | cons c s =>
    rw [editDistance_cons_cons]
    omega

theorem editDistance_le_cons_left (c : α) (s t : List α) :
    editDistance s t ≤ editDistance (c :: s) t + 1 := by
  induction t with
  | nil => simp; omega
  | cons d t ih =>
    have hright := editDistance_cons_right_le s d t
    rw [editDistance_cons_cons]
    omega

theorem editDistance_cons_left_substitute (c d : α) (s t : List α) :
    editDistance (c :: s) t ≤ editDistance (d :: s) t + 1 := by
  induction t with
  | nil => simp
  | cons e t ih =>
    have hleft := editDistance_cons_left_le c s (e :: t)
    have hright := editDistance_cons_right_le (c :: s) e t
    have hkeep : editDistance (c :: s) (e :: t) ≤ editDistance s t + 1 := by
      rw [editDistance_cons_cons]
      split_ifs <;> omega
    rw [editDistance_cons_cons d e s t]
    omega

theorem editDistance_cons_left_mono (c : α)
    (h : ∀ u, editDistance s u ≤ editDistance t u + 1) (u : List α) :
    editDistance (c :: s) u ≤ editDistance (c :: t) u + 1 := by
  induction u with
  | nil =>
    have hnil := h []
    simp at hnil ⊢
    omega
  | cons d u ih =>
    have hdelete := h (d :: u)
    have hkeep := h u
    rw [editDistance_cons_cons, editDistance_cons_cons]
    omega

/-- **One edit** changes the distance by one at most. -/
theorem editDistance_le_of_edit (h : Edit s t) (u : List α) :
    editDistance s u ≤ editDistance t u + 1 := by
  have hfront : ∀ (front : List α) {s t : List α},
      (∀ u, editDistance s u ≤ editDistance t u + 1) →
      ∀ u, editDistance (front ++ s) u ≤ editDistance (front ++ t) u + 1 := by
    intro front s t hst
    induction front with
    | nil => exact hst
    | cons c front ih => exact editDistance_cons_left_mono c ih
  cases h with
  | insert front rest c => exact hfront front (editDistance_le_cons_left c rest) u
  | delete front rest c => exact hfront front (editDistance_cons_left_le c rest) u
  | substitute front rest c d => exact hfront front (editDistance_cons_left_substitute c d rest) u

theorem editDistance_self (s : List α) : editDistance s s = 0 := by
  induction s with
  | nil => simp
  | cons c s ih => simp [editDistance_cons_cons, ih]

theorem editDistance_le_of_edits (h : Edits n s t) : editDistance s t ≤ n := by
  induction h with
  | refl s => rw [editDistance_self]
  | @step n s t u hedit _ ih => exact (editDistance_le_of_edit hedit u).trans (Nat.succ_le_succ ih)

/-- **The distance is the least number of edits.** -/
theorem isLeast_editDistance (s t : List α) : IsLeast {n | Edits n s t} (editDistance s t) :=
  ⟨edits_editDistance s t, fun _ h => editDistance_le_of_edits h⟩

theorem editDistance_comm (s t : List α) : editDistance s t = editDistance t s :=
  le_antisymm (editDistance_le_of_edits (edits_editDistance t s).symm)
    (editDistance_le_of_edits (edits_editDistance s t).symm)

theorem editDistance_eq_zero_iff : editDistance s t = 0 ↔ s = t := by
  constructor
  · intro h
    have hedits := edits_editDistance s t
    rwa [h, edits_zero_iff] at hedits
  · rintro rfl
    exact editDistance_self s

theorem editDistance_triangle (s t u : List α) :
    editDistance s u ≤ editDistance s t + editDistance t u :=
  editDistance_le_of_edits ((edits_editDistance s t).trans (edits_editDistance t u))

theorem editDistance_reverse (s t : List α) :
    editDistance s.reverse t.reverse = editDistance s t := by
  refine le_antisymm (editDistance_le_of_edits (edits_editDistance s t).reverse)
    (editDistance_le_of_edits ?_)
  have hedits := (edits_editDistance s.reverse t.reverse).reverse
  rwa [List.reverse_reverse, List.reverse_reverse] at hedits

/-! ## The table -/

/-- The distances of `s` to the prefixes of a text: `t` is what is read of it, last element
first, and the last argument what is left. -/
def scan (s : List α) : List α → List α → List ℕ
  | _, [] => []
  | t, d :: rest => editDistance s (d :: t) :: scan s (d :: t) rest

theorem getLastD_scan (s t rest : List α) (k : ℕ) :
    (editDistance s t :: scan s t rest).getLastD k = editDistance s (rest.reverse ++ t) := by
  induction rest generalizing t k with
  | nil => rfl
  | cons d rest ih =>
    have hlast := ih (d :: t) (editDistance s t)
    rw [scan, List.getLastD_cons, hlast, List.reverse_cons, List.append_assoc]
    rfl

/-- The first row counts up. -/
theorem scan_nil (t rest : List α) :
    scan [] t rest = List.range' (t.length + 1) rest.length := by
  induction rest generalizing t with
  | nil => rfl
  | cons d rest ih =>
    rw [scan, ih, editDistance_nil_left, List.length_cons, List.length_cons, List.range'_succ]

end ScamOn.EditDistance
