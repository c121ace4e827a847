import Mathlib.Data.List.Basic

/-!
# Interleavings

What several tasks do together, when each takes its own steps in order and nothing
is said about whose turn it is.

* `Interleaves ts t` says that `t` is an interleaving of the lists `ts`.
* `Interleaves.perm`: whatever the schedule is, the same steps are taken.
* `interleaves_flatten`: one task after the other is a schedule.
-/

namespace ScamOn

variable {α : Type*}

/-- The steps of the tasks, in the order in which they were taken. -/
inductive Interleaves : List (List α) → List α → Prop
  /-- All tasks are over. -/
  | finished {ts : List (List α)} : (∀ u ∈ ts, u = []) → Interleaves ts []
  /-- One of them takes its next step. -/
  | turn {before after : List (List α)} {a : α} {u t : List α} :
      Interleaves (before ++ u :: after) t → Interleaves (before ++ (a :: u) :: after) (a :: t)

namespace Interleaves

/-- Whatever the schedule is, the same steps are taken. -/
theorem perm {ts : List (List α)} {t : List α} (h : Interleaves ts t) : t.Perm ts.flatten := by
  induction h with
  | @finished ts hfinished =>
    have hempty : ts.flatten = [] := List.flatten_eq_nil_iff.2 hfinished
    rw [hempty]
  | @turn before after a u t _ ih =>
    simp only [List.flatten_append, List.flatten_cons, List.cons_append] at ih ⊢
    exact (ih.cons a).trans List.perm_middle.symm

/-- A task that is over takes no steps. -/
theorem cons_nil {ts : List (List α)} {t : List α} (h : Interleaves ts t) :
    Interleaves ([] :: ts) t := by
  induction h with
  | finished hfinished =>
    apply finished
    intro u hu
    rcases List.mem_cons.1 hu with rfl | hu
    · rfl
    · exact hfinished u hu
  | @turn before _ _ _ _ _ ih => exact @turn _ ([] :: before) _ _ _ _ ih

end Interleaves

/-- One task after the other is a schedule. -/
theorem interleaves_flatten (ts : List (List α)) : Interleaves ts ts.flatten := by
  induction ts with
  | nil => exact .finished fun u hu => by cases hu
  | cons u ts ih =>
    induction u with
    | nil => exact ih.cons_nil
    | cons a u ihu => exact @Interleaves.turn _ [] _ _ _ _ ihu

end ScamOn
