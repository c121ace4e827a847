import Mathlib.Data.List.Basic

/-!
# Gathering what steps return

A loop that appends what each step returns, and ends with the first step that fails.

* `found` is what a step returned, `failure?` what it failed with.
* `gather` is the loop.
* `gather_eq_ok` and `gather_eq_error` say what it returns and what it fails with; loops within
  loops are covered by `failure?_gather` and `found_gather`.
-/

namespace ScamOn.Gather

variable {α β ε : Type*}

/-- What a step returned; nothing if it failed. -/
def found : Except ε (List β) → List β
  | .ok l => l
  | .error _ => []

/-- What a step failed with. -/
def failure? : Except ε (List β) → Option ε
  | .ok _ => none
  | .error e => some e

/-- The loop. -/
def gather (step : α → Except ε (List β)) : List α → Except ε (List β)
  | [] => .ok []
  | a :: as =>
    match step a with
    | .error e => .error e
    | .ok l => (gather step as).map (l ++ ·)

variable {step : α → Except ε (List β)} {as : List α}

theorem eq_ok_found {result : Except ε (List β)} (h : failure? result = none) :
    result = .ok (found result) := by
  cases result with
  | ok l => rfl
  | error e => exact absurd h (by simp [failure?])

theorem eq_error {result : Except ε (List β)} {e : ε} (h : failure? result = some e) :
    result = .error e := by
  cases result with
  | ok l => exact absurd h (by simp [failure?])
  | error e' => exact congrArg Except.error (Option.some.inj h)

/-- **It fails with what the first failing step fails with.** -/
theorem failure?_gather (step : α → Except ε (List β)) (as : List α) :
    failure? (gather step as) = as.findSome? fun a => failure? (step a) := by
  induction as with
  | nil => rfl
  | cons a as ih =>
    rw [gather, List.findSome?_cons]
    cases hstep : step a with
    | error e => rfl
    | ok l =>
      rw [failure?, ← ih]
      cases gather step as with
      | ok l' => rfl
      | error e => rfl

/-- **If no step fails, it returns what all of them return.** -/
theorem found_gather (h : ∀ a ∈ as, failure? (step a) = none) :
    found (gather step as) = as.flatMap fun a => found (step a) := by
  induction as with
  | nil => rfl
  | cons a as ih =>
    have hfirst : step a = .ok (found (step a)) := eq_ok_found (h a List.mem_cons_self)
    have hrest := ih fun b hb => h b (List.mem_cons_of_mem _ hb)
    have hnone : failure? (gather step as) = none := by
      rw [failure?_gather, List.findSome?_eq_none_iff]
      exact fun b hb => h b (List.mem_cons_of_mem _ hb)
    rw [gather, hfirst, eq_ok_found hnone, hrest, List.flatMap_cons]
    rfl

theorem gather_eq_ok (h : ∀ a ∈ as, failure? (step a) = none) :
    gather step as = .ok (as.flatMap fun a => found (step a)) := by
  rw [← found_gather h]
  refine eq_ok_found ?_
  rw [failure?_gather, List.findSome?_eq_none_iff]
  exact h

theorem gather_eq_error {e : ε} (h : (as.findSome? fun a => failure? (step a)) = some e) :
    gather step as = .error e := by
  refine eq_error ?_
  rw [failure?_gather, h]

end ScamOn.Gather
