import ScamOn.Lib.Machine

/-!
# Origins

What holds of a state after a run, and did not hold before, was brought about by an action of the
run.  `Holds p s` is any property of states that has a parameter, and `Born p s a` says that the
action `a` brings it about in the state `s`.

* `origin_of_run` finds the action, and the state it was taken in.
* `origins_of_run` finds two different actions for two parameters that no action can serve at once.
-/

namespace ScamOn.Machine

variable {σ α β ρ : Type*} {step : σ → α → σ × β} {Holds : ρ → σ → Prop} {Born : ρ → σ → α → Prop}

/-- **Whatever holds after a run was brought about in it**, if it did not hold before. -/
theorem origin_of_run (hstep : ∀ p s a, Holds p (step s a).1 → Holds p s ∨ Born p s a) {p : ρ}
    {s : σ} {as : List α} (hinit : ¬Holds p s) (h : Holds p (run step s as)) :
    ∃ i a, as[i]? = some a ∧ Born p (run step s (as.take i)) a := by
  induction as generalizing s with
  | nil => exact absurd h hinit
  | cons a as ih =>
    rw [run_cons] at h
    by_cases hnext : Holds p (step s a).1
    · exact ⟨0, a, rfl, (hstep p s a hnext).resolve_left hinit⟩
    · obtain ⟨i, b, hget, hborn⟩ := ih hnext h
      exact ⟨i + 1, b, hget, by simpa using hborn⟩

/-- **Two origins**, where no action brings about both. -/
theorem origins_of_run (hstep : ∀ p s a, Holds p (step s a).1 → Holds p s ∨ Born p s a)
    {p q : ρ} (hapart : ∀ s s' a, Born p s a → ¬Born q s' a) {s : σ} {as : List α}
    (hp : ¬Holds p s) (hq : ¬Holds q s) (h : Holds p (run step s as)) (h' : Holds q (run step s as)) :
    ∃ i j a b, i ≠ j ∧ (as[i]? = some a ∧ Born p (run step s (as.take i)) a) ∧
      as[j]? = some b ∧ Born q (run step s (as.take j)) b := by
  obtain ⟨i, a, hget, hborn⟩ := origin_of_run hstep hp h
  obtain ⟨j, b, hget', hborn'⟩ := origin_of_run hstep hq h'
  refine ⟨i, j, a, b, fun hsame => ?_, ⟨hget, hborn⟩, hget', hborn'⟩
  rw [hsame, hget'] at hget
  obtain rfl := Option.some.inj hget
  exact hapart _ _ _ hborn hborn'

end ScamOn.Machine
