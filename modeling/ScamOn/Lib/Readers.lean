import Mathlib.Data.List.Infix

/-!
# Readers

A reader takes something from the front of a list and leaves the rest.  Many are loops that take an
item at a time.

* `readWhile` repeats a step until it stops; `readWhile_cons` is its equation.
* `Bounded`: in front of a mark, a reader stops before the mark, whatever comes after it, or it
  reads everything.  `readWhile_bounded`: a loop of bounded steps is bounded.
-/

namespace ScamOn.Readers

variable {α β γ δ σ : Type*}

/-! ## Loops -/

/-- Repeats a step, at most so many times. -/
def loop (step : σ → α → List α → Option (σ × List α)) : ℕ → σ → List α → σ × List α
  | n + 1, a, c :: s =>
    match step a c s with
    | some (a', s') => loop step n a' s'
    | none => (a, c :: s)
  | _, a, s => (a, s)

/-- Repeats a step until it stops or the list ends. -/
def readWhile (step : σ → α → List α → Option (σ × List α)) (a : σ) (s : List α) : σ × List α :=
  loop step s.length a s

/-- A step takes at least the item it looks at. -/
def Consuming (step : σ → α → List α → Option (σ × List α)) : Prop :=
  ∀ a c s a' s', step a c s = some (a', s') → s'.length ≤ s.length

variable {step : σ → α → List α → Option (σ × List α)}

/-- More repetitions than items make no difference. -/
theorem loop_eq_loop (h : Consuming step) {n m : ℕ} {a : σ} {s : List α} (hn : s.length ≤ n)
    (hm : s.length ≤ m) : loop step n a s = loop step m a s := by
  induction n generalizing m a s with
  | zero =>
    obtain rfl := List.length_eq_zero_iff.1 (Nat.le_zero.1 hn)
    cases m <;> rfl
  | succ n ih =>
    rcases s with _ | ⟨c, s⟩
    · cases m <;> rfl
    · obtain ⟨m, rfl⟩ := Nat.exists_eq_add_one_of_ne_zero (Nat.ne_of_gt (Nat.lt_of_lt_of_le
        (Nat.succ_pos _) hm))
      rw [loop, loop]
      rcases hstep : step a c s with _ | ⟨a', s'⟩
      · rfl
      · have hle := h a c s a' s' hstep
        have hn' : s.length ≤ n := Nat.le_of_succ_le_succ hn
        have hm' : s.length ≤ m := Nat.le_of_succ_le_succ hm
        exact ih (hle.trans hn') (hle.trans hm')

@[simp] theorem readWhile_nil (a : σ) : readWhile step a [] = (a, []) := rfl

theorem readWhile_cons (h : Consuming step) (a : σ) (c : α) (s : List α) :
    readWhile step a (c :: s) =
      match step a c s with
      | some (a', s') => readWhile step a' s'
      | none => (a, c :: s) := by
  unfold readWhile
  rw [List.length_cons, loop]
  rcases hstep : step a c s with _ | ⟨a', s'⟩
  · rfl
  · exact loop_eq_loop h (h a c s a' s' hstep) le_rfl

theorem readWhile_of_some (h : Consuming step) {a a' : σ} {c : α} {s s' : List α}
    (hstep : step a c s = some (a', s')) : readWhile step a (c :: s) = readWhile step a' s' := by
  rw [readWhile_cons h, hstep]

theorem readWhile_of_none (h : Consuming step) {a : σ} {c : α} {s : List α}
    (hstep : step a c s = none) : readWhile step a (c :: s) = (a, c :: s) := by
  rw [readWhile_cons h, hstep]

theorem length_readWhile (h : Consuming step) (a : σ) (s : List α) :
    (readWhile step a s).2.length ≤ s.length := by
  induction hlength : s.length using Nat.strong_induction_on generalizing a s with
  | _ n ih =>
    rcases s with _ | ⟨c, s⟩
    · exact Nat.zero_le _
    · rw [← hlength, List.length_cons]
      rcases hstep : step a c s with _ | ⟨a', s'⟩
      · rw [readWhile_of_none h hstep, List.length_cons]
      · rw [readWhile_of_some h hstep]
        have hle := h a c s a' s' hstep
        have hlt : s'.length < n := by
          rw [← hlength, List.length_cons]
          exact Nat.lt_succ_of_le hle
        exact (ih _ hlt a' s' rfl).trans (hle.trans (Nat.le_succ _))

/-- Where a loop stops in front of an item, its step stops. -/
theorem step_of_readWhile (h : Consuming step) {a a' : σ} {c : α} {s rest : List α}
    (hread : readWhile step a s = (a', c :: rest)) : step a' c rest = none := by
  induction hlength : s.length using Nat.strong_induction_on generalizing a s with
  | _ n ih =>
    rcases s with _ | ⟨d, s⟩
    · cases hread
    · rcases hstep : step a d s with _ | ⟨a₁, s₁⟩
      · rw [readWhile_of_none h hstep] at hread
        cases hread
        exact hstep
      · rw [readWhile_of_some h hstep] at hread
        have hlt : s₁.length < n := by
          rw [← hlength, List.length_cons]
          exact Nat.lt_succ_of_le (h a d s a₁ s₁ hstep)
        exact ih _ hlt hread rfl

/-! ## In front of a mark -/

/-- **In front of a mark** a reader stops before the mark, whatever comes after it; or, if nothing
after it is of use, it reads everything, with a result that is spoilt. -/
def Bounded (mark : α) (Useless : List α → Prop) (Spoils : β → β → Prop)
    (f : List α → β × List α) (s : List α) : Prop :=
  (∃ r q, q <:+ s ∧ ∀ w, f (s ++ mark :: w) = (r, q ++ mark :: w)) ∨
    ∃ k, ∀ w, Useless w → ∃ r, f (s ++ mark :: w) = (r, []) ∧ Spoils k r

variable {mark : α} {Useless : List α → Prop}

/-- A bounded reader that leaves something of a text that ends in the mark. -/
theorem Bounded.of_rest_ne_nil {Spoils : β → β → Prop} {f : List α → β × List α} {s : List α}
    (h : Bounded mark Useless Spoils f s) (hnil : Useless []) (hrest : (f (s ++ [mark])).2 ≠ []) :
    ∃ r q, q <:+ s ∧ ∀ w, f (s ++ mark :: w) = (r, q ++ mark :: w) := by
  rcases h with hstop | ⟨k, hall⟩
  · exact hstop
  · obtain ⟨r, hr, -⟩ := hall [] hnil
    rw [hr] at hrest
    exact absurd rfl hrest

/-- A bounded reader whose result is worked on. -/
theorem Bounded.map {Spoils : β → β → Prop} {Spoils' : γ → γ → Prop} {f : List α → β × List α}
    {s : List α} (h : Bounded mark Useless Spoils f s) (g : β → γ)
    (hg : ∀ k, ∃ k', ∀ r, Spoils k r → Spoils' k' (g r)) :
    Bounded mark Useless Spoils' (fun t => (g (f t).1, (f t).2)) s := by
  rcases h with ⟨r, q, hq, hread⟩ | ⟨k, hread⟩
  · refine .inl ⟨g r, q, hq, fun w => ?_⟩
    dsimp only
    rw [hread]
  · obtain ⟨k', hk'⟩ := hg k
    refine .inr ⟨k', fun w hw => ?_⟩
    obtain ⟨r, hr, hspoils⟩ := hread w hw
    refine ⟨g r, ?_, hk' r hspoils⟩
    dsimp only
    rw [hr]

/-- **One bounded reader after another** is bounded. -/
theorem Bounded.andThen {Spoils : β → β → Prop} {Spoils' : γ → γ → Prop} {Spoils'' : δ → δ → Prop}
    {f : List α → β × List α} {g : List α → γ × List α} {s : List α} {last : γ}
    (hf : Bounded mark Useless Spoils f s)
    (hg : ∀ q, q <:+ s → Bounded mark Useless Spoils' g q) (hlast : g [] = (last, []))
    (both : β → γ → δ) (hfirst : ∀ k, ∃ k', ∀ r, Spoils k r → Spoils'' k' (both r last))
    (hsecond : ∀ b k, ∃ k', ∀ r, Spoils' k r → Spoils'' k' (both b r)) :
    Bounded mark Useless Spoils'' (fun t => (both (f t).1 (g (f t).2).1, (g (f t).2).2)) s := by
  rcases hf with ⟨b, q, hq, hread⟩ | ⟨k, hread⟩
  · rcases hg q hq with ⟨r, q', hq', hread'⟩ | ⟨k, hread'⟩
    · refine .inl ⟨both b r, q', hq'.trans hq, fun w => ?_⟩
      dsimp only
      rw [hread, hread']
    · obtain ⟨k', hk'⟩ := hsecond b k
      refine .inr ⟨k', fun w hw => ?_⟩
      obtain ⟨r, hr, hspoils⟩ := hread' w hw
      refine ⟨both b r, ?_, hk' r hspoils⟩
      dsimp only
      rw [hread, hr]
  · obtain ⟨k', hk'⟩ := hfirst k
    refine .inr ⟨k', fun w hw => ?_⟩
    obtain ⟨r, hr, hspoils⟩ := hread w hw
    refine ⟨both r last, ?_, hk' r hspoils⟩
    dsimp only
    rw [hr, hlast]

/-- A step that goes on or stops before the mark, or reads everything. -/
structure BoundedStep (mark : α) (Useless : List α → Prop) (Spoils : σ → σ → Prop)
    (step : σ → α → List α → Option (σ × List α)) : Prop where
  consuming : Consuming step
  stops : ∀ a w, step a mark w = none
  bounded : ∀ a c s,
    (∃ a' q, q <:+ s ∧ ∀ w, step a c (s ++ mark :: w) = some (a', q ++ mark :: w)) ∨
    (∀ w, step a c (s ++ mark :: w) = none) ∨
    ∃ k, ∀ w, Useless w → ∃ a', step a c (s ++ mark :: w) = some (a', []) ∧ Spoils k a'

/-- A step that goes on with what a bounded reader reads. -/
theorem Bounded.goesOn {Spoils : σ → σ → Prop} {f : List α → σ × List α} {s : List α}
    (h : Bounded mark Useless Spoils f s) :
    (∃ a q, q <:+ s ∧ ∀ w, some (f (s ++ mark :: w)) = some (a, q ++ mark :: w)) ∨
    (∀ w, some (f (s ++ mark :: w)) = none) ∨
    ∃ k, ∀ w, Useless w → ∃ a, some (f (s ++ mark :: w)) = some (a, []) ∧ Spoils k a := by
  rcases h with ⟨a, q, hq, hread⟩ | ⟨k, hread⟩
  · exact .inl ⟨a, q, hq, fun w => congrArg some (hread w)⟩
  · refine .inr (.inr ⟨k, fun w hw => ?_⟩)
    obtain ⟨a, ha, hspoils⟩ := hread w hw
    exact ⟨a, congrArg some ha, hspoils⟩

/-- **A loop of bounded steps is bounded.** -/
theorem readWhile_bounded {Spoils : σ → σ → Prop}
    (h : BoundedStep mark Useless Spoils step) (a : σ) (s : List α) :
    Bounded mark Useless Spoils (readWhile step a) s := by
  induction hlength : s.length using Nat.strong_induction_on generalizing a s with
  | _ n ih =>
    rcases s with _ | ⟨c, s⟩
    · exact .inl ⟨a, [], List.suffix_rfl, fun w => readWhile_of_none h.consuming (h.stops a w)⟩
    · rcases h.bounded a c s with ⟨a', q, hq, hstep⟩ | hstep | ⟨k, hstep⟩
      · have hlt : q.length < n := by
          rw [← hlength, List.length_cons]
          exact Nat.lt_succ_of_le hq.length_le
        have hread : ∀ w, readWhile step a (c :: s ++ mark :: w) =
            readWhile step a' (q ++ mark :: w) := fun w => readWhile_of_some h.consuming (hstep w)
        rcases ih _ hlt a' q rfl with ⟨r, q', hq', hrest⟩ | ⟨k, hrest⟩
        · refine .inl ⟨r, q', (hq'.trans hq).trans (List.suffix_cons c s), fun w => ?_⟩
          rw [hread, hrest]
        · refine .inr ⟨k, fun w hw => ?_⟩
          rw [hread]
          exact hrest w hw
      · exact .inl ⟨a, c :: s, List.suffix_rfl, fun w => readWhile_of_none h.consuming (hstep w)⟩
      · refine .inr ⟨k, fun w hw => ?_⟩
        obtain ⟨a', hstep', hspoils⟩ := hstep w hw
        exact ⟨a', readWhile_of_some h.consuming hstep', hspoils⟩

end ScamOn.Readers
