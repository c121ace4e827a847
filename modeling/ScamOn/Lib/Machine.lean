import Mathlib.Data.List.Basic
import Mathlib.Order.Basic

/-!
# Runs of a state machine

A component is a function `step : σ → α → σ × β`: it takes a state and an
action (a call with its arguments and whatever the environment decides during
it) to the next state and an answer.  Everything the development says about a
sequence of calls is said through the definitions of this file.

* `run` is the state after a list of actions, `outputs` are the answers.
* `Always step P s as` says that every action of the run is taken in a state in
  which `P` allows it.
* `inv_run` and `always_of_inv` are the invariant rules, `inv_prefix_iff` and
  `always_iff_of_inv` are the exact ones, and `timed_inv_run` is the rule for actions
  that carry nondecreasing times.
* `recorded` is the machine that keeps the history of its run, for properties that
  speak of earlier actions; `always_recorded` and `always_recorded_of_pairwise` give it
  its conditions, and `IsLast` is the last entry of a kind.
* `selected` are the actions of a run that were answered in a given way.
* `answersTo_filter` is the unwinding rule: when part of a run does not matter to
  the answers of the rest.
* `outputs_eq_of_sim` and `outputs_eq_iff_of_timed_sim` compare the answers of two machines.
-/

namespace ScamOn.Machine

variable {σ α β τ : Type*}

/-- The state a run ends in. -/
def run (step : σ → α → σ × β) : σ → List α → σ
  | s, [] => s
  | s, a :: as => run step (step s a).1 as

/-- The answers of a run, in order. -/
def outputs (step : σ → α → σ × β) : σ → List α → List β
  | _, [] => []
  | s, a :: as => (step s a).2 :: outputs step (step s a).1 as

/-- Every action of the run is taken in a state in which `P` allows it. -/
def Always (step : σ → α → σ × β) (P : σ → α → Prop) : σ → List α → Prop
  | _, [] => True
  | s, a :: as => P s a ∧ Always step P (step s a).1 as

/-- The answers of a run to the actions that `mine` selects, in order. -/
def answersTo (step : σ → α → σ × β) (mine : α → Bool) : σ → List α → List β
  | _, [] => []
  | s, a :: as =>
    let rest := answersTo step mine (step s a).1 as
    if mine a then (step s a).2 :: rest else rest

/-- The actions of a run that `keep` selects by their answers, in order. -/
def selected (step : σ → α → σ × β) (keep : α → β → Bool) : σ → List α → List α
  | _, [] => []
  | s, a :: as =>
    let rest := selected step keep (step s a).1 as
    if keep a (step s a).2 then a :: rest else rest

/-- One entry of a history: the state an action was taken in, the action, its answer. -/
structure Record (σ α β : Type*) where
  state : σ
  action : α
  answer : β

/-- The machine with its history, the latest entry last. -/
def recorded (step : σ → α → σ × β) (s : σ × List (Record σ α β)) (a : α) :
    (σ × List (Record σ α β)) × β :=
  (((step s.1 a).1, s.2 ++ [⟨s.1, a, (step s.1 a).2⟩]), (step s.1 a).2)

/-- The entry is the last one of a history that `W` picks out. -/
def IsLast {ρ : Type*} (W : ρ → Prop) (h : List ρ) (r : ρ) : Prop :=
  ∃ pre post, h = pre ++ r :: post ∧ W r ∧ ∀ r' ∈ post, ¬W r'

variable {step : σ → α → σ × β} {P C : σ → α → Prop}

@[simp] theorem run_nil (s : σ) : run step s [] = s := rfl

@[simp] theorem run_cons (s : σ) (a : α) (as : List α) :
    run step s (a :: as) = run step (step s a).1 as := rfl

theorem run_append (s : σ) (as bs : List α) :
    run step s (as ++ bs) = run step (run step s as) bs := by
  induction as generalizing s with
  | nil => rfl
  | cons a as ih => simp [ih]

/-- Each answer of a run is that to one of its actions, after those before it. -/
theorem exists_of_mem_outputs {s : σ} {as : List α} {b : β} (h : b ∈ outputs step s as) :
    ∃ pre a post, as = pre ++ a :: post ∧ (step (run step s pre) a).2 = b := by
  induction as generalizing s with
  | nil => cases h
  | cons a as ih =>
    rcases List.mem_cons.1 h with hnow | hlater
    · exact ⟨[], a, as, rfl, hnow.symm⟩
    · obtain ⟨pre, a', post, rfl, hb⟩ := ih hlater
      exact ⟨a :: pre, a', post, rfl, hb⟩

@[simp] theorem always_nil (s : σ) : Always step P s [] := trivial

@[simp] theorem always_cons (s : σ) (a : α) (as : List α) :
    Always step P s (a :: as) ↔ P s a ∧ Always step P (step s a).1 as := Iff.rfl

/-- Whether every step of a given run meets a decidable condition can be computed. -/
instance Always.decidable [∀ s a, Decidable (P s a)] :
    ∀ (s : σ) (as : List α), Decidable (Always step P s as)
  | _, [] => isTrue trivial
  | s, a :: as =>
    have : Decidable (Always step P (step s a).1 as) := Always.decidable _ as
    inferInstanceAs (Decidable (P s a ∧ Always step P (step s a).1 as))

theorem always_append (s : σ) (as bs : List α) :
    Always step P s (as ++ bs) ↔ Always step P s as ∧ Always step P (run step s as) bs := by
  induction as generalizing s with
  | nil => simp
  | cons a as ih => simp [ih, and_assoc]

/-- What holds of every action may be used at each step. -/
theorem Always.and_of_mem {Q : α → Prop} {s : σ} {as : List α} (h : Always step P s as)
    (hQ : ∀ a ∈ as, Q a) : Always step (fun s a => P s a ∧ Q a) s as := by
  induction as generalizing s with
  | nil => trivial
  | cons a as ih =>
    exact ⟨⟨h.1, hQ a (List.mem_cons_self ..)⟩,
      ih h.2 fun b hb => hQ b (List.mem_cons_of_mem _ hb)⟩

theorem always_and {Q : σ → α → Prop} {s : σ} {as : List α} :
    Always step (fun s a => P s a ∧ Q s a) s as ↔ Always step P s as ∧ Always step Q s as := by
  induction as generalizing s with
  | nil => simp
  | cons a as ih => simp only [always_cons, ih, and_and_and_comm]

/-- What is said of the states alone may be said with or without their history. -/
theorem always_recorded (s : σ) (h : List (Record σ α β)) (as : List α) :
    Always (recorded step) (fun s a => P s.1 a) (s, h) as ↔ Always step P s as := by
  induction as generalizing s h with
  | nil => simp
  | cons a as ih => exact and_congr_right fun _ => ih _ _

/-- Actions that are related to all the actions after them are related to the history they meet. -/
theorem always_recorded_of_pairwise {R : α → α → Prop} {as : List α} (s : σ)
    {h : List (Record σ α β)} (hpast : ∀ r ∈ h, ∀ a ∈ as, R r.action a) (has : as.Pairwise R) :
    Always (recorded step) (fun s a => ∀ r ∈ s.2, R r.action a) (s, h) as := by
  induction as generalizing s h with
  | nil => trivial
  | cons a as ih =>
    obtain ⟨hfirst, hrest⟩ := List.pairwise_cons.1 has
    refine ⟨fun r hr => hpast r hr a List.mem_cons_self, ih _ (fun r hr b hb => ?_) hrest⟩
    rcases List.mem_append.1 hr with hold | hnew
    · exact hpast r hold b (List.mem_cons_of_mem _ hb)
    · rw [List.mem_singleton.1 hnew]
      exact hfirst b hb

section IsLast

variable {ρ : Type*} {W : ρ → Prop} {h : List ρ} {r r' : ρ}

theorem IsLast.mem (hr : IsLast W h r) : r ∈ h := by
  obtain ⟨pre, post, rfl, -⟩ := hr
  simp

theorem isLast_concat (h : List ρ) (hr : W r) : IsLast W (h ++ [r]) r :=
  ⟨h, [], rfl, hr, fun _ hr' => absurd hr' List.not_mem_nil⟩

/-- An entry that is not picked out leaves the last one the last. -/
theorem IsLast.concat (hr : IsLast W h r) (hr' : ¬W r') : IsLast W (h ++ [r']) r := by
  obtain ⟨pre, post, rfl, hW, hpost⟩ := hr
  refine ⟨pre, post ++ [r'], by simp, hW, fun r'' hmem => ?_⟩
  rcases List.mem_append.1 hmem with hold | hnew
  · exact hpost r'' hold
  · rwa [List.mem_singleton.1 hnew]

end IsLast

theorem selected_concat (keep : α → β → Bool) (s : σ) (as : List α) (a : α) :
    selected step keep s (as ++ [a]) =
      selected step keep s as ++ (if keep a (step (run step s as) a).2 then [a] else []) := by
  induction as generalizing s with
  | nil => rfl
  | cons b as ih =>
    rw [List.cons_append, selected, selected, ih, run_cons]
    cases keep b (step s b).2 with
    | false => rfl
    | true => rfl

theorem selected_sublist (keep : α → β → Bool) (s : σ) (as : List α) :
    (selected step keep s as).Sublist as := by
  induction as generalizing s with
  | nil => exact List.Sublist.refl _
  | cons a as ih =>
    rw [selected]
    split_ifs
    · exact (ih _).cons_cons _
    · exact (ih _).cons _

/-- An invariant kept by every step that meets the condition `C` holds at the
end of every run whose steps all meet `C`. -/
theorem inv_run {I : σ → Prop} (hstep : ∀ s a, I s → C s a → I (step s a).1)
    {s : σ} {as : List α} (hs : I s) (hC : Always step C s as) : I (run step s as) := by
  induction as generalizing s with
  | nil => exact hs
  | cons a as ih => exact ih (hstep s a hs hC.1) hC.2

/-- **The invariant rule.**  A property that the invariant and the condition
give at each step holds along every run whose steps all meet the condition. -/
theorem always_of_inv {I : σ → Prop} (hstep : ∀ s a, I s → C s a → I (step s a).1)
    (hP : ∀ s a, I s → C s a → P s a) {s : σ} {as : List α} (hs : I s)
    (hC : Always step C s as) : Always step P s as := by
  induction as generalizing s with
  | nil => trivial
  | cons a as ih => exact ⟨hP s a hs hC.1, ih (hstep s a hs hC.1) hC.2⟩

theorem always_of_forall (h : ∀ s a, P s a) (s : σ) (as : List α) : Always step P s as := by
  induction as generalizing s with
  | nil => trivial
  | cons a as ih => exact ⟨h s a, ih _⟩

/-- Conditions that say the same of every step that the invariant allows say the same of every
run whose steps all meet `C`. -/
theorem always_congr_of_inv {I : σ → Prop} {Q : σ → α → Prop}
    (hstep : ∀ s a, I s → C s a → I (step s a).1)
    (h : ∀ s a, I s → C s a → (P s a ↔ Q s a)) {s : σ} {as : List α} (hs : I s)
    (hC : Always step C s as) : Always step P s as ↔ Always step Q s as := by
  induction as generalizing s with
  | nil => simp
  | cons a as ih => simp [h s a hs hC.1, ih (hstep s a hs hC.1) hC.2]

/-- **Conditions that agree as long as one of them has been met** say the same of every run, if
the steps that meet it keep the invariant under which they agree. -/
theorem always_iff_of_inv {I : σ → Prop} (hstep : ∀ s a, I s → C s a → I (step s a).1)
    (h : ∀ s a, I s → (P s a ↔ C s a)) {s : σ} {as : List α} (hs : I s) :
    Always step P s as ↔ Always step C s as := by
  induction as generalizing s with
  | nil => simp
  | cons a as ih =>
    rw [always_cons, always_cons, h s a hs]
    exact and_congr_right fun hC => ih (hstep s a hs hC)

/-- Conditions that say the same of every step say the same of every run. -/
theorem always_congr (h : ∀ s a, P s a ↔ C s a) (s : σ) (as : List α) :
    Always step P s as ↔ Always step C s as :=
  always_congr_of_inv (I := fun _ => True) (C := fun _ _ => True) (fun _ _ _ _ => trivial)
    (fun s a _ _ => h s a) trivial (always_of_forall (fun _ _ => trivial) s as)

/-- **The exact invariant rule.**  If a step keeps the invariant exactly when it
meets the condition, then the invariant holds after every part of a run exactly
when all its steps meet it. -/
theorem inv_prefix_iff {I : σ → Prop} (hstep : ∀ s a, I s → (I (step s a).1 ↔ C s a)) {s : σ}
    (hs : I s) (as : List α) :
    (∀ pre, pre <+: as → I (run step s pre)) ↔ Always step C s as := by
  induction as generalizing s with
  | nil => simp [hs]
  | cons a as ih =>
    rw [always_cons]
    constructor
    · intro h
      have hfirst : I (step s a).1 := h [a] (by simp)
      refine ⟨(hstep s a hs).1 hfirst, (ih hfirst).1 fun pre hpre => ?_⟩
      exact h (a :: pre) (List.cons_prefix_cons.2 ⟨rfl, hpre⟩)
    · rintro ⟨hC, hrest⟩ pre hpre
      rcases pre with _ | ⟨b, pre⟩
      · exact hs
      · obtain ⟨rfl, hrestPre⟩ := List.cons_prefix_cons.1 hpre
        exact (ih ((hstep s _ hs).2 hC)).2 hrest pre hrestPre

/-- **The unwinding rule.**  If the irrelevant actions keep a state related to where it
was, and related states answer the selected actions alike, then leaving out the
irrelevant actions of a run changes no answer to the selected ones. -/
theorem answersTo_filter {R : σ → σ → Prop} {mine relevant : α → Bool} {as : List α}
    (hmine : ∀ a ∈ as, mine a → relevant a)
    (hstep : ∀ a ∈ as, relevant a → ∀ s s', R s s' → R (step s a).1 (step s' a).1)
    (hidle : ∀ a ∈ as, ¬relevant a → ∀ s s', R s s' → R (step s a).1 s')
    (hans : ∀ a ∈ as, mine a → ∀ s s', R s s' → (step s a).2 = (step s' a).2)
    {s s' : σ} (hR : R s s') :
    answersTo step mine s as = answersTo step mine s' (as.filter relevant) := by
  induction as generalizing s s' with
  | nil => rfl
  | cons a as ih =>
    have ih' : ∀ {s s' : σ}, R s s' →
        answersTo step mine s as = answersTo step mine s' (as.filter relevant) := ih
      (fun b hb => hmine b (List.mem_cons_of_mem _ hb))
      (fun b hb => hstep b (List.mem_cons_of_mem _ hb))
      (fun b hb => hidle b (List.mem_cons_of_mem _ hb))
      (fun b hb => hans b (List.mem_cons_of_mem _ hb))
    have hmem : a ∈ a :: as := List.mem_cons_self ..
    by_cases hrel : relevant a
    · rw [List.filter_cons_of_pos hrel, answersTo, answersTo, ih' (hstep a hmem hrel s s' hR)]
      by_cases ha : mine a
      · simp only [ha, if_true, hans a hmem ha s s' hR]
      · simp only [ha, Bool.false_eq_true, if_false]
    · have ha : ¬mine a := fun ha => hrel (hmine a hmem ha)
      rw [List.filter_cons_of_neg hrel, answersTo, ih' (hidle a hmem hrel s s' hR)]
      simp only [ha, Bool.false_eq_true, if_false]

theorem answersTo_eq_outputs {mine : α → Bool} {as : List α} (h : ∀ a ∈ as, mine a) (s : σ) :
    answersTo step mine s as = outputs step s as := by
  induction as generalizing s with
  | nil => rfl
  | cons a as ih =>
    have hrest := ih (fun b hb => h b (List.mem_cons_of_mem _ hb)) (step s a).1
    simp only [answersTo, outputs, h a (List.mem_cons_self ..), if_true, hrest]

/-- **The simulation rule.**  Two machines whose states are related, and whose answers to every
action that meets the condition agree, give the same answers in every run whose actions all meet
it, and end in related states. -/
theorem outputs_eq_of_sim {ρ : Type*} {step' : ρ → α → ρ × β} {R : σ → ρ → Prop}
    (hstep : ∀ s r a, R s r → C s a → R (step s a).1 (step' r a).1 ∧ (step s a).2 = (step' r a).2)
    {s : σ} {r : ρ} {as : List α} (hR : R s r) (hC : Always step C s as) :
    outputs step s as = outputs step' r as ∧ R (run step s as) (run step' r as) := by
  induction as generalizing s r with
  | nil => exact ⟨rfl, hR⟩
  | cons a as ih =>
    obtain ⟨hnext, hanswer⟩ := hstep s r a hR hC.1
    obtain ⟨hrest, hend⟩ := ih hnext hC.2
    rw [outputs, outputs, hanswer, hrest]
    exact ⟨rfl, hend⟩

variable [Preorder τ] {time : α → τ}

/-- **The invariant rule, for actions at nondecreasing times.**  The invariant
may speak of the current time, and must survive its passing; it then holds at
every moment after the run. -/
theorem timed_inv_run {I : τ → σ → Prop}
    (hmono : ∀ t t' s, I t s → t ≤ t' → I t' s)
    (hstep : ∀ s a, I (time a) s → C s a → I (time a) (step s a).1) {s : σ} {as : List α} {now : τ}
    (hs : ∀ a ∈ as, I (time a) s) (hend : I now s) (hle : ∀ a ∈ as, time a ≤ now)
    (hsorted : as.Pairwise fun a b => time a ≤ time b) (hC : Always step C s as) :
    I now (run step s as) := by
  induction as generalizing s with
  | nil => exact hend
  | cons a as ih =>
    obtain ⟨hfirst, hrest⟩ := List.pairwise_cons.1 hsorted
    have hnext : I (time a) (step s a).1 := hstep s a (hs a (List.mem_cons_self ..)) hC.1
    exact ih (fun b hb => hmono _ _ _ hnext (hfirst b hb))
      (hmono _ _ _ hnext (hle a (List.mem_cons_self ..)))
      (fun b hb => hle b (List.mem_cons_of_mem _ hb)) hrest hC.2

/-- **The simulation rule, for actions at nondecreasing times.**  Two machines
whose states are related, and whose answers to an action then agree exactly when
the action meets the condition, give the same answers throughout exactly when
every action of the run meets it. -/
theorem outputs_eq_iff_of_timed_sim {ρ : Type*} {step' : ρ → α → ρ × β} {R : τ → σ → ρ → Prop}
    (hmono : ∀ t t' s r, R t s r → t ≤ t' → R t' s r)
    (hstep : ∀ s r a, R (time a) s r → C s a → R (time a) (step s a).1 (step' r a).1)
    (hout : ∀ s r a, R (time a) s r → ((step s a).2 = (step' r a).2 ↔ C s a))
    {s : σ} {r : ρ} {as : List α} (hR : ∀ a ∈ as, R (time a) s r)
    (hsorted : as.Pairwise fun a b => time a ≤ time b) :
    outputs step s as = outputs step' r as ↔ Always step C s as := by
  induction as generalizing s r with
  | nil => simp [outputs]
  | cons a as ih =>
    have ha : R (time a) s r := hR a (List.mem_cons_self ..)
    obtain ⟨hfirst, hrest⟩ := List.pairwise_cons.1 hsorted
    rw [outputs, outputs, List.cons.injEq, hout s r a ha, always_cons]
    refine and_congr_right fun hC => ih (fun b hb => ?_) hrest
    exact hmono _ _ _ _ (hstep s r a ha hC) (hfirst b hb)

end ScamOn.Machine
