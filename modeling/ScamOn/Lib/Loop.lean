import Mathlib.Algebra.Group.Defs
import Mathlib.Data.List.Basic
import ScamOn.Lib.Machine

/-!
# Loops that an exception ends

A loop runs its body on one item after the other, each time from the state the
last one left; an exception ends it, and the state is the one it was raised in.

* `forEach` gives the results of the iterations, `total` adds them up.
* `forEach_inv` and `total_inv` are the invariant rules, `forEach_ok_iff` says when
  the loop runs to its end.
* `mapM_eq_some_iff` is the same for a loop without a state.
* `total_alone`: if the body does nothing on all items but one, the loop does
  what the body does on that one.
* `repeatUntil` is a loop without a bound, for a number of turns; `repeatUntil_eq_some_iff`
  says that it ends with the first turn that has a result.
* `upTo` is a loop with a bound that a turn may leave, `upTo_inv` its invariant rule, and
  `upTo_rel` compares two of them, turn by turn.
* `forEach_ends_iff`: a loop whose body has to be given time ends, if it is given enough,
  exactly when the body does so on every item, each taken in the state it gets to.
-/

namespace ScamOn.Loop

variable {σ α β ε : Type*}

/-- The loop: the last state, and the results up to an exception. -/
def forEach (body : σ → α → σ × Except ε β) : σ → List α → σ × Except ε (List β)
  | s, [] => (s, .ok [])
  | s, a :: as =>
    match body s a with
    | (s', .error e) => (s', .error e)
    | (s', .ok b) =>
      let rest := forEach body s' as
      (rest.1, rest.2.map (b :: ·))

/-- The loop, with its results added up. -/
def total [Add β] [Zero β] (body : σ → α → σ × Except ε β) (s : σ) (as : List α) : σ × Except ε β :=
  let done := forEach body s as
  (done.1, done.2.map List.sum)

variable {body : σ → α → σ × Except ε β}

theorem forEach_singleton (body : σ → α → σ × Except ε β) (s : σ) (a : α) :
    forEach body s [a] = ((body s a).1, (body s a).2.map ([·])) := by
  unfold forEach
  rcases body s a with ⟨s', e | b⟩
  · rfl
  · rfl

/-- **The invariant rule.**  What the body keeps on every item, the loop keeps. -/
theorem forEach_inv {I : σ → Prop} {as : List α} (hbody : ∀ s, ∀ a ∈ as, I s → I (body s a).1)
    {s : σ} (hs : I s) : I (forEach body s as).1 := by
  induction as generalizing s with
  | nil => exact hs
  | cons a as ih =>
    have hfirst : I (body s a).1 := hbody s a (List.mem_cons_self ..) hs
    have ih' := fun s => ih (fun s b hb => hbody s b (List.mem_cons_of_mem _ hb)) (s := s)
    unfold forEach
    rcases hrun : body s a with ⟨s', e | b⟩
    · rw [hrun] at hfirst
      exact hfirst
    · rw [hrun] at hfirst
      exact ih' s' hfirst

/-- **The invariant rule, by position.**  `I` holds between two items, with those already
done, and `J` is what an exception leaves. -/
theorem forEach_inv_prefix {I : List α → σ → Prop} {J : σ → Prop} {as : List α}
    (hok : ∀ done a rest s s' b, as = done ++ a :: rest → I done s → body s a = (s', .ok b) →
      I (done ++ [a]) s')
    (herror : ∀ done a rest s s' e, as = done ++ a :: rest → I done s → body s a = (s', .error e) →
      J s') {s : σ} (hs : I [] s) :
    (∀ bs, (forEach body s as).2 = .ok bs → I as (forEach body s as).1) ∧
      ∀ e, (forEach body s as).2 = .error e → J (forEach body s as).1 := by
  have hrest : ∀ (rest done : List α) (s : σ), as = done ++ rest → I done s →
      (∀ bs, (forEach body s rest).2 = .ok bs → I as (forEach body s rest).1) ∧
        ∀ e, (forEach body s rest).2 = .error e → J (forEach body s rest).1 := by
    intro rest
    induction rest with
    | nil =>
      intro done s has hs
      rw [List.append_nil] at has
      subst has
      refine ⟨fun _ _ => hs, fun e h => ?_⟩
      cases h
    | cons a rest ih =>
      intro done s has hs
      unfold forEach
      rcases hrun : body s a with ⟨s', e | b⟩
      · refine ⟨fun bs h => ?_, fun _ _ => herror done a rest s s' e has hs hrun⟩
        cases h
      · obtain ⟨hI, hJ⟩ := ih (done ++ [a]) s' (by simpa using has)
          (hok done a rest s s' b has hs hrun)
        dsimp only
        rcases hlast : forEach body s' rest with ⟨t, e | bs⟩
        · rw [hlast] at hJ
          refine ⟨fun bs h => ?_, fun _ _ => hJ e rfl⟩
          cases h
        · rw [hlast] at hI
          refine ⟨fun _ _ => hI bs rfl, fun e h => ?_⟩
          cases h
  exact hrest as [] s rfl hs

/-- **A loop runs to its end** exactly when the body raises on no item, each taken
in the state the ones before it leave. -/
theorem forEach_ok_iff (s : σ) (as : List α) :
    (∃ bs, (forEach body s as).2 = .ok bs) ↔
      Machine.Always body (fun s a => ∃ b, (body s a).2 = .ok b) s as := by
  induction as generalizing s with
  | nil => simp [forEach]
  | cons a as ih =>
    rw [Machine.always_cons, forEach]
    rcases hrun : body s a with ⟨s', e | b⟩
    · simp
    · rw [← ih s']
      rcases hrest : forEach body s' as with ⟨s'', e | bs⟩
      · simp [Except.map, hrest]
      · simp [Except.map, hrest]

/-- A loop without a state gives the results of all iterations, or none. -/
theorem mapM_eq_some_iff {f : α → Option β} {as : List α} {bs : List β} :
    as.mapM f = some bs ↔ as.map f = bs.map some := by
  induction as generalizing bs with
  | nil => cases bs <;> simp
  | cons a as ih =>
    rw [List.mapM_cons, List.map_cons]
    constructor
    · intro h
      obtain ⟨b, hb, h⟩ := Option.bind_eq_some_iff.1 h
      obtain ⟨cs, hcs, h⟩ := Option.bind_eq_some_iff.1 h
      cases h
      rw [List.map_cons, hb, ih.1 hcs]
    · intro h
      rcases bs with _ | ⟨b, bs⟩
      · cases h
      obtain ⟨hb, hbs⟩ := List.cons.inj h
      rw [hb, ih.2 hbs]
      rfl

/-- Such a loop runs to its end if no iteration fails. -/
theorem exists_mapM_eq_some {f : α → Option β} {as : List α} (h : ∀ a ∈ as, ∃ b, f a = some b) :
    ∃ bs, as.mapM f = some bs := by
  induction as with
  | nil => exact ⟨[], rfl⟩
  | cons a as ih =>
    obtain ⟨b, hb⟩ := h a (List.mem_cons_self ..)
    obtain ⟨bs, hbs⟩ := ih fun a' ha' => h a' (List.mem_cons_of_mem _ ha')
    refine ⟨b :: bs, ?_⟩
    rw [List.mapM_cons, hb, hbs]
    rfl

/-- A fold whose steps leave an entry alone or delete it. -/
theorem get_foldl_of_erasing {γ : Type*} {g : σ → Option γ} {f : σ → α → σ} {p : α → Bool}
    (h : ∀ s a, g (f s a) = if p a then none else g s) (s : σ) (as : List α) :
    g (as.foldl f s) = if as.any p then none else g s := by
  induction as generalizing s with
  | nil => simp
  | cons a as ih =>
    rw [List.foldl_cons, ih, h]
    cases hp : p a <;> simp [hp]

section Total

variable [AddMonoid β]

theorem total_inv {I : σ → Prop} {as : List α} (hbody : ∀ s, ∀ a ∈ as, I s → I (body s a).1)
    {s : σ} (hs : I s) : I (total body s as).1 := forEach_inv hbody hs

theorem total_cons_error {s s' : σ} {a : α} {e : ε} (h : body s a = (s', .error e)) (as : List α) :
    total body s (a :: as) = (s', .error e) := by
  rw [total, forEach, h]
  rfl

theorem total_cons_ok {s s' : σ} {a : α} {b : β} (h : body s a = (s', .ok b)) (as : List α) :
    total body s (a :: as) = ((total body s' as).1, (total body s' as).2.map (b + ·)) := by
  have hfirst : forEach body s (a :: as) =
      ((forEach body s' as).1, (forEach body s' as).2.map (b :: ·)) := by
    rw [forEach, h]
  rw [total, total, hfirst]
  rcases forEach body s' as with ⟨s'', e | bs⟩
  · rfl
  · simp [Except.map]

/-- Items on which the body does nothing change nothing. -/
theorem total_append_of_idle {as : List α} (h : ∀ a ∈ as, ∀ s, body s a = (s, .ok 0)) (s : σ)
    (rest : List α) : total body s (as ++ rest) = total body s rest := by
  induction as with
  | nil => rfl
  | cons a as ih =>
    have ih' := ih fun b hb => h b (List.mem_cons_of_mem _ hb)
    rw [List.cons_append, total_cons_ok (h a (List.mem_cons_self ..) s), ih']
    rcases total body s rest with ⟨s', e | b⟩
    · rfl
    · simp [Except.map]

/-- **The only one that acts.**  If the body does nothing on every item but `d`,
the loop is the body on `d`. -/
theorem total_alone {as : List α} {d : α} (hd : d ∈ as) (hnodup : as.Nodup)
    (h : ∀ a ∈ as, a ≠ d → ∀ s, body s a = (s, .ok 0)) (s : σ) :
    total body s as = total body s [d] := by
  obtain ⟨before, after, rfl⟩ := List.append_of_mem hd
  obtain ⟨-, hafter, hdisjoint⟩ := List.nodup_append.1 hnodup
  have hidle : ∀ a ∈ before, ∀ s, body s a = (s, .ok 0) := by
    intro a ha
    exact h a (List.mem_append_left _ ha) (hdisjoint a ha d (List.mem_cons_self ..))
  have hidle' : ∀ a ∈ after, ∀ s, body s a = (s, .ok 0) := by
    intro a ha
    refine h a (List.mem_append_right _ (List.mem_cons_of_mem _ ha)) ?_
    rintro rfl
    exact (List.nodup_cons.1 hafter).1 ha
  rw [total_append_of_idle hidle]
  rcases hrun : body s d with ⟨s', e | b⟩
  · rw [total_cons_error hrun, total_cons_error hrun]
  · have hrest : total body s' after = total body s' [] := by
      have happend := total_append_of_idle hidle' s' []
      rwa [List.append_nil] at happend
    rw [total_cons_ok hrun, total_cons_ok hrun, hrest]

/-- Bodies that agree on the items make the same loop. -/
theorem total_congr {body' : σ → α → σ × Except ε β} {as : List α}
    (h : ∀ a ∈ as, ∀ s, body s a = body' s a) (s : σ) : total body s as = total body' s as := by
  induction as generalizing s with
  | nil => rfl
  | cons a as ih =>
    have ih' := fun s => ih (fun b hb => h b (List.mem_cons_of_mem _ hb)) s
    have ha := h a (List.mem_cons_self ..) s
    rcases hrun : body s a with ⟨s', e | b⟩
    · rw [total_cons_error hrun, total_cons_error (ha ▸ hrun)]
    · rw [total_cons_ok hrun, total_cons_ok (ha ▸ hrun), ih']

end Total

/-! ## Loops without a bound -/

/-- `while True`: the result of the first turn that has one, if there are turns left for
it. -/
def repeatUntil (turn : ℕ → Option β) : ℕ → ℕ → Option β
  | 0, _ => none
  | turns + 1, n =>
    match turn n with
    | some b => some b
    | none => repeatUntil turn turns (n + 1)

theorem repeatUntil_eq_some_iff {turn : ℕ → Option β} {turns n : ℕ} {b : β} :
    repeatUntil turn turns n = some b ↔
      ∃ j, n ≤ j ∧ j < n + turns ∧ (∀ i, n ≤ i → i < j → turn i = none) ∧ turn j = some b := by
  induction turns generalizing n with
  | zero =>
    simp only [repeatUntil, reduceCtorEq, false_iff]
    rintro ⟨j, hle, hlt, -⟩
    omega
  | succ turns ih =>
    unfold repeatUntil
    cases hturn : turn n with
    | some c =>
      constructor
      · rintro h
        cases h
        exact ⟨n, Nat.le_refl n, by omega, fun i hle hlt => by omega, hturn⟩
      · rintro ⟨j, hle, -, hbefore, hj⟩
        rcases Nat.eq_or_lt_of_le hle with rfl | hlt
        · rw [← hturn, hj]
        · rw [hbefore n (Nat.le_refl n) hlt] at hturn
          cases hturn
    | none =>
      rw [ih]
      constructor
      · rintro ⟨j, hle, hlt, hbefore, hj⟩
        refine ⟨j, by omega, by omega, fun i hi hij => ?_, hj⟩
        rcases Nat.eq_or_lt_of_le hi with rfl | hi'
        · exact hturn
        · exact hbefore i hi' hij
      · rintro ⟨j, hle, hlt, hbefore, hj⟩
        rcases Nat.eq_or_lt_of_le hle with rfl | hlt'
        · rw [hturn] at hj
          cases hj
        · exact ⟨j, hlt', by omega, fun i hi hij => hbefore i (by omega) hij, hj⟩

/-- More turns do not change a result. -/
theorem repeatUntil_mono {turn : ℕ → Option β} {turns turns' n : ℕ} {b : β}
    (h : repeatUntil turn turns n = some b) (hle : turns ≤ turns') :
    repeatUntil turn turns' n = some b := by
  obtain ⟨j, hj, hlt, hbefore, hend⟩ := repeatUntil_eq_some_iff.1 h
  exact repeatUntil_eq_some_iff.2 ⟨j, hj, by omega, hbefore, hend⟩

/-! ## Loops with a bound and a way out -/

/-- `for _ in range(turns)` with a way out: the state after the turns, up to the first that
has a result, and that result. -/
def upTo (turn : σ → σ × Option β) : ℕ → σ → σ × Option β
  | 0, s => (s, none)
  | turns + 1, s =>
    match turn s with
    | (s', some b) => (s', some b)
    | (s', none) => upTo turn turns s'

/-- **The invariant rule.**  What the turns keep, by the number of those that are left, holds
at the end, and what a turn with a result makes of it holds if there is one. -/
theorem upTo_inv {turn : σ → σ × Option β} {I : ℕ → σ → Prop} {Q : σ → β → Prop}
    (hgo : ∀ k s s', I (k + 1) s → turn s = (s', none) → I k s')
    (hend : ∀ k s s' b, I (k + 1) s → turn s = (s', some b) → Q s' b) (turns : ℕ) {s : σ}
    (hs : I turns s) :
    match upTo turn turns s with
    | (s', none) => I 0 s'
    | (s', some b) => Q s' b := by
  induction turns generalizing s with
  | zero => exact hs
  | succ turns ih =>
    unfold upTo
    rcases hturn : turn s with ⟨s', _ | b⟩
    · exact ih (hgo turns s s' hs hturn)
    · exact hend turns s s' b hs hturn

/-- **Two loops**, the turns of which keep their states related and have the same results. -/
theorem upTo_rel {τ : Type*} {turn : σ → σ × Option β} {turn' : τ → τ × Option β} {R : σ → τ → Prop}
    (h : ∀ s t, R s t → R (turn s).1 (turn' t).1 ∧ (turn s).2 = (turn' t).2) {s : σ} {t : τ}
    (hst : R s t) (turns : ℕ) :
    R (upTo turn turns s).1 (upTo turn' turns t).1 ∧
      (upTo turn turns s).2 = (upTo turn' turns t).2 := by
  induction turns generalizing s t with
  | zero => exact ⟨hst, rfl⟩
  | succ turns ih =>
    obtain ⟨hnext, hresult⟩ := h s t hst
    unfold upTo
    rcases hs : turn s with ⟨s', b⟩
    rcases ht : turn' t with ⟨t', b'⟩
    simp only [hs, ht] at hnext hresult
    subst hresult
    cases b with
    | none => exact ih hnext
    | some b => exact ⟨hnext, rfl⟩

section Fuel

/-- Along the items, in every state that is gotten to, the next item is one that `P` allows. -/
def Throughout (Next : σ → α → σ → Prop) (P : σ → α → Prop) : σ → List α → Prop
  | _, [] => True
  | s, a :: as => P s a ∧ ∀ s', Next s a s' → Throughout Next P s' as

theorem throughout_congr {Next : σ → α → σ → Prop} {P Q : σ → α → Prop} {s : σ} {as : List α}
    (h : ∀ s, ∀ a ∈ as, P s a ↔ Q s a) : Throughout Next P s as ↔ Throughout Next Q s as := by
  induction as generalizing s with
  | nil => rfl
  | cons a as ih =>
    have ih' := fun s => ih (fun s b hb => h s b (List.mem_cons_of_mem _ hb)) (s := s)
    simp only [Throughout, h s a (List.mem_cons_self ..), ih']

variable {fueled : ℕ → σ → α → σ × Except ε β} {late : ε}

/-- With enough fuel the body gets from one state to the other. -/
def Gets (fueled : ℕ → σ → α → σ × Except ε β) (s : σ) (a : α) (s' : σ) : Prop :=
  ∃ fuel b, fueled fuel s a = (s', .ok b)

/-- More fuel does not change a loop that is not out of it. -/
theorem forEach_mono {fuel fuel' : ℕ}
    (hmono : ∀ s a, (fueled fuel s a).2 ≠ .error late → fueled fuel' s a = fueled fuel s a)
    {s : σ} {as : List α} (h : (forEach (fueled fuel) s as).2 ≠ .error late) :
    forEach (fueled fuel') s as = forEach (fueled fuel) s as := by
  induction as generalizing s with
  | nil => rfl
  | cons a as ih =>
    unfold forEach at h ⊢
    rcases hrun : fueled fuel s a with ⟨s', e | b⟩
    · simp only [hrun] at h
      have hne : (fueled fuel s a).2 ≠ .error late := by
        rw [hrun]
        simpa using h
      rw [hmono s a hne, hrun]
    · have hne : (fueled fuel s a).2 ≠ .error late := by
        rw [hrun]
        simp
      rw [hmono s a hne, hrun]
      simp only [hrun] at h
      have hrest : (forEach (fueled fuel) s' as).2 ≠ .error late := by
        intro hlate
        exact h (by simp [hlate, Except.map])
      dsimp only
      rw [ih hrest]

variable (hmono : ∀ fuel fuel' s a, fuel ≤ fuel' → (fueled fuel s a).2 ≠ .error late →
  fueled fuel' s a = fueled fuel s a)

include hmono

theorem Gets.unique {s s₁ s₂ : σ} {a : α} (h₁ : Gets fueled s a s₁) (h₂ : Gets fueled s a s₂) :
    s₁ = s₂ := by
  obtain ⟨f₁, b₁, h₁⟩ := h₁
  obtain ⟨f₂, b₂, h₂⟩ := h₂
  have hmax₁ := hmono f₁ (max f₁ f₂) s a (Nat.le_max_left ..) (by rw [h₁]; simp)
  have hmax₂ := hmono f₂ (max f₁ f₂) s a (Nat.le_max_right ..) (by rw [h₂]; simp)
  rw [h₁] at hmax₁
  rw [h₂, hmax₁] at hmax₂
  exact (Prod.mk.inj hmax₂).1

/-- **A loop whose body needs time ends** exactly if the body does on every item. -/
theorem forEach_ends_iff {P : σ → α → Prop} (hP : ∀ s a, (∃ s', Gets fueled s a s') ↔ P s a)
    (s : σ) (as : List α) :
    (∃ fuel bs, (forEach (fueled fuel) s as).2 = .ok bs) ↔
      Throughout (Gets fueled) P s as := by
  induction as generalizing s with
  | nil => simp [forEach, Throughout]
  | cons a as ih =>
    unfold Throughout
    constructor
    · rintro ⟨fuel, bs, h⟩
      unfold forEach at h
      rcases hrun : fueled fuel s a with ⟨s', e | b⟩
      · simp [hrun] at h
      · have hgets : Gets fueled s a s' := ⟨fuel, b, hrun⟩
        refine ⟨(hP s a).1 ⟨s', hgets⟩, fun s'' hs'' => ?_⟩
        rw [← hgets.unique hmono hs'', ← ih s']
        simp only [hrun] at h
        rcases hrest : forEach (fueled fuel) s' as with ⟨t, e | cs⟩
        · simp [hrest, Except.map] at h
        · exact ⟨fuel, cs, by rw [hrest]⟩
    · rintro ⟨hfirst, hrest⟩
      obtain ⟨s', hgets⟩ := (hP s a).2 hfirst
      obtain ⟨f₂, bs, h₂⟩ := (ih s').2 (hrest s' hgets)
      obtain ⟨f₁, b, h₁⟩ := hgets
      have hbody := hmono f₁ (max f₁ f₂) s a (Nat.le_max_left ..) (by rw [h₁]; simp)
      have hloop := forEach_mono (fun s a => hmono f₂ (max f₁ f₂) s a (Nat.le_max_right ..))
        (show (forEach (fueled f₂) s' as).2 ≠ .error late by rw [h₂]; simp)
      refine ⟨max f₁ f₂, b :: bs, ?_⟩
      rw [forEach, hbody, h₁]
      simp only [hloop, h₂]
      rfl

end Fuel

end ScamOn.Loop
