import Mathlib.Data.List.Forall2
import Mathlib.Data.List.Infix

/-!
# Computations that can be watched

A computation that reports events while it goes on, and ends with a value or with an error.

* `Traced` is such a computation, with `emit`, `fail`, and its monad.
* `bind_eq_ok` says how a sequence of two ends with a value.
* `Stages` are the traces that the stages of a computation leave behind: one that a stage leaves
  when it is passed, and one when the computation ends in it.
* `Follows` says that a computation goes through a list of stages in order.  `Follows.bind` is the
  rule for a sequence, and `Follows.started` what an observer learns: the stages that were started
  are the first ones of the list, and all of them if there is a value.  `Follows.forall_mem` is
  for what holds of all events.
-/

namespace ScamOn

/-- A computation that reports events, and ends with a value or with an error. -/
@[ext] structure Traced (τ ε α : Type*) where
  trace : List τ
  result : Except ε α

namespace Traced

universe u

variable {τ ε ι : Type*} {α β : Type u}

/-- The value, without an event. -/
def done (a : α) : Traced τ ε α := ⟨[], .ok a⟩

/-- One event. -/
def emit (event : τ) : Traced τ ε Unit := ⟨[event], .ok ()⟩

/-- The error, without an event. -/
def fail (e : ε) : Traced τ ε α := ⟨[], .error e⟩

/-- One computation after the other. -/
def andThen (x : Traced τ ε α) (f : α → Traced τ ε β) : Traced τ ε β :=
  match x.result with
  | .ok a => ⟨x.trace ++ (f a).trace, (f a).result⟩
  | .error e => ⟨x.trace, .error e⟩

instance : Monad (Traced τ ε) where
  pure := done
  bind := andThen

variable {x : Traced τ ε α} {f : α → Traced τ ε β}

@[simp] theorem result_pure (a : α) : (pure a : Traced τ ε α).result = .ok a := rfl

@[simp] theorem trace_pure (a : α) : (pure a : Traced τ ε α).trace = [] := rfl

@[simp] theorem result_emit (event : τ) : (emit event : Traced τ ε Unit).result = .ok () := rfl

@[simp] theorem trace_emit (event : τ) : (emit event : Traced τ ε Unit).trace = [event] := rfl

@[simp] theorem result_fail (e : ε) : (fail e : Traced τ ε α).result = .error e := rfl

@[simp] theorem trace_fail (e : ε) : (fail e : Traced τ ε α).trace = [] := rfl

theorem bind_of_ok {a : α} (h : x.result = .ok a) :
    x >>= f = ⟨x.trace ++ (f a).trace, (f a).result⟩ := by
  show x.andThen f = _
  rw [andThen, h]

theorem bind_of_error {e : ε} (h : x.result = .error e) : x >>= f = ⟨x.trace, .error e⟩ := by
  show x.andThen f = _
  rw [andThen, h]

/-- **A sequence has a value** if both computations have one. -/
theorem bind_eq_ok {b : β} :
    (x >>= f).result = .ok b ↔ ∃ a, x.result = .ok a ∧ (f a).result = .ok b := by
  cases h : x.result with
  | ok a =>
    rw [bind_of_ok h]
    simp
  | error e =>
    rw [bind_of_error h]
    simp

/-! ## Stages -/

/-- The traces of the stages of a computation: of one that is passed, and of one that the
computation ends in with an error.  `start?` is the stage that an event says is started. -/
structure Stages (ι τ ε : Type*) where
  Passed : ι → List τ → Prop
  Broken : ε → ι → List τ → Prop
  start? : τ → Option ι
  started_passed : ∀ {n t}, Passed n t → t.filterMap start? = [n]
  started_broken : ∀ {e n t}, Broken e n t → t.filterMap start? <+: [n]

variable (S : Stages ι τ ε)

/-- The trace of passing all the stages of a list. -/
def Stages.Passes (names : List ι) (t : List τ) : Prop :=
  ∃ ts, List.Forall₂ S.Passed names ts ∧ t = ts.flatten

/-- The trace of passing the first stages of a list and ending in the next. -/
def Stages.Breaks (e : ε) (names : List ι) (t : List τ) : Prop :=
  ∃ passed last rest t₁ t₂, names = passed ++ last :: rest ∧ S.Passes passed t₁ ∧
    S.Broken e last t₂ ∧ t = t₁ ++ t₂

/-- The computation goes through these stages in order, and has a value if it gets to the end. -/
structure Follows (names : List ι) (x : Traced τ ε α) : Prop where
  passes : ∀ a, x.result = .ok a → S.Passes names x.trace
  breaks : ∀ e, x.result = .error e → S.Breaks e names x.trace

variable {S} {names more : List ι} {s t : List τ} {e : ε}

theorem Stages.Passes.append (h : S.Passes names s) (h' : S.Passes more t) :
    S.Passes (names ++ more) (s ++ t) := by
  obtain ⟨ts, hts, rfl⟩ := h
  obtain ⟨ts', hts', rfl⟩ := h'
  exact ⟨ts ++ ts', List.rel_append hts hts', List.flatten_append.symm⟩

theorem Stages.Passes.single {n : ι} (h : S.Passed n t) : S.Passes [n] t :=
  ⟨[t], .cons h .nil, (List.append_nil t).symm⟩

theorem Stages.Breaks.after (h : S.Passes names s) (h' : S.Breaks e more t) :
    S.Breaks e (names ++ more) (s ++ t) := by
  obtain ⟨passed, last, rest, t₁, t₂, rfl, hpassed, hlast, rfl⟩ := h'
  exact ⟨names ++ passed, last, rest, s ++ t₁, t₂, by simp, h.append hpassed, hlast, by simp⟩

theorem Stages.Breaks.append_right (h : S.Breaks e names t) (more : List ι) :
    S.Breaks e (names ++ more) t := by
  obtain ⟨passed, last, rest, t₁, t₂, rfl, hpassed, hlast, rfl⟩ := h
  exact ⟨passed, last, rest ++ more, t₁, t₂, by simp, hpassed, hlast, rfl⟩

theorem Stages.Breaks.single {n : ι} (h : S.Broken e n t) : S.Breaks e [n] t :=
  ⟨[], n, [], [], t, rfl, ⟨[], .nil, rfl⟩, h, rfl⟩

theorem Follows.pure (a : α) : Follows S [] (Pure.pure a : Traced τ ε α) where
  passes _ _ := ⟨[], .nil, rfl⟩
  breaks _ h := by cases h

/-- **The rule for a sequence.** -/
theorem Follows.bind (hx : Follows S names x) (hf : ∀ a, Follows S more (f a)) :
    Follows S (names ++ more) (x >>= f) := by
  cases h : x.result with
  | ok a =>
    rw [bind_of_ok h]
    exact ⟨fun b hb => (hx.passes a h).append ((hf a).passes b hb),
      fun e he => Stages.Breaks.after (hx.passes a h) ((hf a).breaks e he)⟩
  | error e =>
    rw [bind_of_error h]
    refine ⟨fun _ hb => (by cases hb), fun e' he' => ?_⟩
    cases he'
    exact (hx.breaks e h).append_right more

/-- A computation without an event, before the first of some stages.  If it ends with an error, so
can that stage, before it is started. -/
theorem Follows.silent_bind {n : ι} (htrace : x.trace = [])
    (hbroken : ∀ e, x.result = .error e → S.Broken e n [])
    (hf : ∀ a, Follows S (n :: more) (f a)) : Follows S (n :: more) (x >>= f) := by
  cases h : x.result with
  | ok a =>
    rw [bind_of_ok h, htrace]
    exact ⟨(hf a).passes, (hf a).breaks⟩
  | error e =>
    rw [bind_of_error h, htrace]
    refine ⟨fun _ hb => (by cases hb), fun e' he' => ?_⟩
    cases he'
    exact (Stages.Breaks.single (hbroken e h)).append_right more

theorem Stages.Passes.started (h : S.Passes names t) : t.filterMap S.start? = names := by
  obtain ⟨ts, hts, rfl⟩ := h
  induction hts with
  | nil => rfl
  | cons hpassed _ ih =>
    rw [List.flatten_cons, List.filterMap_append, S.started_passed hpassed, ih]
    rfl

/-- What holds of the events of every stage holds of all events. -/
theorem Follows.forall_mem {P : τ → Prop} (h : Follows S names x)
    (hpassed : ∀ n t, S.Passed n t → ∀ event ∈ t, P event)
    (hbroken : ∀ e n t, S.Broken e n t → ∀ event ∈ t, P event) : ∀ event ∈ x.trace, P event := by
  have hpasses : ∀ {ns t}, S.Passes ns t → ∀ event ∈ t, P event := by
    rintro ns t ⟨ts, hts, rfl⟩
    induction hts with
    | nil => simp
    | cons hfirst _ ih =>
      intro event hevent
      rcases List.mem_append.1 hevent with hnow | hlater
      · exact hpassed _ _ hfirst event hnow
      · exact ih event hlater
  cases hresult : x.result with
  | ok a => exact hpasses (h.passes a hresult)
  | error e =>
    obtain ⟨passed, last, rest, t₁, t₂, -, hfirst, hlast, htrace⟩ := h.breaks e hresult
    rw [htrace]
    intro event hevent
    rcases List.mem_append.1 hevent with hnow | hlater
    · exact hpasses hfirst event hnow
    · exact hbroken _ _ _ hlast event hlater

/-- **The stages that were started** are the first ones, and all of them if there is a value. -/
theorem Follows.started (h : Follows S names x) :
    x.trace.filterMap S.start? <+: names ∧
      ((∃ a, x.result = .ok a) → x.trace.filterMap S.start? = names) := by
  cases hresult : x.result with
  | ok a =>
    have hall := (h.passes a hresult).started
    exact ⟨hall ▸ List.prefix_refl _, fun _ => hall⟩
  | error e =>
    obtain ⟨passed, last, rest, t₁, t₂, hnames, hpassed, hlast, htrace⟩ := h.breaks e hresult
    constructor
    · rw [htrace, hnames, List.filterMap_append, hpassed.started]
      exact (List.prefix_append_right_inj passed).2 ((S.started_broken hlast).trans ⟨rest, rfl⟩)
    · rintro ⟨a, ha⟩
      cases ha

end Traced
end ScamOn
