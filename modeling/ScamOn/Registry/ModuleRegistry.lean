import Mathlib.Data.List.Infix
import ScamOn.Lib.Dict
import ScamOn.Lib.Loop
import ScamOn.Lib.Machine

/-!
# The lifecycle of the modules

`ModuleRegistry` initializes the registered modules one after the other and shuts
them down in the reverse order; one flag says whether they are initialized.  A
module's `initialize` or `shutdown` is awaited for any time, may raise or be
cancelled, and other modules may be registered meanwhile.

* `register`, `initializeAll` and `shutdownAll` are the methods; `registryStep` is
  one call, and every run of a module's method goes on record in `Lifecycle.log`.
* `since` are the outcomes of a module's `initialize` since its last `shutdown`.
* `Balanced` is the invariant of runs in which no `initialize_all` follows one that
  raised.
* `lifecycle_balanced_iff`: these are exactly the runs in which the modules are
  started once, are all shut down, and in the reverse order.
-/

namespace ScamOn.Registry

/-! ## The registry -/

/-- `IModule`, by what the registry reads of it. -/
structure IModule where
  name : String
  version : String
  deriving DecidableEq

/-- What a call raises. -/
inductive RegistryError
  /-- `ModuleLifecycleError`, with its message and details. -/
  | moduleLifecycle (message : String) (details : List (String × String))
  /-- The dictionary grew while it was iterated over. -/
  | runtimeError (message : String)
  /-- `CancelledError`, which is not an `Exception`. -/
  | cancelled
  deriving DecidableEq

/-- How the run of a module's method ends. -/
inductive Outcome
  | ok
  | raised (text : String)
  | cancelled
  deriving DecidableEq

/-- What happens while a module's method is awaited: modules are registered, and it ends. -/
structure Await where
  registered : List IModule
  outcome : Outcome
  deriving DecidableEq

/-- One run of a module's method. -/
inductive Event
  | ranInitialize (name : String) (outcome : Outcome)
  | ranShutdown (name : String) (outcome : Outcome)
  deriving DecidableEq

/-- `ModuleRegistry`. -/
structure ModuleRegistry where
  modules : Dict String IModule
  initialized : Bool

/-- The registry, with what has run; `raised` says that an `initialize_all` has raised. -/
structure Lifecycle where
  registry : ModuleRegistry
  log : List Event
  raised : Bool

namespace Lifecycle

/-- A new registry. -/
def init : Lifecycle := ⟨⟨∅, false⟩, [], false⟩

/-- The names, in the order of registration. -/
def names (s : Lifecycle) : List String := s.registry.modules.keys

def happened (s : Lifecycle) (e : Event) : Lifecycle := { s with log := s.log ++ [e] }

/-- `register`. -/
def register (s : Lifecycle) (module : IModule) : Lifecycle × Except RegistryError Unit :=
  if s.registry.modules.contains module.name then
    (s, .error (.moduleLifecycle s!"Module '{module.name}' is already registered."
      [("module_name", module.name)]))
  else
    ({ s with registry.modules := s.registry.modules.set module.name module }, .ok ())

/-- The registrations during an await: an exception is their caller's. -/
def registerAll (s : Lifecycle) (modules : List IModule) : Lifecycle :=
  modules.foldl (fun s module => (s.register module).1) s

/-- One iteration of `initialize_all`; `size` is the size of the dictionary when the loop was
entered, and the iterator looks at it before it goes on. -/
def initializeOne (env : String → Await) (size : ℕ) (s : Lifecycle) (name : String) :
    Lifecycle × Except RegistryError Unit :=
  let s' := (s.happened (.ranInitialize name (env name).outcome)).registerAll (env name).registered
  match (env name).outcome with
  | .raised text =>
    (s', .error (.moduleLifecycle s!"Failed to initialize module '{name}': {text}"
      [("module_name", name), ("error", text)]))
  | .cancelled => (s', .error .cancelled)
  | .ok =>
    if s'.names.length = size then (s', .ok ())
    else (s', .error (.runtimeError "dictionary changed size during iteration"))

/-- `initialize_all`. -/
def initializeAll (s : Lifecycle) (env : String → Await) : Lifecycle × Except RegistryError Unit :=
  if s.registry.initialized then (s, .ok ())
  else
    match Loop.forEach (initializeOne env s.names.length) s s.names with
    | (s', .ok _) => ({ s' with registry.initialized := true }, .ok ())
    | (s', .error e) => ({ s' with raised := true }, .error e)

/-- One iteration of `shutdown_all`. -/
def shutdownOne (env : String → Await) (s : Lifecycle) (name : String) :
    Lifecycle × Except RegistryError Unit :=
  let s' := (s.happened (.ranShutdown name (env name).outcome)).registerAll (env name).registered
  match (env name).outcome with
  | .cancelled => (s', .error .cancelled)
  | _ => (s', .ok ())

/-- `shutdown_all`: it goes over a copy of the dictionary. -/
def shutdownAll (s : Lifecycle) (env : String → Await) : Lifecycle × Except RegistryError Unit :=
  if s.registry.initialized = false then (s, .ok ())
  else
    match Loop.forEach (shutdownOne env) s s.names.reverse with
    | (s', .ok _) => ({ s' with registry.initialized := false }, .ok ())
    | (s', .error e) => (s', .error e)

end Lifecycle

/-- A call. -/
inductive Call
  | register (module : IModule)
  | initializeAll (env : String → Await)
  | shutdownAll (env : String → Await)

/-- One call, with its answer. -/
def registryStep (s : Lifecycle) : Call → Lifecycle × Except RegistryError Unit
  | .register module => s.register module
  | .initializeAll env => s.initializeAll env
  | .shutdownAll env => s.shutdownAll env

/-! ## What the record says -/

/-- One more run, for the outcomes of a module's `initialize` since its last `shutdown`. -/
def sinceStep (name : String) (outcomes : List Outcome) : Event → List Outcome
  | .ranInitialize n outcome => if n = name then outcomes ++ [outcome] else outcomes
  | .ranShutdown n _ => if n = name then [] else outcomes

/-- The outcomes of a module's `initialize` since its last `shutdown`. -/
def since (name : String) (log : List Event) : List Outcome := log.foldl (sinceStep name) []

/-- The module an entry shuts down. -/
@[simp] def Event.shutDown : Event → Option String
  | .ranInitialize _ _ => none
  | .ranShutdown name _ => some name

/-- No module has been initialized twice without a shutdown in between. -/
def StartedOnce (log : List Event) : Prop :=
  ∀ name, ∀ pre, pre <+: log → (since name pre).length ≤ 1

/-- No module is up: every successful `initialize` was followed by a `shutdown`. -/
def AllDown (log : List Event) : Prop := ∀ name, .ok ∉ since name log

/-- What one call has to do. -/
structure BalancedAt (s : Lifecycle) (c : Call) : Prop where
  once : StartedOnce (registryStep s c).1.log
  down : ∀ env, c = .shutdownAll env → (registryStep s c).2 = .ok () →
    AllDown (registryStep s c).1.log
  reversed : ∃ new, (registryStep s c).1.log = s.log ++ new ∧
    new.filterMap Event.shutDown <+: s.names.reverse

/-- After an `initialize_all` that raised, no other one is called, and `shutdown_all` only when
no module is up. -/
def RightAt (s : Lifecycle) : Call → Prop
  | .register _ => True
  | .initializeAll _ => s.raised = false
  | .shutdownAll _ => s.raised → AllDown s.log

/-! ## Lemmas on the record -/

theorem since_concat (name : String) (log : List Event) (e : Event) :
    since name (log ++ [e]) = sinceStep name (since name log) e := by
  rw [since, List.foldl_append, since]
  rfl

theorem since_initialize_self (name : String) (log : List Event) (outcome : Outcome) :
    since name (log ++ [.ranInitialize name outcome]) = since name log ++ [outcome] := by
  simp [since_concat, sinceStep]

theorem since_initialize_of_ne {name n : String} (h : n ≠ name) (log : List Event)
    (outcome : Outcome) : since name (log ++ [.ranInitialize n outcome]) = since name log := by
  simp [since_concat, sinceStep, h]

theorem since_shutdown_self (name : String) (log : List Event) (outcome : Outcome) :
    since name (log ++ [.ranShutdown name outcome]) = [] := by
  simp [since_concat, sinceStep]

theorem since_shutdown_of_ne {name n : String} (h : n ≠ name) (log : List Event)
    (outcome : Outcome) : since name (log ++ [.ranShutdown n outcome]) = since name log := by
  simp [since_concat, sinceStep, h]

theorem startedOnce_nil : StartedOnce [] := by
  intro name pre hpre
  rw [List.prefix_nil.1 hpre]
  exact Nat.zero_le 1

theorem StartedOnce.concat {log : List Event} {e : Event} (h : StartedOnce log)
    (hlast : ∀ name, (since name (log ++ [e])).length ≤ 1) : StartedOnce (log ++ [e]) := by
  intro name pre hpre
  rcases List.prefix_concat_iff.1 hpre with rfl | hpre
  · exact hlast name
  · exact h name pre hpre

theorem StartedOnce.length_le {log : List Event} (h : StartedOnce log) (name : String) :
    (since name log).length ≤ 1 := h name log (List.prefix_refl _)

/-- A module that has not been started may be. -/
theorem StartedOnce.ranInitialize {log : List Event} {name : String} (h : StartedOnce log)
    (hnew : since name log = []) (outcome : Outcome) :
    StartedOnce (log ++ [.ranInitialize name outcome]) := by
  refine h.concat fun n => ?_
  by_cases hn : name = n
  · subst hn
    simp [since_initialize_self, hnew]
  · rw [since_initialize_of_ne hn]
    exact h.length_le n

theorem StartedOnce.ranShutdown {log : List Event} (h : StartedOnce log) (name : String)
    (outcome : Outcome) : StartedOnce (log ++ [.ranShutdown name outcome]) := by
  refine h.concat fun n => ?_
  by_cases hn : name = n
  · subst hn
    simp [since_shutdown_self]
  · rw [since_shutdown_of_ne hn]
    exact h.length_le n

/-! ## Registrations -/

/-- What registrations leave as it is. -/
structure Registers (s s' : Lifecycle) : Prop where
  log : s'.log = s.log
  raised : s'.raised = s.raised
  initialized : s'.registry.initialized = s.registry.initialized
  names : s.names <+: s'.names

theorem Registers.refl (s : Lifecycle) : Registers s s := ⟨rfl, rfl, rfl, List.prefix_refl _⟩

theorem Registers.trans {s s' s'' : Lifecycle} (h : Registers s s') (h' : Registers s' s'') :
    Registers s s'' where
  log := h'.log.trans h.log
  raised := h'.raised.trans h.raised
  initialized := h'.initialized.trans h.initialized
  names := h.names.trans h'.names

theorem registers_register (s : Lifecycle) (module : IModule) :
    Registers s (s.register module).1 := by
  unfold Lifecycle.register
  split_ifs with hold
  · exact Registers.refl s
  · have hnew : s.registry.modules.get? module.name = none := by
      simpa [Dict.contains] using hold
    refine ⟨rfl, rfl, rfl, ?_⟩
    show s.registry.modules.keys <+: (s.registry.modules.set module.name module).keys
    rw [Dict.keys_set_of_get?_eq_none hnew]
    exact List.prefix_append ..

theorem registers_registerAll (s : Lifecycle) (modules : List IModule) :
    Registers s (s.registerAll modules) := by
  unfold Lifecycle.registerAll
  induction modules generalizing s with
  | nil => exact Registers.refl s
  | cons module modules ih => exact (registers_register s module).trans (ih _)

/-! ## One iteration -/

theorem initializeOne_fst (env : String → Await) (size : ℕ) (s : Lifecycle) (name : String) :
    (s.initializeOne env size name).1 =
      (s.happened (.ranInitialize name (env name).outcome)).registerAll (env name).registered := by
  unfold Lifecycle.initializeOne
  cases (env name).outcome with
  | ok =>
    dsimp only
    split_ifs <;> rfl
  | raised text => rfl
  | cancelled => rfl

theorem shutdownOne_fst (env : String → Await) (s : Lifecycle) (name : String) :
    (s.shutdownOne env name).1 =
      (s.happened (.ranShutdown name (env name).outcome)).registerAll (env name).registered := by
  unfold Lifecycle.shutdownOne
  cases (env name).outcome <;> rfl

theorem log_initializeOne (env : String → Await) (size : ℕ) (s : Lifecycle) (name : String) :
    (s.initializeOne env size name).1.log = s.log ++ [.ranInitialize name (env name).outcome] := by
  rw [initializeOne_fst]
  exact (registers_registerAll ..).log

theorem log_shutdownOne (env : String → Await) (s : Lifecycle) (name : String) :
    (s.shutdownOne env name).1.log = s.log ++ [.ranShutdown name (env name).outcome] := by
  rw [shutdownOne_fst]
  exact (registers_registerAll ..).log

/-- While `initialize_all` runs from the state `s₀`, with the modules it has started. -/
structure Starting (s₀ : Lifecycle) (done : List String) (s : Lifecycle) : Prop where
  once : StartedOnce s.log
  started : ∀ name, since name s.log ≠ [] ↔ name ∈ done
  names : s₀.names <+: s.names
  initialized : s.registry.initialized = s₀.registry.initialized
  raised : s.raised = s₀.raised
  log : ∃ new, s.log = s₀.log ++ new ∧ new.filterMap Event.shutDown = []

theorem Starting.next {s₀ s : Lifecycle} {done : List String} {name : String}
    (h : Starting s₀ done s) (hnew : name ∉ done) (env : String → Await) (size : ℕ) :
    Starting s₀ (done ++ [name]) (s.initializeOne env size name).1 := by
  have hlog := log_initializeOne env size s name
  have hsince : since name s.log = [] := by
    by_contra hne
    exact hnew ((h.started name).1 hne)
  have hregisters : Registers (s.happened (.ranInitialize name (env name).outcome))
      (s.initializeOne env size name).1 := by
    rw [initializeOne_fst]
    exact registers_registerAll ..
  obtain ⟨new, hnewLog, hnone⟩ := h.log
  refine ⟨?_, fun n => ?_, h.names.trans hregisters.names, hregisters.initialized.trans h.initialized,
    hregisters.raised.trans h.raised, new ++ [.ranInitialize name (env name).outcome], ?_, ?_⟩
  · rw [hlog]
    exact h.once.ranInitialize hsince _
  · rw [hlog, List.mem_append, List.mem_singleton, ← h.started n]
    by_cases hn : name = n
    · subst hn
      simp [since_initialize_self]
    · simp [since_initialize_of_ne hn, Ne.symm hn]
  · rw [hlog, hnewLog, List.append_assoc]
  · simp [hnone]

/-- While `shutdown_all` runs from the state `s₀`, with the modules it has shut down. -/
structure Stopping (s₀ : Lifecycle) (done : List String) (s : Lifecycle) : Prop where
  once : StartedOnce s.log
  kept : ∀ name, since name s.log ≠ [] → since name s₀.log ≠ [] ∧ name ∉ done
  names : s₀.names <+: s.names
  initialized : s.registry.initialized = s₀.registry.initialized
  raised : s.raised = s₀.raised
  log : ∃ new, s.log = s₀.log ++ new ∧ new.filterMap Event.shutDown = done

theorem Stopping.next {s₀ s : Lifecycle} {done : List String} (h : Stopping s₀ done s)
    (env : String → Await) (name : String) :
    Stopping s₀ (done ++ [name]) (s.shutdownOne env name).1 := by
  have hlog := log_shutdownOne env s name
  have hregisters : Registers (s.happened (.ranShutdown name (env name).outcome))
      (s.shutdownOne env name).1 := by
    rw [shutdownOne_fst]
    exact registers_registerAll ..
  obtain ⟨new, hnewLog, hdone⟩ := h.log
  refine ⟨?_, fun n hn => ?_, h.names.trans hregisters.names,
    hregisters.initialized.trans h.initialized, hregisters.raised.trans h.raised,
    new ++ [.ranShutdown name (env name).outcome], ?_, ?_⟩
  · rw [hlog]
    exact h.once.ranShutdown name _
  · rw [hlog] at hn
    by_cases hname : name = n
    · subst hname
      rw [since_shutdown_self] at hn
      exact absurd rfl hn
    · rw [since_shutdown_of_ne hname] at hn
      obtain ⟨hbefore, hnot⟩ := h.kept n hn
      refine ⟨hbefore, ?_⟩
      simp [hnot, Ne.symm hname]
  · rw [hlog, hnewLog, List.append_assoc]
  · simp [hdone]

/-! ## The calls -/

/-- What `initialize_all` leaves, if no module has been started: it goes through all modules, or
it raises at one of them. -/
theorem initializeAll_spec {s : Lifecycle} (hinit : s.registry.initialized = false)
    (honce : StartedOnce s.log) (hnone : ∀ name, since name s.log = []) (env : String → Await) :
    ((s.initializeAll env).2 = .ok () ∧ ∃ s', Starting s s.names s' ∧
      (s.initializeAll env).1 = { s' with registry.initialized := true }) ∨
    (∃ e, (s.initializeAll env).2 = .error e) ∧ ∃ s' done, done ≠ [] ∧ done <+: s.names ∧
      Starting s done s' ∧ (s.initializeAll env).1 = { s' with raised := true } := by
  have hnew : ∀ done name rest, s.names = done ++ name :: rest → name ∉ done := by
    intro done name rest hsplit hmem
    have hnodup : s.names.Nodup := s.registry.modules.nodup_keys
    rw [hsplit] at hnodup
    exact List.disjoint_of_nodup_append hnodup hmem List.mem_cons_self
  have hstart : Starting s [] s :=
    ⟨honce, by simp [hnone], List.prefix_refl _, rfl, rfl, [], by simp, rfl⟩
  obtain ⟨hok, herror⟩ := @Loop.forEach_inv_prefix _ _ _ _
    (Lifecycle.initializeOne env s.names.length) (Starting s)
    (fun s' => ∃ done, done ≠ [] ∧ done <+: s.names ∧ Starting s done s') s.names
    (fun done name rest s' s'' _ hsplit hI hbody => by
      have hnext := hI.next (hnew done name rest hsplit) env s.names.length
      rwa [hbody] at hnext)
    (fun done name rest s' s'' _ hsplit hI hbody => by
      have hnext := hI.next (hnew done name rest hsplit) env s.names.length
      rw [hbody] at hnext
      exact ⟨done ++ [name], by simp, ⟨rest, by simp [hsplit]⟩, hnext⟩)
    s hstart
  unfold Lifecycle.initializeAll
  rw [if_neg (by simp [hinit])]
  rcases hrun : Loop.forEach (Lifecycle.initializeOne env s.names.length) s s.names with ⟨s', e | bs⟩
  · rw [hrun] at herror
    obtain ⟨done, hne, hprefix, hstarting⟩ := herror e rfl
    exact .inr ⟨⟨e, rfl⟩, s', done, hne, hprefix, hstarting, rfl⟩
  · rw [hrun] at hok
    exact .inl ⟨rfl, s', hok bs rfl, rfl⟩

/-- What `shutdown_all` leaves, if the modules are initialized: it goes through all modules, or
it is cancelled at one of them. -/
theorem shutdownAll_spec {s : Lifecycle} (hinit : s.registry.initialized = true)
    (honce : StartedOnce s.log) (env : String → Await) :
    ((s.shutdownAll env).2 = .ok () ∧ ∃ s', Stopping s s.names.reverse s' ∧
      (s.shutdownAll env).1 = { s' with registry.initialized := false }) ∨
    (∃ e, (s.shutdownAll env).2 = .error e) ∧ ∃ done, done <+: s.names.reverse ∧
      Stopping s done (s.shutdownAll env).1 := by
  have hstart : Stopping s [] s :=
    ⟨honce, by simp, List.prefix_refl _, rfl, rfl, [], by simp, rfl⟩
  obtain ⟨hok, herror⟩ := @Loop.forEach_inv_prefix _ _ _ _
    (Lifecycle.shutdownOne env) (Stopping s)
    (fun s' => ∃ done, done <+: s.names.reverse ∧ Stopping s done s') s.names.reverse
    (fun done name rest s' s'' _ hsplit hI hbody => by
      have hnext := hI.next env name
      rwa [hbody] at hnext)
    (fun done name rest s' s'' _ hsplit hI hbody => by
      have hnext := hI.next env name
      rw [hbody] at hnext
      exact ⟨done ++ [name], ⟨rest, by simp [hsplit]⟩, hnext⟩)
    s hstart
  unfold Lifecycle.shutdownAll
  rw [if_neg (by simp [hinit])]
  rcases hrun : Loop.forEach (Lifecycle.shutdownOne env) s s.names.reverse with ⟨s', e | bs⟩
  · rw [hrun] at herror
    exact .inr ⟨⟨e, rfl⟩, herror e rfl⟩
  · rw [hrun] at hok
    exact .inl ⟨rfl, s', hok bs rfl, rfl⟩

/-! ## The invariant -/

/-- What holds between the calls, as long as no `initialize_all` follows one that raised. -/
structure Balanced (s : Lifecycle) : Prop where
  once : StartedOnce s.log
  registered : ∀ name, since name s.log ≠ [] → name ∈ s.names
  settled : s.registry.initialized = false → s.raised = false → ∀ name, since name s.log = []
  stuck : s.raised = true → s.registry.initialized = false ∧
    ∃ name rest, s.names = name :: rest ∧ since name s.log ≠ []

theorem balanced_init : Balanced .init where
  once := startedOnce_nil
  registered := fun name h => absurd rfl h
  settled := fun _ _ name => rfl
  stuck := fun h => by cases h

theorem Balanced.registers {s s' : Lifecycle} (h : Balanced s) (hs' : Registers s s') :
    Balanced s' where
  once := by
    rw [hs'.log]
    exact h.once
  registered := fun name hname => by
    rw [hs'.log] at hname
    exact hs'.names.subset (h.registered name hname)
  settled := by
    rw [hs'.log, hs'.initialized, hs'.raised]
    exact h.settled
  stuck := by
    rw [hs'.log, hs'.initialized, hs'.raised]
    intro hraised
    obtain ⟨hinit, name, rest, hnames, hsince⟩ := h.stuck hraised
    obtain ⟨new, hnew⟩ := hs'.names
    exact ⟨hinit, name, rest ++ new, by rw [← hnew, hnames, List.cons_append], hsince⟩

theorem Balanced.initializeAll {s : Lifecycle} (h : Balanced s) (hraised : s.raised = false)
    (env : String → Await) : Balanced (s.initializeAll env).1 := by
  cases hinit : s.registry.initialized with
  | true => simpa [Lifecycle.initializeAll, hinit] using h
  | false =>
    rcases initializeAll_spec hinit h.once (h.settled hinit hraised) env with
      ⟨-, s', hs', hnext⟩ | ⟨-, s', done, hne, hdone, hs', hnext⟩
    · rw [hnext]
      refine ⟨hs'.once, fun name hname => hs'.names.subset ((hs'.started name).1 hname),
        fun h => (by cases h), fun h => ?_⟩
      have hraised' : s'.raised = true := h
      simp [hs'.raised, hraised] at hraised'
    · rw [hnext]
      refine ⟨hs'.once, fun name hname => (hdone.trans hs'.names).subset ((hs'.started name).1 hname),
        fun _ h => (by cases h), fun _ => ⟨hs'.initialized.trans hinit, ?_⟩⟩
      obtain ⟨name, done, rfl⟩ := List.exists_cons_of_ne_nil hne
      obtain ⟨rest, hrest⟩ := hdone.trans hs'.names
      exact ⟨name, done ++ rest, hrest.symm, (hs'.started name).2 (List.mem_cons_self ..)⟩

theorem Balanced.shutdownAll {s : Lifecycle} (h : Balanced s) (env : String → Await) :
    Balanced (s.shutdownAll env).1 := by
  cases hinit : s.registry.initialized with
  | false => simpa [Lifecycle.shutdownAll, hinit] using h
  | true =>
    have hraised : s.raised ≠ true := fun hraised => by simp [(h.stuck hraised).1] at hinit
    rcases shutdownAll_spec hinit h.once env with ⟨-, s', hs', hnext⟩ | ⟨-, done, -, hs'⟩
    · have hnone : ∀ name, since name s'.log = [] := by
        intro name
        by_contra hname
        obtain ⟨hbefore, hnot⟩ := hs'.kept name hname
        exact hnot (List.mem_reverse.2 (h.registered name hbefore))
      rw [hnext]
      refine ⟨hs'.once, fun name hname => absurd (hnone name) hname, fun _ _ => hnone, fun h => ?_⟩
      exact absurd (hs'.raised.symm.trans h) hraised
    · refine ⟨hs'.once, fun name hname => ?_, fun h => ?_, fun h => ?_⟩
      · exact hs'.names.subset (h.registered name (hs'.kept name hname).1)
      · rw [hs'.initialized, hinit] at h
        cases h
      · exact absurd (hs'.raised.symm.trans h) hraised

/-- **The step.**  A right call keeps the balance. -/
theorem Balanced.step {s : Lifecycle} {c : Call} (h : Balanced s) (hright : RightAt s c) :
    Balanced (registryStep s c).1 := by
  cases c with
  | register module => exact h.registers (registers_register s module)
  | initializeAll env => exact h.initializeAll hright env
  | shutdownAll env => exact h.shutdownAll env

/-! ## The balance -/

/-- `initialize_all` starts the first module, whatever has happened. -/
theorem initializeAll_starts_first {s : Lifecycle} {name : String} {rest : List String}
    (hinit : s.registry.initialized = false) (hnames : s.names = name :: rest)
    (env : String → Await) :
    s.log ++ [.ranInitialize name (env name).outcome] <+: (s.initializeAll env).1.log := by
  have hfirst : s.log ++ [.ranInitialize name (env name).outcome] <+:
      (s.initializeOne env s.names.length name).1.log := by
    rw [log_initializeOne]
  have hloop : s.log ++ [.ranInitialize name (env name).outcome] <+:
      (Loop.forEach (Lifecycle.initializeOne env s.names.length) s (name :: rest)).1.log := by
    unfold Loop.forEach
    rcases hrun : s.initializeOne env s.names.length name with ⟨s', e | _⟩
    · rw [hrun] at hfirst
      exact hfirst
    · rw [hrun] at hfirst
      refine Loop.forEach_inv (I := fun s : Lifecycle => _ <+: s.log) (fun s' n _ hs' => ?_) hfirst
      rw [log_initializeOne]
      exact hs'.trans (List.prefix_append ..)
  unfold Lifecycle.initializeAll
  rw [if_neg (by simp [hinit])]
  rw [← hnames] at hloop
  rcases hrun : Loop.forEach (Lifecycle.initializeOne env s.names.length) s s.names with ⟨s', e | bs⟩
  · rwa [hrun] at hloop
  · rwa [hrun] at hloop

/-- Only right calls do what they have to. -/
theorem Balanced.rightAt {s : Lifecycle} {c : Call} (h : Balanced s) (hc : BalancedAt s c) :
    RightAt s c := by
  cases c with
  | register module => trivial
  | initializeAll env =>
    cases hraised : s.raised with
    | false => exact hraised
    | true =>
      obtain ⟨hinit, name, rest, hnames, hsince⟩ := h.stuck hraised
      have htwice := hc.once name _ (initializeAll_starts_first hinit hnames env)
      rw [since_initialize_self, List.length_append, List.length_singleton] at htwice
      have hpos := List.length_pos_of_ne_nil hsince
      omega
  | shutdownAll env =>
    intro hraised
    have hback : registryStep s (.shutdownAll env) = (s, .ok ()) := by
      simp [registryStep, Lifecycle.shutdownAll, (h.stuck hraised).1]
    have hdown := hc.down env rfl (by rw [hback])
    rwa [hback] at hdown

/-- After a `shutdown_all` that returns no module is up. -/
theorem Balanced.allDown {s : Lifecycle} (h : Balanced s) {env : String → Await}
    (hright : s.raised → AllDown s.log) (hok : (s.shutdownAll env).2 = .ok ()) :
    AllDown (s.shutdownAll env).1.log := by
  cases hinit : s.registry.initialized with
  | false =>
    have hback : s.shutdownAll env = (s, .ok ()) := by simp [Lifecycle.shutdownAll, hinit]
    rw [hback]
    cases hraised : s.raised with
    | false =>
      intro name
      simp [h.settled hinit hraised name]
    | true => exact hright hraised
  | true =>
    rcases shutdownAll_spec hinit h.once env with ⟨-, s', hs', hnext⟩ | ⟨⟨e, herror⟩, -⟩
    · rw [hnext]
      intro name hmem
      obtain ⟨hbefore, hnot⟩ := hs'.kept name (List.ne_nil_of_mem hmem)
      exact hnot (List.mem_reverse.2 (h.registered name hbefore))
    · rw [hok] at herror
      cases herror

/-- What `initialize_all` puts on record shuts no module down. -/
theorem Balanced.log_initializeAll {s : Lifecycle} (h : Balanced s) (hraised : s.raised = false)
    (env : String → Await) : ∃ new, (s.initializeAll env).1.log = s.log ++ new ∧
      new.filterMap Event.shutDown = [] := by
  cases hinit : s.registry.initialized with
  | true => exact ⟨[], by simp [Lifecycle.initializeAll, hinit], rfl⟩
  | false =>
    rcases initializeAll_spec hinit h.once (h.settled hinit hraised) env with
      ⟨-, s', hs', hnext⟩ | ⟨-, s', done, -, -, hs', hnext⟩
    · rw [hnext]
      exact hs'.log
    · rw [hnext]
      exact hs'.log

/-- What `shutdown_all` puts on record shuts modules down, the last registered first. -/
theorem Balanced.log_shutdownAll {s : Lifecycle} (h : Balanced s) (env : String → Await) :
    ∃ new, (s.shutdownAll env).1.log = s.log ++ new ∧
      new.filterMap Event.shutDown <+: s.names.reverse := by
  cases hinit : s.registry.initialized with
  | false => exact ⟨[], by simp [Lifecycle.shutdownAll, hinit], List.nil_prefix⟩
  | true =>
    rcases shutdownAll_spec hinit h.once env with ⟨-, s', hs', hnext⟩ | ⟨-, done, hdone, hs'⟩
    · obtain ⟨new, hnew, hall⟩ := hs'.log
      rw [hnext]
      exact ⟨new, hnew, hall ▸ List.prefix_refl _⟩
    · obtain ⟨new, hnew, hall⟩ := hs'.log
      exact ⟨new, hnew, hall ▸ hdone⟩

/-- Between the calls of a balanced run, exactly the right calls do what they have to. -/
theorem Balanced.balancedAt_iff {s : Lifecycle} (h : Balanced s) (c : Call) :
    BalancedAt s c ↔ RightAt s c := by
  refine ⟨h.rightAt, fun hright => ⟨(h.step hright).once, ?_, ?_⟩⟩
  · rintro env rfl hok
    exact h.allDown hright hok
  · cases c with
    | register module =>
      refine ⟨[], ?_, List.nil_prefix⟩
      rw [List.append_nil]
      exact (registers_register s module).log
    | initializeAll env =>
      obtain ⟨new, hnew, hnone⟩ := h.log_initializeAll hright env
      exact ⟨new, hnew, hnone ▸ List.nil_prefix⟩
    | shutdownAll env => exact h.log_shutdownAll env

/-- **The lifecycle of the modules is balanced** in exactly the runs in which no
`initialize_all` follows one that raised, and no `shutdown_all` either while a module is up:
no module is initialized twice without a shutdown in between, after a `shutdown_all` no
module is up, and the modules are shut down in the reverse order of their registration. -/
theorem lifecycle_balanced_iff (calls : List Call) :
    Machine.Always registryStep BalancedAt .init calls ↔
      Machine.Always registryStep RightAt .init calls :=
  Machine.always_iff_of_inv (fun _ _ h hright => h.step hright) (fun _ c h => h.balancedAt_iff c)
    balanced_init

/-! ## A module that raises -/

/-- Two modules, the second of which raises. -/
def failingSecond (name : String) : Await :=
  ⟨[], if name = "cache" then .raised "connection refused" else .ok⟩

/-- The modules are registered and initialized, and the registry is shut down. -/
def sampleCalls : List Call :=
  [.register ⟨"db", "1.0"⟩, .register ⟨"cache", "1.0"⟩, .initializeAll failingSecond,
    .shutdownAll fun _ => ⟨[], .ok⟩]

/-- **The first module stays up**: its `shutdown` is never called, since `initialize_all` raised
at the second. -/
theorem lifecycle_unbalanced : ¬Machine.Always registryStep BalancedAt .init sampleCalls := by
  rw [Machine.always_iff_of_inv (fun _ _ h hright => Balanced.step h hright)
    (fun _ c h => Balanced.balancedAt_iff h c) balanced_init]
  rintro ⟨-, -, -, hright, -⟩
  exact hright rfl "db" (by decide)

end ScamOn.Registry
