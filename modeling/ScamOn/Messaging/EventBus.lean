import Mathlib.Data.List.Nodup
import ScamOn.Lib.Dict
import ScamOn.Lib.Interleaving
import ScamOn.Lib.Machine

/-!
# The event bus

`publish` finds the handlers that are registered for the class of an event or for one
of its ancestors, and calls all of them at once.  Around that the middlewares run their
hooks: one before, one after, and one for each handler that raises.  Any handler, hook
or dead-letter callback may raise.

* `Attempt` is what a piece of code did and the exception that came out of it;
  `Attempt.caught` is `try … except Exception`.
* `invokeHandler` and `dispatch` follow the source; `Gathered` says in which orders the
  handlers called by `asyncio.gather` may run.
* `Registered` says of a history of calls whether a handler is registered, and
  `handlersOf_subscribe` and `handlersOf_unsubscribe` that the bus agrees.
* `publish_delivers` is delivery, isolation and accounting.
-/

namespace ScamOn.Messaging

variable {κ η ε ι : Type*}

/-! ## What happens during a publication -/

/-- One call of a handler, by its place among the calls. -/
structure Invocation (η : Type*) where
  number : ℕ
  handler : η

/-- When a hook runs. -/
inductive Stage (η : Type*)
  | beforeDispatch
  | afterDispatch
  | onError (i : Invocation η)

/-- `EventMiddleware`: the three of the bus, and those added to it. -/
inductive EventMiddleware (ι : Type*)
  | logging
  | metrics
  | errorHandling
  | custom (m : ι)

inductive Occurrence (η ε ι : Type*)
  /-- The handler is called. -/
  | invoked (i : Invocation η)
  /-- It raises. -/
  | failed (i : Invocation η) (error : ε)
  /-- `MetricsMiddleware` counts. -/
  | published
  | dispatched
  | errorCounted
  /-- The dead-letter callback is called. -/
  | deadLettered (i : Invocation η) (subscriberName : String) (error : ε)
  /-- A hook of an added middleware is called. -/
  | hook (m : ι) (stage : Stage η)

/-- The exceptions of the code that is not the bus's, and the names of its handlers. -/
structure Outside (η ε ι : Type*) where
  handlerRaises : Invocation η → Option ε
  callbackRaises : Invocation η → Option ε
  loggingRaises : Stage η → Option ε
  hookRaises : ι → Stage η → Option ε
  subscriberName : η → String

/-- What a piece of code did, and the exception that came out of it. -/
abbrev Attempt (η ε ι : Type*) := List (Occurrence η ε ι) × Option ε

namespace Attempt

/-- The second part runs if the first has not raised. -/
def andThen (a b : Attempt η ε ι) : Attempt η ε ι :=
  match a.2 with
  | some _ => a
  | none => (a.1 ++ b.1, b.2)

/-- `try` with an `except Exception` that logs. -/
def caught (a : Attempt η ε ι) : Attempt η ε ι := (a.1, none)

/-- A `for` loop. -/
def forEach {α : Type*} (body : α → Attempt η ε ι) : List α → Attempt η ε ι
  | [] => ([], none)
  | x :: xs => (body x).andThen (forEach body xs)

/-- A loop whose body catches everything runs to its end. -/
theorem forEach_caught {α : Type*} (body : α → Attempt η ε ι) (xs : List α) :
    forEach (fun x => (body x).caught) xs = (xs.flatMap fun x => (body x).1, none) := by
  induction xs with
  | nil => rfl
  | cons x xs ih =>
    rw [forEach, ih]
    rfl

end Attempt

/-! ## The hooks -/

/-- `before_dispatch`. -/
def EventMiddleware.beforeDispatch (out : Outside η ε ι) : EventMiddleware ι → Attempt η ε ι
  | .logging => ([], out.loggingRaises .beforeDispatch)
  | .metrics => ([.published], none)
  | .errorHandling => ([], none)
  | .custom m => ([.hook m .beforeDispatch], out.hookRaises m .beforeDispatch)

/-- `after_dispatch`. -/
def EventMiddleware.afterDispatch (out : Outside η ε ι) : EventMiddleware ι → Attempt η ε ι
  | .logging => ([], out.loggingRaises .afterDispatch)
  | .metrics => ([.dispatched], none)
  | .errorHandling => ([], none)
  | .custom m => ([.hook m .afterDispatch], out.hookRaises m .afterDispatch)

/-- `on_error`; `callback` says whether there is a dead-letter callback. -/
def EventMiddleware.onError (out : Outside η ε ι) (callback : Bool) (i : Invocation η)
    (subscriberName : String) (error : ε) : EventMiddleware ι → Attempt η ε ι
  | .logging => ([], out.loggingRaises (.onError i))
  | .metrics => ([.errorCounted], none)
  | .errorHandling =>
    if callback then
      Attempt.caught ([.deadLettered i subscriberName error], out.callbackRaises i)
    else ([], none)
  | .custom m => ([.hook m (.onError i)], out.hookRaises m (.onError i))

/-! ## The dispatcher -/

/-- The calls that are made for a list of handlers. -/
def invocations (handlers : List η) : List (Invocation η) :=
  handlers.zipIdx.map fun p => ⟨p.2, p.1⟩

/-- `_invoke_handler`. -/
def invokeHandler (out : Outside η ε ι) (callback : Bool) (middlewares : List (EventMiddleware ι))
    (i : Invocation η) : Attempt η ε ι :=
  let subscriberName := out.subscriberName i.handler
  match out.handlerRaises i with
  | none => ([.invoked i], none)
  | some error =>
    Attempt.andThen ([.invoked i, .failed i error], none)
      (Attempt.forEach (fun mw => (mw.onError out callback i subscriberName error).caught) middlewares)

/-- What `asyncio.gather` may do: each call goes on whenever it is its turn. -/
def Gathered (out : Outside η ε ι) (callback : Bool) (middlewares : List (EventMiddleware ι))
    (handlers : List η) (gathered : List (Occurrence η ε ι)) : Prop :=
  Interleaves ((invocations handlers).map fun i => (invokeHandler out callback middlewares i).1) gathered

/-- `EventDispatcher.dispatch`; `return_exceptions=True` lets no exception out of the gathering. -/
def dispatch (out : Outside η ε ι) (middlewares : List (EventMiddleware ι)) (handlers : List η)
    (gathered : List (Occurrence η ε ι)) : Attempt η ε ι :=
  if handlers.isEmpty then ([], none)
  else
    ((Attempt.forEach (fun mw => (mw.beforeDispatch out).caught) middlewares).andThen
      (gathered, none)).andThen
      (Attempt.forEach (fun mw => (mw.afterDispatch out).caught) middlewares)

/-! ## The bus -/

/-- The counts of `MetricsMiddleware`. -/
structure MetricsMiddleware where
  publishedCount : ℕ
  dispatchedCount : ℕ
  errorCount : ℕ

def MetricsMiddleware.record (m : MetricsMiddleware) : Occurrence η ε ι → MetricsMiddleware
  | .published => { m with publishedCount := m.publishedCount + 1 }
  | .dispatched => { m with dispatchedCount := m.dispatchedCount + 1 }
  | .errorCounted => { m with errorCount := m.errorCount + 1 }
  | _ => m

/-- `InMemoryEventBus`. -/
structure InMemoryEventBus (κ η ι : Type*) where
  subscriptions : Dict κ (List η)
  middlewares : List (EventMiddleware ι)
  metrics : MetricsMiddleware
  deadLetterCallback : Bool

namespace InMemoryEventBus

/-- `InMemoryEventBus.__init__`. -/
def init (deadLetterCallback : Bool) : InMemoryEventBus κ η ι where
  subscriptions := ∅
  middlewares := [.logging, .metrics, .errorHandling]
  metrics := ⟨0, 0, 0⟩
  deadLetterCallback := deadLetterCallback

/-- `add_middleware`. -/
def addMiddleware (b : InMemoryEventBus κ η ι) (m : ι) : InMemoryEventBus κ η ι :=
  { b with middlewares := b.middlewares ++ [.custom m] }

/-- `get_handlers_for`. -/
def getHandlersFor (issubclass : κ → κ → Bool) (b : InMemoryEventBus κ η ι) (eventType : κ) : List η :=
  b.subscriptions.entries.flatMap fun p => if issubclass eventType p.1 then p.2 else []

variable [DecidableEq κ] [DecidableEq η]

/-- `subscribe`. -/
def subscribe (b : InMemoryEventBus κ η ι) (eventType : κ) (handler : η) : InMemoryEventBus κ η ι :=
  let handlers := (b.subscriptions.get? eventType).getD []
  { b with
    subscriptions := b.subscriptions.set eventType
      (if handler ∈ handlers then handlers else handlers ++ [handler]) }

/-- `unsubscribe`. -/
def unsubscribe (b : InMemoryEventBus κ η ι) (eventType : κ) (handler : η) : InMemoryEventBus κ η ι :=
  match b.subscriptions.get? eventType with
  | none => b
  | some handlers =>
    if handler ∈ handlers then
      { b with subscriptions := b.subscriptions.set eventType (handlers.erase handler) }
    else b

omit [DecidableEq κ] [DecidableEq η] in
/-- `publish` of an event of a class; the handlers run as in `gathered`. -/
def publish (issubclass : κ → κ → Bool) (b : InMemoryEventBus κ η ι) (eventClass : κ)
    (out : Outside η ε ι) (gathered : List (Occurrence η ε ι)) :
    InMemoryEventBus κ η ι × Attempt η ε ι :=
  let attempt := dispatch out b.middlewares (b.getHandlersFor issubclass eventClass) gathered
  ({ b with metrics := attempt.1.foldl MetricsMiddleware.record b.metrics }, attempt)

end InMemoryEventBus

/-! ## What the record of a publication says -/

namespace Occurrence

@[simp] def invoked? : Occurrence η ε ι → Option (Invocation η)
  | .invoked i => some i
  | _ => none

@[simp] def failed? : Occurrence η ε ι → Option (Invocation η × ε)
  | .failed i error => some (i, error)
  | _ => none

/-- What the dead-letter callback is called with. -/
@[simp] def deadLettered? : Occurrence η ε ι → Option (Invocation η × String × ε)
  | .deadLettered i subscriberName error => some (i, subscriberName, error)
  | _ => none

@[simp] def errorCounted? : Occurrence η ε ι → Option Unit
  | .errorCounted => some ()
  | _ => none

end Occurrence

/-- The metrics count one error for each time that they are told of one. -/
theorem errorCount_foldl (m : MetricsMiddleware) (t : List (Occurrence η ε ι)) :
    (t.foldl MetricsMiddleware.record m).errorCount =
      m.errorCount + (t.filterMap Occurrence.errorCounted?).length := by
  induction t generalizing m with
  | nil => rfl
  | cons o t ih =>
    rw [List.foldl_cons, ih]
    cases o with
    | errorCounted =>
      simp only [MetricsMiddleware.record, List.filterMap_cons, Occurrence.errorCounted?,
        List.length_cons]
      omega
    | _ => rfl

section Publication

variable (out : Outside η ε ι) (callback : Bool) (ms : List ι)

/-- The middlewares of a bus to which some were added. -/
def withAdded (ms : List ι) : List (EventMiddleware ι) :=
  [.logging, .metrics, .errorHandling] ++ ms.map .custom

/-- **One call of a handler**: if it raises, the error is counted once, and the callback is called
once, whatever else the hooks do. -/
theorem invokeHandler_withAdded (i : Invocation η) :
    (invokeHandler out callback (withAdded ms) i).1 =
      .invoked i :: match out.handlerRaises i with
        | none => []
        | some error =>
          .failed i error :: .errorCounted ::
            ((if callback then [.deadLettered i (out.subscriberName i.handler) error] else []) ++
              ms.map fun m => .hook m (.onError i)) := by
  unfold invokeHandler
  cases hraises : out.handlerRaises i with
  | none => rfl
  | some error =>
    have hadded : ((ms.map EventMiddleware.custom).flatMap fun mw =>
        (mw.onError out callback i (out.subscriberName i.handler) error).1) =
        ms.map fun m => .hook m (.onError i) := by
      rw [List.flatMap_map]
      exact (List.map_eq_flatMap ..).symm
    simp only [Attempt.forEach_caught, Attempt.andThen, withAdded, List.flatMap_append, hadded]
    cases callback <;> rfl

/-- The hooks around the calls tell nothing of invocations, failures, errors or dead letters. -/
theorem filterMap_dispatch {γ : Type*} (sel : Occurrence η ε ι → Option γ)
    (hpublished : sel .published = none) (hdispatched : sel .dispatched = none)
    (hhook : ∀ m stage, sel (.hook m stage) = none) {handlers : List η}
    {gathered : List (Occurrence η ε ι)}
    (h : Gathered out callback (withAdded ms) handlers gathered) :
    ((dispatch out (withAdded ms) handlers gathered).1.filterMap sel).Perm
        ((invocations handlers).flatMap fun i =>
          (invokeHandler out callback (withAdded ms) i).1.filterMap sel) ∧
      (dispatch out (withAdded ms) handlers gathered).2 = none := by
  have hbefore : ((withAdded ms).flatMap fun mw => (mw.beforeDispatch out).1).filterMap sel = [] := by
    rw [List.filterMap_eq_nil_iff]
    intro o ho
    obtain ⟨mw, -, hmw⟩ := List.mem_flatMap.1 ho
    cases mw <;> simp [EventMiddleware.beforeDispatch] at hmw <;> simp [hmw, hpublished, hhook]
  have hafter : ((withAdded ms).flatMap fun mw => (mw.afterDispatch out).1).filterMap sel = [] := by
    rw [List.filterMap_eq_nil_iff]
    intro o ho
    obtain ⟨mw, -, hmw⟩ := List.mem_flatMap.1 ho
    cases mw <;> simp [EventMiddleware.afterDispatch] at hmw <;> simp [hmw, hdispatched, hhook]
  unfold dispatch
  split_ifs with hempty
  · have hnone : handlers = [] := List.isEmpty_iff.1 hempty
    subst hnone
    exact ⟨List.Perm.refl [], rfl⟩
  · simp only [Attempt.forEach_caught, Attempt.andThen, List.filterMap_append, hbefore, hafter,
      List.nil_append, List.append_nil]
    refine ⟨?_, trivial⟩
    have hperm := h.perm.filterMap sel
    rw [List.filterMap_flatten, List.map_map] at hperm
    exact hperm

omit callback out in
theorem filterMap_hooks {γ : Type*} (sel : Occurrence η ε ι → Option γ)
    (hhook : ∀ m stage, sel (.hook m stage) = none) (stage : Stage η) :
    (ms.map fun m => Occurrence.hook m stage).filterMap sel = [] := by
  rw [List.filterMap_eq_nil_iff]
  intro o ho
  obtain ⟨m, -, rfl⟩ := List.mem_map.1 ho
  exact hhook m stage

/-- What one call tells, to each of the readings of the record. -/
theorem filterMap_invokeHandler (i : Invocation η) :
    (invokeHandler out callback (withAdded ms) i).1.filterMap Occurrence.invoked? = [i] ∧
    (invokeHandler out callback (withAdded ms) i).1.filterMap Occurrence.failed? =
      ((out.handlerRaises i).map fun error => (i, error)).toList ∧
    (invokeHandler out callback (withAdded ms) i).1.filterMap Occurrence.deadLettered? =
      (if callback then
        ((out.handlerRaises i).map fun error => (i, out.subscriberName i.handler, error)).toList
      else []) ∧
    (invokeHandler out callback (withAdded ms) i).1.filterMap Occurrence.errorCounted? =
      ((out.handlerRaises i).map fun _ => ()).toList := by
  rw [invokeHandler_withAdded]
  cases hraises : out.handlerRaises i with
  | none => cases callback <;> exact ⟨rfl, rfl, rfl, rfl⟩
  | some error =>
    simp only [List.filterMap_cons, List.filterMap_append, Occurrence.invoked?, Occurrence.failed?,
      Occurrence.deadLettered?, Occurrence.errorCounted?,
      filterMap_hooks ms Occurrence.invoked? fun _ _ => rfl,
      filterMap_hooks ms Occurrence.failed? fun _ _ => rfl,
      filterMap_hooks ms Occurrence.deadLettered? fun _ _ => rfl,
      filterMap_hooks ms Occurrence.errorCounted? fun _ _ => rfl]
    cases callback <;> exact ⟨rfl, rfl, rfl, rfl⟩

/-- **One publication**: every handler is called once, every call that raises is counted once and
dead-lettered once, and nothing is raised. -/
theorem dispatch_withAdded {handlers : List η} {gathered : List (Occurrence η ε ι)}
    (h : Gathered out callback (withAdded ms) handlers gathered) :
    let happened := (dispatch out (withAdded ms) handlers gathered).1
    (happened.filterMap Occurrence.invoked?).Perm (invocations handlers) ∧
    (happened.filterMap Occurrence.failed?).Perm
      ((invocations handlers).filterMap fun i => (out.handlerRaises i).map fun error => (i, error)) ∧
    (happened.filterMap Occurrence.deadLettered?).Perm (if callback then
      (happened.filterMap Occurrence.failed?).map fun f => (f.1, out.subscriberName f.1.handler, f.2)
      else []) ∧
    (happened.filterMap Occurrence.errorCounted?).length =
      (happened.filterMap Occurrence.failed?).length ∧
    (dispatch out (withAdded ms) handlers gathered).2 = none := by
  intro happened
  have hinvoked := (filterMap_dispatch out callback ms Occurrence.invoked? rfl rfl
    (fun _ _ => rfl) h).1
  have hfailed := (filterMap_dispatch out callback ms Occurrence.failed? rfl rfl
    (fun _ _ => rfl) h).1
  have hdead := (filterMap_dispatch out callback ms Occurrence.deadLettered? rfl rfl
    (fun _ _ => rfl) h).1
  obtain ⟨hcounted, hraised⟩ := filterMap_dispatch out callback ms Occurrence.errorCounted?
    rfl rfl (fun _ _ => rfl) h
  simp only [filterMap_invokeHandler, ← List.filterMap_eq_flatMap_toList] at hinvoked hfailed hcounted
  have hlength : (happened.filterMap Occurrence.errorCounted?).length =
      (happened.filterMap Occurrence.failed?).length := by
    rw [hcounted.length_eq, hfailed.length_eq]
    simp only [List.length_filterMap_eq_countP, Option.isSome_map]
  refine ⟨?_, hfailed, ?_, hlength, hraised⟩
  · exact hinvoked.trans (by rw [List.flatMap_singleton'])
  · simp only [filterMap_invokeHandler] at hdead
    cases callback with
    | false => exact hdead.trans (by simp)
    | true =>
      simp only [if_true, ← List.filterMap_eq_flatMap_toList] at hdead ⊢
      refine hdead.trans ((hfailed.map _).trans ?_).symm
      rw [List.map_filterMap]
      simp only [Option.map_map, Function.comp_def]
      exact List.Perm.refl _

end Publication

/-! ## Histories -/

/-- A call of the bus; `gathered` is how the handlers ran. -/
inductive Call (κ η ε ι : Type*)
  | subscribe (eventType : κ) (handler : η)
  | unsubscribe (eventType : κ) (handler : η)
  | addMiddleware (m : ι)
  | publish (eventClass : κ) (out : Outside η ε ι) (gathered : List (Occurrence η ε ι))

variable [DecidableEq κ] [DecidableEq η]

/-- One call, and the exception that it raises. -/
def busStep (issubclass : κ → κ → Bool) (b : InMemoryEventBus κ η ι) :
    Call κ η ε ι → InMemoryEventBus κ η ι × Option ε
  | .subscribe eventType handler => (b.subscribe eventType handler, none)
  | .unsubscribe eventType handler => (b.unsubscribe eventType handler, none)
  | .addMiddleware m => (b.addMiddleware m, none)
  | .publish eventClass out gathered =>
    let r := b.publish issubclass eventClass out gathered
    (r.1, r.2.2)

/-- What a call says of a registration. -/
def Call.registers (eventType : κ) (handler : η) (registered : Bool) : Call κ η ε ι → Bool
  | .subscribe eventType' handler' => registered || decide (eventType' = eventType ∧ handler' = handler)
  | .unsubscribe eventType' handler' =>
    registered && !decide (eventType' = eventType ∧ handler' = handler)
  | _ => registered

/-- The handler is registered for the type: the last call about the two subscribed it. -/
def Registered (calls : List (Call κ η ε ι)) (eventType : κ) (handler : η) : Prop :=
  calls.foldl (Call.registers eventType handler) false = true

/-- The handlers that the bus has for a type itself. -/
def InMemoryEventBus.handlersOf (b : InMemoryEventBus κ η ι) (eventType : κ) : List η :=
  (b.subscriptions.get? eventType).getD []

/-- What holds of a bus between the calls. -/
structure BusInv (callback : Bool) (registered : κ → η → Bool) (b : InMemoryEventBus κ η ι) : Prop where
  callback_eq : b.deadLetterCallback = callback
  middlewares_eq : ∃ ms, b.middlewares = withAdded ms
  nodup : ∀ eventType, (b.handlersOf eventType).Nodup
  mem_iff : ∀ eventType handler, handler ∈ b.handlersOf eventType ↔ registered eventType handler = true

theorem handlersOf_subscribe (b : InMemoryEventBus κ η ι) (eventType k : κ) (handler : η) :
    (b.subscribe eventType handler).handlersOf k =
      if k = eventType ∧ handler ∉ b.handlersOf k then b.handlersOf k ++ [handler]
      else b.handlersOf k := by
  unfold InMemoryEventBus.handlersOf InMemoryEventBus.subscribe
  simp only [Dict.get?_set]
  by_cases hk : k = eventType
  · subst hk
    by_cases hmem : handler ∈ (b.subscriptions.get? k).getD []
    · simp [hmem]
    · simp [hmem]
  · simp [hk]

theorem handlersOf_unsubscribe (b : InMemoryEventBus κ η ι) (eventType k : κ) (handler : η) :
    (b.unsubscribe eventType handler).handlersOf k =
      if k = eventType then (b.handlersOf k).erase handler else b.handlersOf k := by
  unfold InMemoryEventBus.unsubscribe
  cases hget : b.subscriptions.get? eventType with
  | none =>
    by_cases hk : k = eventType
    · subst hk
      simp [InMemoryEventBus.handlersOf, hget]
    · simp [hk]
  | some handlers =>
    by_cases hmem : handler ∈ handlers
    · by_cases hk : k = eventType
      · subst hk
        simp [InMemoryEventBus.handlersOf, hget, hmem]
      · simp [InMemoryEventBus.handlersOf, hmem, Dict.get?_set, hk]
    · by_cases hk : k = eventType
      · subst hk
        simp [InMemoryEventBus.handlersOf, hget, hmem, List.erase_of_not_mem]
      · simp [hmem, hk]

omit [DecidableEq η] in
theorem busInv_init (callback : Bool) :
    BusInv callback (fun _ _ => false) (.init callback : InMemoryEventBus κ η ι) where
  callback_eq := rfl
  middlewares_eq := ⟨[], rfl⟩
  nodup _ := List.nodup_nil
  mem_iff _ _ := by simp [InMemoryEventBus.handlersOf, InMemoryEventBus.init]

/-- Every call keeps the registrations as the history has them. -/
theorem BusInv.step {callback : Bool} {registered : κ → η → Bool} {b : InMemoryEventBus κ η ι}
    (h : BusInv callback registered b) (issubclass : κ → κ → Bool) (c : Call κ η ε ι) :
    BusInv callback (fun k x => c.registers k x (registered k x)) (busStep issubclass b c).1 := by
  obtain ⟨hcallback, ⟨ms, hms⟩, hnodup, hmem⟩ := h
  cases c with
  | subscribe eventType handler =>
    refine ⟨hcallback, ⟨ms, hms⟩, fun k => ?_, fun k x => ?_⟩
    · show ((b.subscribe eventType handler).handlersOf k).Nodup
      rw [handlersOf_subscribe]
      split_ifs with hnew
      · exact (hnodup k).append (List.nodup_singleton _) (by simpa using hnew.2)
      · exact hnodup k
    · show x ∈ (b.subscribe eventType handler).handlersOf k ↔ _
      rw [handlersOf_subscribe]
      have hold := hmem k x
      by_cases hk : k = eventType
      · subst hk
        by_cases hnew : handler ∈ b.handlersOf k
        · by_cases hx : handler = x
          · subst hx
            simp [hnew, Call.registers]
          · simp [hnew, Call.registers, hx, hold]
        · simp [hnew, Call.registers, hold, @eq_comm _ x handler]
      · have hk' : ¬eventType = k := fun heq => hk heq.symm
        simp [hk, hk', Call.registers, hold]
  | unsubscribe eventType handler =>
    refine ⟨?_, ⟨ms, ?_⟩, fun k => ?_, fun k x => ?_⟩
    · show (b.unsubscribe eventType handler).deadLetterCallback = callback
      unfold InMemoryEventBus.unsubscribe
      split <;> [skip; split_ifs] <;> exact hcallback
    · show (b.unsubscribe eventType handler).middlewares = _
      unfold InMemoryEventBus.unsubscribe
      split <;> [skip; split_ifs] <;> exact hms
    · show ((b.unsubscribe eventType handler).handlersOf k).Nodup
      rw [handlersOf_unsubscribe]
      split_ifs
      · exact (hnodup k).erase handler
      · exact hnodup k
    · show x ∈ (b.unsubscribe eventType handler).handlersOf k ↔ _
      rw [handlersOf_unsubscribe]
      have hold := hmem k x
      by_cases hk : k = eventType
      · subst hk
        rw [if_pos rfl, (hnodup k).mem_erase_iff, hold]
        simp [Call.registers, and_comm, @eq_comm _ x handler]
      · have hk' : ¬eventType = k := fun heq => hk heq.symm
        simp [hk, hk', Call.registers, hold]
  | addMiddleware m =>
    refine ⟨hcallback, ⟨ms ++ [m], ?_⟩, hnodup, hmem⟩
    show b.middlewares ++ [.custom m] = _
    rw [hms]
    simp [withAdded]
  | publish eventClass out gathered => exact ⟨hcallback, ⟨ms, hms⟩, hnodup, hmem⟩

theorem BusInv.run {callback : Bool} {registered : κ → η → Bool} {b : InMemoryEventBus κ η ι}
    (h : BusInv callback registered b) (issubclass : κ → κ → Bool) (calls : List (Call κ η ε ι)) :
    BusInv callback (fun k x => calls.foldl (Call.registers k x) (registered k x))
      (Machine.run (busStep issubclass) b calls) := by
  induction calls generalizing b registered with
  | nil => exact h
  | cons c calls ih => exact ih (h.step issubclass c)

/-! ## Delivery -/

/-- The registrations that an event of the class is delivered to. -/
def matching (issubclass : κ → κ → Bool) (b : InMemoryEventBus κ η ι) (eventClass : κ) : List (κ × η) :=
  b.subscriptions.entries.flatMap fun p =>
    if issubclass eventClass p.1 then p.2.map (p.1, ·) else []

omit [DecidableEq κ] [DecidableEq η] in
theorem map_snd_matching (issubclass : κ → κ → Bool) (b : InMemoryEventBus κ η ι) (eventClass : κ) :
    (matching issubclass b eventClass).map Prod.snd = b.getHandlersFor issubclass eventClass := by
  unfold matching InMemoryEventBus.getHandlersFor
  rw [List.map_flatMap]
  congr 1
  funext p
  split_ifs
  · rw [List.map_map]
    exact List.map_id _
  · rfl

omit [DecidableEq η] in
theorem mem_matching (issubclass : κ → κ → Bool) (b : InMemoryEventBus κ η ι) (eventClass k : κ)
    (handler : η) :
    (k, handler) ∈ matching issubclass b eventClass ↔
      handler ∈ b.handlersOf k ∧ issubclass eventClass k = true := by
  unfold matching InMemoryEventBus.handlersOf
  rw [List.mem_flatMap]
  constructor
  · rintro ⟨⟨k', handlers⟩, hentry, hmem⟩
    split_ifs at hmem with hsub
    · obtain ⟨x, hx, heq⟩ := List.mem_map.1 hmem
      cases heq
      rw [Dict.mem_entries_iff.1 hentry]
      exact ⟨hx, hsub⟩
    · cases hmem
  · rintro ⟨hmem, hsub⟩
    cases hget : b.subscriptions.get? k with
    | none =>
      rw [hget] at hmem
      cases hmem
    | some handlers =>
      rw [hget] at hmem
      refine ⟨(k, handlers), Dict.mem_entries_iff.2 hget, ?_⟩
      rw [if_pos hsub]
      exact List.mem_map_of_mem hmem

omit [DecidableEq η] in
theorem nodup_matching {b : InMemoryEventBus κ η ι} (h : ∀ k, (b.handlersOf k).Nodup)
    (issubclass : κ → κ → Bool) (eventClass : κ) : (matching issubclass b eventClass).Nodup := by
  unfold matching
  rw [List.nodup_flatMap]
  constructor
  · rintro ⟨k, handlers⟩ hentry
    have hnodup := h k
    unfold InMemoryEventBus.handlersOf at hnodup
    rw [Dict.mem_entries_iff.1 hentry] at hnodup
    split_ifs
    · exact hnodup.map fun x y heq => (Prod.mk.inj heq).2
    · exact List.nodup_nil
  · have hkeys : b.subscriptions.entries.Pairwise fun p q => p.1 ≠ q.1 :=
      List.pairwise_map.1 b.subscriptions.nodup
    refine hkeys.imp fun {p q} hne => ?_
    intro r hp hq
    dsimp only at hp hq
    split_ifs at hp hq
    · obtain ⟨x, -, rfl⟩ := List.mem_map.1 hp
      obtain ⟨y, -, heq⟩ := List.mem_map.1 hq
      exact hne (congrArg Prod.fst heq).symm
    all_goals first | cases hp | cases hq

omit [DecidableEq κ] [DecidableEq η] in
theorem map_handler_invocations (handlers : List η) :
    (invocations handlers).map Invocation.handler = handlers := by
  unfold invocations
  rw [List.map_map]
  exact List.zipIdx_map_fst 0 handlers

/-- **Delivery, isolation and accounting.**  After any history of calls, an event can be published,
and whatever raises and however the handlers run: nothing is raised; each registration for the
class or an ancestor has its handler called once, and nothing else is called; the callback is
called once for each call that raised, with its error; and the metrics count these. -/
theorem publish_delivers (issubclass : κ → κ → Bool) (callback : Bool)
    (calls : List (Call κ η ε ι)) (eventClass : κ) (out : Outside η ε ι) :
    let b := Machine.run (busStep issubclass) (.init callback) calls
    let handlers := b.getHandlersFor issubclass eventClass
    (∃ gathered, Gathered out b.deadLetterCallback b.middlewares handlers gathered) ∧
    ∀ gathered, Gathered out b.deadLetterCallback b.middlewares handlers gathered →
      let r := b.publish issubclass eventClass out gathered
      let invoked := r.2.1.filterMap Occurrence.invoked?
      let failures := r.2.1.filterMap Occurrence.failed?
      r.2.2 = none ∧
      (∃ registrations : List (κ × η), registrations.Nodup ∧
        (∀ k x, (k, x) ∈ registrations ↔ Registered calls k x ∧ issubclass eventClass k = true) ∧
        (invoked.map Invocation.handler).Perm (registrations.map Prod.snd)) ∧
      failures.Perm (invoked.filterMap fun i => (out.handlerRaises i).map fun error => (i, error)) ∧
      (r.2.1.filterMap Occurrence.deadLettered?).Perm (if callback then
        failures.map fun f => (f.1, out.subscriberName f.1.handler, f.2) else []) ∧
      r.1.metrics.errorCount = b.metrics.errorCount + failures.length := by
  intro b handlers
  refine ⟨⟨_, interleaves_flatten _⟩, fun gathered h => ?_⟩
  obtain ⟨hcallback, ⟨ms, hms⟩, hnodup, hmem⟩ : BusInv callback _ b :=
    (busInv_init callback).run issubclass calls
  rw [hcallback, hms] at h
  obtain ⟨hinvoked, hfailed, hdead, hcounted, hraised⟩ := dispatch_withAdded out callback ms h
  intro r invoked failures
  have hattempt : r.2 = dispatch out (withAdded ms) handlers gathered := by rw [← hms]; rfl
  rw [← hattempt] at hinvoked hfailed hdead hcounted hraised
  refine ⟨hraised, ⟨matching issubclass b eventClass, nodup_matching hnodup issubclass eventClass,
    fun k x => ?_, ?_⟩, ?_, hdead, ?_⟩
  · rw [mem_matching, hmem k x]
    exact Iff.rfl
  · rw [map_snd_matching]
    exact (hinvoked.map _).trans (by rw [map_handler_invocations])
  · exact hfailed.trans (hinvoked.symm.filterMap _)
  · show (r.2.1.foldl MetricsMiddleware.record b.metrics).errorCount = _
    rw [errorCount_foldl, hcounted]

end ScamOn.Messaging
