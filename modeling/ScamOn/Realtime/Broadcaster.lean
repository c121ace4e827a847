import Mathlib.Data.List.Infix
import ScamOn.Lib.BoundedQueue
import ScamOn.Lib.Machine

/-!
# Clients of the event broadcaster

A `WebSocketClient` has a bounded queue of events.  `enqueue_event` puts an event
on it, and drops the oldest one if the queue is full; a sender task takes events
off it and transmits them.  A transmission may be awaited for any time, fail, or
be cancelled, and `close` may come at any moment.

* `enqueueEvent`, `startSender`, `senderMove`, `close` and `closed` are the
  segments of the source between two awaits; `clientStep` is one of them.
* `Event` is what a segment does to a message, and a run's events are on record
  in `Session.log`.
* `Accounts` is the invariant: what was accepted is what was removed from the
  queue and what is queued, in this order, and what was removed was dropped,
  sent, or is the one message of the sender that was not counted as sent.
* `queue_accounted` is the balance of the counters, in every run.
-/

namespace ScamOn.Realtime

variable {μ : Type*}

/-! ## The client -/

/-- `ClientConnectionState`: the counters and the status. -/
structure ClientConnectionState where
  queuedEvents : ℕ
  droppedEvents : ℕ
  totalSent : ℕ
  status : String

/-- Where the sender task stands: none was created, at the head of the loop, in `queue.get()`,
transmitting a message, or done. -/
inductive Sender (μ : Type*)
  | absent
  | looping
  | waiting
  | sending (message : μ)
  | done

/-- `WebSocketClient`; `closing` says that a `close` is waiting for the sender task. -/
structure WebSocketClient (μ : Type*) where
  state : ClientConnectionState
  queue : BoundedQueue μ
  senderTask : Sender μ
  isActive : Bool
  closing : Bool

/-- What becomes of a message, and the creation of a sender task. -/
inductive Event (μ : Type*)
  | started
  | accepted (message : μ)
  | dropped (message : μ)
  | taken (message : μ)
  | sent (message : μ)

/-- A client, with what has happened. -/
structure Session (μ : Type*) where
  client : WebSocketClient μ
  log : List (Event μ)

/-- `WebSocketClient.__init__`. -/
def WebSocketClient.init (maxQueueSize : ℤ) : WebSocketClient μ where
  state := ⟨0, 0, 0, "CONNECTED"⟩
  queue := .empty maxQueueSize
  senderTask := .absent
  isActive := true
  closing := false

/-- `start_sender`. -/
def startSender (c : WebSocketClient μ) : WebSocketClient μ × List (Event μ) :=
  match c.senderTask with
  | .absent => ({ c with senderTask := .looping }, [.started])
  | .done => ({ c with senderTask := .looping }, [.started])
  | _ => (c, [])

/-- The drop of the oldest message; an exception leaves the rest of the block undone. -/
def dropOldest (c : WebSocketClient μ) : WebSocketClient μ × List (Event μ) :=
  match c.queue.getNowait with
  | none => (c, [])
  | some (message, q) =>
    match q.taskDone with
    | none => ({ c with queue := q }, [])
    | some q' =>
      ({ c with
          queue := q'
          state := { c.state with droppedEvents := c.state.droppedEvents + 1 } },
        [.dropped message])

/-- The put of the new message. -/
def put (c : WebSocketClient μ) (message : μ) : WebSocketClient μ × List (Event μ) :=
  match c.queue.putNowait message with
  | some q =>
    ({ c with queue := q, state := { c.state with queuedEvents := q.items.length } },
      [.accepted message])
  | none => ({ c with state := { c.state with droppedEvents := c.state.droppedEvents + 1 } }, [])

/-- `enqueue_event`. -/
def enqueueEvent (c : WebSocketClient μ) (message : μ) : WebSocketClient μ × List (Event μ) :=
  if c.isActive = false then (c, [])
  else if c.queue.full then
    let d := dropOldest c
    ((put d.1 message).1, d.2 ++ (put d.1 message).2)
  else put c message

/-- What happens next to the sender task. -/
inductive SenderMove
  /-- It looks at `_is_active`. -/
  | turn
  /-- `queue.get()` returns, and the message is handed to the websocket. -/
  | take
  /-- The transmission is over. -/
  | transmitted
  /-- The transmission raises. -/
  | fail
  /-- `CancelledError` is raised where the task waits. -/
  | cancel

/-- `_sender_loop`, from one await to the next; a move that does not fit does nothing. -/
def senderMove (c : WebSocketClient μ) (m : SenderMove) : WebSocketClient μ × List (Event μ) :=
  match m, c.senderTask with
  | .turn, .looping => ({ c with senderTask := if c.isActive then .waiting else .done }, [])
  | .take, .waiting =>
    match c.queue.getNowait with
    | none => (c, [])
    | some (message, q) =>
      ({ c with
          queue := q
          state := { c.state with queuedEvents := q.items.length }
          senderTask := .sending message }, [.taken message])
  | .transmitted, .sending message =>
    let counted := { c with state := { c.state with totalSent := c.state.totalSent + 1 } }
    match c.queue.taskDone with
    | some q => ({ counted with queue := q, senderTask := .looping }, [.sent message])
    | none => ({ counted with isActive := false, senderTask := .done }, [.sent message])
  | .fail, .sending _ => ({ c with isActive := false, senderTask := .done }, [])
  | .cancel, .looping => ({ c with senderTask := .done }, [])
  | .cancel, .waiting => ({ c with senderTask := .done }, [])
  | .cancel, .sending _ => ({ c with senderTask := .done }, [])
  | _, _ => (c, [])

/-- `close`, up to the cancellation of the sender task. -/
def close (c : WebSocketClient μ) : WebSocketClient μ := { c with isActive := false, closing := true }

/-- `close`, once the sender task is over. -/
def closed (c : WebSocketClient μ) : WebSocketClient μ :=
  if c.closing = false then c
  else
    match c.senderTask with
    | .absent =>
      { c with closing := false, state := { c.state with status := "DISCONNECTED" } }
    | .done =>
      { c with
        senderTask := .absent, closing := false
        state := { c.state with status := "DISCONNECTED" } }
    | _ => c

/-! ## Runs -/

/-- One segment. -/
inductive Move (μ : Type*)
  | start
  | enqueue (message : μ)
  | sender (m : SenderMove)
  | close
  | closed

/-- The segment on the client, with its events. -/
def clientMove (c : WebSocketClient μ) : Move μ → WebSocketClient μ × List (Event μ)
  | .start => startSender c
  | .enqueue message => enqueueEvent c message
  | .sender m => senderMove c m
  | .close => (close c, [])
  | .closed => (closed c, [])

/-- One segment goes on record. -/
def clientStep (s : Session μ) (m : Move μ) : Session μ × List (Event μ) :=
  (⟨(clientMove s.client m).1, s.log ++ (clientMove s.client m).2⟩, (clientMove s.client m).2)

/-- A new client. -/
def Session.init (maxQueueSize : ℤ) : Session μ := ⟨.init maxQueueSize, []⟩

/-! ## What the record says -/

@[simp] def Event.acceptedMessage : Event μ → Option μ
  | .accepted message => some message
  | _ => none

/-- The message that left the queue. -/
@[simp] def Event.removedMessage : Event μ → Option μ
  | .dropped message => some message
  | .taken message => some message
  | _ => none

@[simp] def Event.droppedMessage : Event μ → Option μ
  | .dropped message => some message
  | _ => none

@[simp] def Event.takenMessage : Event μ → Option μ
  | .taken message => some message
  | _ => none

@[simp] def Event.sentMessage : Event μ → Option μ
  | .sent message => some message
  | _ => none

@[simp] def Event.isStarted : Event μ → Bool
  | .started => true
  | _ => false

namespace Session

/-- The messages for which `enqueue_event` returned `True`. -/
def accepted (s : Session μ) : List μ := s.log.filterMap Event.acceptedMessage

def removed (s : Session μ) : List μ := s.log.filterMap Event.removedMessage

def dropped (s : Session μ) : List μ := s.log.filterMap Event.droppedMessage

/-- The messages handed to the websocket. -/
def taken (s : Session μ) : List μ := s.log.filterMap Event.takenMessage

/-- The messages whose transmission is over. -/
def sent (s : Session μ) : List μ := s.log.filterMap Event.sentMessage

/-- How many sender tasks were created. -/
def started (s : Session μ) : ℕ := s.log.countP Event.isStarted

end Session

/-! ## The balance -/

/-- A task that can still take a message off the queue counts for one. -/
def Sender.spare : Sender μ → ℕ
  | .looping => 1
  | .waiting => 1
  | _ => 0

/-- The messages sent are among those taken, in their order; one that is being transmitted is
the last that was taken, and not among them. -/
def SentInOrder (sent taken : List μ) : Sender μ → Prop
  | .sending message => ∃ before, taken = before ++ [message] ∧ sent.Sublist before
  | _ => sent.Sublist taken

/-- What holds between the segments. -/
structure Accounts (maxQueueSize : ℤ) (s : Session μ) : Prop where
  capacity : s.client.queue.maxsize = maxQueueSize
  fifo : s.accepted = s.removed ++ s.client.queue.items
  removed_length : s.removed.length = s.dropped.length + s.taken.length
  dropped_count : s.client.state.droppedEvents = s.dropped.length
  sent_count : s.client.state.totalSent = s.sent.length
  sent_in_order : SentInOrder s.sent s.taken s.client.senderTask
  held : ∃ n, s.client.queue.Holds n ∧ s.taken.length = s.sent.length + n ∧
    n + s.client.senderTask.spare ≤ s.started

namespace Session

variable (s : Session μ) (c : WebSocketClient μ) (es : List (Event μ))

/-- A segment with its events. -/
def then_ (s : Session μ) (r : WebSocketClient μ × List (Event μ)) : Session μ := ⟨r.1, s.log ++ r.2⟩

@[simp] theorem client_then : (s.then_ (c, es)).client = c := rfl

@[simp] theorem accepted_then :
    (s.then_ (c, es)).accepted = s.accepted ++ es.filterMap Event.acceptedMessage :=
  List.filterMap_append ..

@[simp] theorem removed_then :
    (s.then_ (c, es)).removed = s.removed ++ es.filterMap Event.removedMessage :=
  List.filterMap_append ..

@[simp] theorem dropped_then :
    (s.then_ (c, es)).dropped = s.dropped ++ es.filterMap Event.droppedMessage :=
  List.filterMap_append ..

@[simp] theorem taken_then :
    (s.then_ (c, es)).taken = s.taken ++ es.filterMap Event.takenMessage :=
  List.filterMap_append ..

@[simp] theorem sent_then : (s.then_ (c, es)).sent = s.sent ++ es.filterMap Event.sentMessage :=
  List.filterMap_append ..

@[simp] theorem started_then : (s.then_ (c, es)).started = s.started + es.countP Event.isStarted :=
  List.countP_append ..

end Session

variable {maxQueueSize : ℤ} {s : Session μ}

theorem accounts_init (maxQueueSize : ℤ) : Accounts maxQueueSize (Session.init maxQueueSize : Session μ) where
  capacity := rfl
  fifo := rfl
  removed_length := rfl
  dropped_count := rfl
  sent_count := rfl
  sent_in_order := List.Sublist.refl []
  held := ⟨0, BoundedQueue.holds_empty _, rfl, Nat.le_refl 0⟩

/-- A segment that moves no message keeps the balance, if the sender task stays as it is or ends
up without a message. -/
theorem Accounts.idle (h : Accounts maxQueueSize s) {c : WebSocketClient μ}
    (hqueue : c.queue = s.client.queue)
    (hdropped : c.state.droppedEvents = s.client.state.droppedEvents)
    (hsent : c.state.totalSent = s.client.state.totalSent)
    (hsender : c.senderTask = s.client.senderTask ∨
      (∀ message, c.senderTask ≠ .sending message) ∧ c.senderTask.spare ≤ s.client.senderTask.spare) :
    Accounts maxQueueSize (s.then_ (c, [])) where
  capacity := by
    show c.queue.maxsize = _
    rw [hqueue]
    exact h.capacity
  fifo := by simpa [hqueue] using h.fifo
  removed_length := by simpa using h.removed_length
  dropped_count := by simpa [hdropped] using h.dropped_count
  sent_count := by simpa [hsent] using h.sent_count
  sent_in_order := by
    have hold := h.sent_in_order
    rcases hsender with hsame | ⟨hnot, -⟩
    · simpa [hsame] using hold
    · have hsub : s.sent.Sublist s.taken := by
        cases hphase : s.client.senderTask with
        | sending message =>
          rw [hphase] at hold
          obtain ⟨before, htaken, hsub⟩ := hold
          rw [htaken]
          exact hsub.trans (List.sublist_append_left _ _)
        | _ =>
          rw [hphase] at hold
          exact hold
      cases hphase : c.senderTask with
      | sending message => exact absurd hphase (hnot message)
      | _ => simpa [hphase, SentInOrder] using hsub
  held := by
    obtain ⟨n, hholds, hcount, hspare⟩ := h.held
    refine ⟨n, ?_, by simpa using hcount, ?_⟩
    · simpa [hqueue] using hholds
    · have hle : c.senderTask.spare ≤ s.client.senderTask.spare := by
        rcases hsender with hsame | ⟨-, hle⟩
        · rw [hsame]
        · exact hle
      simp only [Session.client_then, Session.started_then, List.countP_nil]
      omega

attribute [local simp] List.filterMap_cons

theorem Accounts.start (h : Accounts maxQueueSize s) :
    Accounts maxQueueSize (s.then_ (startSender s.client)) := by
  have hidle := h.idle (c := s.client) rfl rfl rfl (.inl rfl)
  have hnew : SentInOrder s.sent s.taken (Sender.looping : Sender μ) →
      s.client.senderTask.spare = 0 →
      Accounts maxQueueSize (s.then_ ({ s.client with senderTask := .looping }, [.started])) := by
    intro hsub hspare
    constructor
    · exact h.capacity
    · simpa using h.fifo
    · simpa using h.removed_length
    · simpa using h.dropped_count
    · simpa using h.sent_count
    · simpa [SentInOrder] using hsub
    · obtain ⟨n, hholds, hcount, hle⟩ := h.held
      refine ⟨n, hholds, by simpa using hcount, ?_⟩
      simp only [Session.client_then, Session.started_then, Sender.spare, List.countP_cons,
        List.countP_nil, Event.isStarted, if_true]
      omega
  have hsub := h.sent_in_order
  unfold startSender
  cases hphase : s.client.senderTask with
  | absent =>
    rw [hphase] at hnew hsub
    exact hnew hsub rfl
  | done =>
    rw [hphase] at hnew hsub
    exact hnew hsub rfl
  | looping => exact hidle
  | waiting => exact hidle
  | sending message => exact hidle

/-- A full queue drops its first message, and has room for one then. -/
theorem Accounts.dropOldest (h : Accounts maxQueueSize s) (hfull : s.client.queue.full = true) :
    ∃ message rest, s.client.queue.items = message :: rest ∧
      (dropOldest s.client).2 = [.dropped message] ∧
      (dropOldest s.client).1.queue.full = false ∧
      Accounts maxQueueSize (s.then_ (dropOldest s.client)) := by
  obtain ⟨message, q, hget⟩ := BoundedQueue.exists_getNowait hfull
  obtain ⟨n, hholds, hcount, hspare⟩ := h.held
  obtain ⟨hitems, hmax, -⟩ := BoundedQueue.getNowait_eq_some hget
  obtain ⟨q', hdone, hitems', hmax', hholds'⟩ := BoundedQueue.taskDone_eq_some (hholds.getNowait hget)
  have hdrop : Realtime.dropOldest s.client =
      ({ s.client with
          queue := q'
          state := { s.client.state with droppedEvents := s.client.state.droppedEvents + 1 } },
        [.dropped message]) := by
    unfold Realtime.dropOldest
    simp only [hget, hdone]
  have hroom : q'.full = false := by
    have hq := BoundedQueue.full_of_getNowait hholds hget
    unfold BoundedQueue.full at hq ⊢
    rwa [hitems', hmax']
  rw [hdrop]
  refine ⟨message, q.items, hitems, rfl, hroom, ?_⟩
  constructor
  · exact (hmax'.trans hmax).trans h.capacity
  · simpa [hitems, hitems'] using h.fifo
  · have hlength := h.removed_length
    simp
    omega
  · simpa using h.dropped_count
  · simpa using h.sent_count
  · simpa using h.sent_in_order
  · exact ⟨n, hholds', by simpa using hcount, by simpa using hspare⟩

/-- Where there is room the message is accepted. -/
theorem Accounts.put (h : Accounts maxQueueSize s) (hroom : s.client.queue.full = false)
    (message : μ) : Accounts maxQueueSize (s.then_ (put s.client message)) ∧
      (put s.client message).2 = [.accepted message] := by
  obtain ⟨n, hholds, hcount, hspare⟩ := h.held
  obtain ⟨q, hq⟩ : ∃ q, s.client.queue.putNowait message = some q := by
    unfold BoundedQueue.putNowait
    rw [hroom]
    exact ⟨_, rfl⟩
  obtain ⟨hitems, hmax, -⟩ := BoundedQueue.putNowait_eq_some hq
  unfold Realtime.put
  simp only [hq]
  refine ⟨?_, trivial⟩
  constructor
  · exact hmax.trans h.capacity
  · simp [hitems, h.fifo]
  · simpa using h.removed_length
  · simpa using h.dropped_count
  · simpa using h.sent_count
  · simpa using h.sent_in_order
  · exact ⟨n, hholds.putNowait hq, by simpa using hcount, by simpa using hspare⟩

/-- **An enqueued message** is refused by a client that is not active, accepted where there is
room, and accepted in place of the oldest one where there is none. -/
theorem Accounts.enqueue (h : Accounts maxQueueSize s) (message : μ) :
    Accounts maxQueueSize (s.then_ (enqueueEvent s.client message)) ∧
      ∀ m, .dropped m ∈ (enqueueEvent s.client message).2 → s.client.queue.items.head? = some m := by
  unfold enqueueEvent
  by_cases hactive : s.client.isActive = false
  · rw [if_pos hactive]
    exact ⟨h.idle rfl rfl rfl (.inl rfl), fun m hm => by cases hm⟩
  · rw [if_neg hactive]
    by_cases hfull : s.client.queue.full = true
    · rw [if_pos hfull]
      obtain ⟨oldest, rest, hitems, hevents, hroom, hdropped⟩ := h.dropOldest hfull
      obtain ⟨hput, hputEvents⟩ := hdropped.put hroom message
      constructor
      · have happend := hput
        simp only [Session.then_, List.append_assoc] at happend ⊢
        exact happend
      · intro m hm
        have hputEvents' : (Realtime.put (Realtime.dropOldest s.client).1 message).2 = [.accepted message] :=
          hputEvents
        dsimp only at hm
        rw [hevents, hputEvents'] at hm
        simp at hm
        simp [hitems, hm]
    · rw [if_neg hfull]
      have hroom : s.client.queue.full = false := by simpa using hfull
      obtain ⟨hput, hputEvents⟩ := h.put hroom message
      refine ⟨hput, fun m hm => ?_⟩
      rw [hputEvents] at hm
      simp at hm

theorem Accounts.take (h : Accounts maxQueueSize s) (hphase : s.client.senderTask = .waiting) :
    Accounts maxQueueSize (s.then_ (senderMove s.client .take)) := by
  have hidle := h.idle (c := s.client) rfl rfl rfl (.inl rfl)
  unfold senderMove
  rw [hphase]
  cases hget : s.client.queue.getNowait with
  | none => exact hidle
  | some r =>
    obtain ⟨message, q⟩ := r
    obtain ⟨n, hholds, hcount, hspare⟩ := h.held
    obtain ⟨hitems, hmax, -⟩ := BoundedQueue.getNowait_eq_some hget
    have hsub := h.sent_in_order
    rw [hphase] at hsub hspare
    constructor
    · exact hmax.trans h.capacity
    · simpa [hitems] using h.fifo
    · have hlength := h.removed_length
      simp
      omega
    · simpa using h.dropped_count
    · simpa using h.sent_count
    · simpa [SentInOrder] using hsub
    · refine ⟨n + 1, hholds.getNowait hget, ?_, ?_⟩
      · simp [hcount]
        omega
      · simpa [Sender.spare] using hspare

theorem Accounts.transmitted (h : Accounts maxQueueSize s) {message : μ}
    (hphase : s.client.senderTask = .sending message) :
    Accounts maxQueueSize (s.then_ (senderMove s.client .transmitted)) := by
  obtain ⟨n, hholds, hcount, hspare⟩ := h.held
  have hsub := h.sent_in_order
  rw [hphase] at hsub hspare
  obtain ⟨before, htaken, hbefore⟩ := hsub
  obtain ⟨k, rfl⟩ : ∃ k, n = k + 1 := by
    have hle := hbefore.length_le
    rw [htaken, List.length_append, List.length_singleton] at hcount
    exact ⟨n - 1, by omega⟩
  obtain ⟨q, hdone, hitems, hmax, hholds'⟩ := BoundedQueue.taskDone_eq_some hholds
  unfold senderMove
  rw [hphase]
  simp only [hdone]
  constructor
  · exact hmax.trans h.capacity
  · simpa [hitems] using h.fifo
  · simpa using h.removed_length
  · simpa using h.dropped_count
  · simpa using h.sent_count
  · simpa [SentInOrder, htaken] using hbefore.append_right [message]
  · refine ⟨k, hholds', ?_, ?_⟩
    · simp [hcount]
      omega
    · simp [Sender.spare] at hspare ⊢
      omega

/-- **The sender task** keeps the balance, whatever it does next. -/
theorem Accounts.sender (h : Accounts maxQueueSize s) (m : SenderMove) :
    Accounts maxQueueSize (s.then_ (senderMove s.client m)) := by
  have hidle := h.idle (c := s.client) rfl rfl rfl (.inl rfl)
  cases m with
  | turn =>
    unfold senderMove
    cases hphase : s.client.senderTask with
    | looping =>
      by_cases hactive : s.client.isActive
      · have hturn := h.idle (c := { s.client with senderTask := .waiting }) rfl rfl rfl
          (.inr ⟨nofun, by rw [hphase]; exact Nat.le_refl _⟩)
        simpa [hactive] using hturn
      · have hturn := h.idle (c := { s.client with senderTask := .done }) rfl rfl rfl
          (.inr ⟨nofun, Nat.zero_le _⟩)
        simpa [hactive] using hturn
    | _ => exact hidle
  | take =>
    cases hphase : s.client.senderTask with
    | waiting => exact h.take hphase
    | _ =>
      unfold senderMove
      rw [hphase]
      exact hidle
  | transmitted =>
    cases hphase : s.client.senderTask with
    | sending message => exact h.transmitted hphase
    | _ =>
      unfold senderMove
      rw [hphase]
      exact hidle
  | fail =>
    unfold senderMove
    cases hphase : s.client.senderTask with
    | sending message => exact h.idle rfl rfl rfl (.inr ⟨nofun, Nat.zero_le _⟩)
    | _ => exact hidle
  | cancel =>
    have hover : Accounts maxQueueSize (s.then_ ({ s.client with senderTask := .done }, [])) :=
      h.idle rfl rfl rfl (.inr ⟨nofun, Nat.zero_le _⟩)
    unfold senderMove
    cases hphase : s.client.senderTask with
    | absent => exact hidle
    | done => exact hidle
    | _ => exact hover

theorem Accounts.closed (h : Accounts maxQueueSize s) :
    Accounts maxQueueSize (s.then_ (closed s.client, [])) := by
  have hidle := h.idle (c := s.client) rfl rfl rfl (.inl rfl)
  unfold Realtime.closed
  split_ifs
  · exact hidle
  · cases hphase : s.client.senderTask with
    | absent => exact h.idle rfl rfl rfl (.inl hphase.symm)
    | done => exact h.idle rfl rfl rfl (.inr ⟨nofun, Nat.zero_le _⟩)
    | _ => exact hidle

/-- A segment drops no message but the oldest one. -/
def DropsOldest (s : Session μ) (m : Move μ) : Prop :=
  ∀ message, .dropped message ∈ (clientStep s m).2 → s.client.queue.items.head? = some message

/-- **Every segment keeps the balance.** -/
theorem Accounts.step (h : Accounts maxQueueSize s) (m : Move μ) :
    Accounts maxQueueSize (clientStep s m).1 ∧ DropsOldest s m := by
  cases m with
  | start =>
    refine ⟨h.start, fun message hm => ?_⟩
    simp only [clientStep, clientMove, startSender] at hm
    split at hm
    · simp at hm
    · simp at hm
    · simp at hm
  | enqueue message => exact h.enqueue message
  | sender m =>
    refine ⟨h.sender m, fun message hm => ?_⟩
    simp only [clientStep, clientMove, senderMove] at hm
    repeat' split at hm
    all_goals simp at hm
  | close => exact ⟨h.idle rfl rfl rfl (.inl rfl), fun message hm => by cases hm⟩
  | closed => exact ⟨h.closed, fun message hm => by cases hm⟩

/-! ## Every run -/

def Move.isStart : Move μ → Bool
  | .start => true
  | _ => false

/-- A segment creates a sender task only as a `start_sender`. -/
theorem started_step (s : Session μ) (m : Move μ) :
    (clientStep s m).1.started ≤ s.started + [m].countP Move.isStart := by
  have hcount : (clientMove s.client m).2.countP Event.isStarted ≤ [m].countP Move.isStart := by
    cases m with
    | start =>
      simp only [clientMove, startSender]
      split
      · exact Nat.le_refl 1
      · exact Nat.le_refl 1
      · exact Nat.zero_le 1
    | enqueue message =>
      simp only [clientMove, enqueueEvent, dropOldest, put]
      repeat' split
      all_goals simp
    | sender m =>
      simp only [clientMove, senderMove]
      repeat' split
      all_goals simp
    | close => exact Nat.le_refl 0
    | closed => exact Nat.le_refl 0
  show (s.log ++ _).countP _ ≤ _
  rw [List.countP_append]
  exact Nat.add_le_add_left hcount _

theorem started_run (s : Session μ) (ms : List (Move μ)) :
    (Machine.run clientStep s ms).started ≤ s.started + ms.countP Move.isStart := by
  induction ms generalizing s with
  | nil => exact Nat.le_refl _
  | cons m ms ih =>
    have hstep := started_step s m
    have hrest := ih (clientStep s m).1
    have hcount : (m :: ms).countP Move.isStart = [m].countP Move.isStart + ms.countP Move.isStart := by
      rw [← List.countP_append, List.singleton_append]
    rw [Machine.run_cons]
    omega

/-- The balance holds at the end of every run. -/
theorem accounts_run (maxQueueSize : ℤ) (ms : List (Move μ)) :
    Accounts maxQueueSize (Machine.run clientStep (Session.init maxQueueSize) ms) :=
  Machine.inv_run (I := Accounts maxQueueSize) (C := fun _ _ => True) (fun _ m h _ => (h.step m).1)
    (accounts_init maxQueueSize) (Machine.always_of_forall (fun _ _ => trivial) _ _)

theorem taken_sublist_removed (s : Session μ) : s.taken.Sublist s.removed := by
  unfold Session.taken Session.removed
  induction s.log with
  | nil => exact List.Sublist.refl []
  | cons e es ih =>
    cases e with
    | taken message => exact ih.cons_cons message
    | dropped message => exact ih.cons message
    | _ => exact ih

/-- The messages sent are among those taken, and these among those accepted, in their order. -/
theorem Accounts.sent_sublist (h : Accounts maxQueueSize s) :
    s.sent.Sublist s.taken ∧ s.taken.Sublist s.accepted := by
  constructor
  · have horder := h.sent_in_order
    cases hphase : s.client.senderTask with
    | sending message =>
      rw [hphase] at horder
      obtain ⟨before, htaken, hsub⟩ := horder
      rw [htaken]
      exact hsub.trans (List.sublist_append_left _ _)
    | _ =>
      rw [hphase] at horder
      exact horder
  · rw [h.fifo]
    exact (taken_sublist_removed s).trans (List.sublist_append_left _ _)

/-- **Client queue accounting.**  In every interleaving of `enqueue_event`, the steps of the one
sender task and `close`, the accepted messages are those sent, those dropped, those queued and at
most one that was taken off the queue and is in flight or was lost; the queue is within its bound;
the messages were sent in the order they were accepted; each drop was of the oldest message. -/
theorem queue_accounted {maxQueueSize : ℤ} (hmax : 1 ≤ maxQueueSize) (ms : List (Move μ))
    (hstart : ms.countP Move.isStart ≤ 1) :
    let s := Machine.run clientStep (Session.init maxQueueSize) ms
    (∃ rest ≤ 1,
      s.accepted.length = s.client.state.totalSent + s.client.state.droppedEvents +
        s.client.queue.items.length + rest ∧
      s.taken.length = s.client.state.totalSent + rest) ∧
    (s.client.queue.items.length : ℤ) ≤ maxQueueSize ∧
    s.client.state.totalSent = s.sent.length ∧
    s.sent.Sublist s.taken ∧ s.taken.Sublist s.accepted ∧ s.client.queue.items <:+ s.accepted ∧
    Machine.Always clientStep DropsOldest (Session.init maxQueueSize) ms := by
  intro s
  have haccounts : Accounts maxQueueSize s := accounts_run maxQueueSize ms
  obtain ⟨rest, hholds, htaken, hspare⟩ := haccounts.held
  have hstarted : s.started ≤ 0 + ms.countP Move.isStart :=
    started_run (Session.init maxQueueSize) ms
  have haccepted : s.accepted.length = s.removed.length + s.client.queue.items.length := by
    rw [haccounts.fifo, List.length_append]
  have hremoved := haccounts.removed_length
  have hdropped := haccounts.dropped_count
  have hsent := haccounts.sent_count
  refine ⟨⟨rest, by omega, by omega, by omega⟩, ?_, hsent, haccounts.sent_sublist.1,
    haccounts.sent_sublist.2, ?_, ?_⟩
  · have hcapacity := haccounts.capacity
    rw [← hcapacity]
    exact hholds.length_le (by omega)
  · rw [haccounts.fifo]
    exact List.suffix_append _ _
  · exact Machine.always_of_inv (I := Accounts maxQueueSize) (C := fun _ _ => True)
      (fun _ m h _ => (h.step m).1) (fun _ m h _ => (h.step m).2) (accounts_init maxQueueSize)
      (Machine.always_of_forall (fun _ _ => trivial) _ _)

/-- A queue for one event, an overflow, and a transmission that fails. -/
theorem queue_accounted_overflow :
    let s := Machine.run clientStep (Session.init 1)
      [.start, .enqueue "a", .enqueue "b", .sender .turn, .sender .take, .sender .transmitted,
        .enqueue "c", .sender .turn, .sender .take, .sender .fail, .close, .closed]
    s.accepted = ["a", "b", "c"] ∧ s.dropped = ["a"] ∧ s.sent = ["b"] ∧
      ∃ rest ≤ 1, s.accepted.length = s.client.state.totalSent + s.client.state.droppedEvents +
        s.client.queue.items.length + rest ∧ s.taken.length = s.client.state.totalSent + rest := by
  refine ⟨by decide, by decide, by decide, ?_⟩
  exact (queue_accounted (by decide) _ (by decide)).1

end ScamOn.Realtime
