import Mathlib.Data.List.Count
import Mathlib.Logic.Function.Basic
import ScamOn.Lib.Dict
import ScamOn.Lib.Text
import ScamOn.Realtime.Broadcaster

/-!
# Tenant groups of the event broadcaster

`SOCEventBroadcaster` keeps the clients of each tenant in a group and puts a security event
on the queues of the clients of its tenant only.  Its operations are coroutines over one
lock: registration, removal, stale-client cleanup, heartbeat sweeps and shutdown interleave
with broadcasts at every `await`.

* `Task` is an operation that waits at one of its suspension points, and `segment` takes it
  to the next one.  Any task may go on at any time, and so may any client's sender.
* `Groups` is the invariant of the groups, `Reached` that of the reachable states, with the queues.
* `offer_spec`: one pass of a broadcast over its snapshot.
* `broadcasts_isolated`: both hold in every reachable state, and a broadcast is enqueued once
  per registration of each client that is registered and active throughout the call.
-/

namespace ScamOn.Realtime

variable {ι : Type*}

/-! ## Data -/

/-- A text on a client's queue.  With a security event goes, for the record, the call that
broadcast it and the tenant it was for. -/
inductive Frame
  | event (call : ℕ) (tenantId : Uuid) (json : String)
  | ping (json : String)
  deriving DecidableEq

/-- The clients there are, and the bound of the groups. -/
structure Setting (ι : Type*) where
  tenantId : ι → Uuid
  maxQueueSize : ι → ℤ
  maxClientsPerTenant : ℤ

/-- How an operation ends. -/
inductive Result
  | registered (accepted : Bool)
  | unregistered
  | queued (count : ℕ)
  | swept
  | stopped
  deriving DecidableEq

/-- An operation, where it waits.  `release` goes on with the clients one by one, and
unregisters or just closes them; `awaitClose` waits in `close` for the first of them. -/
inductive Task (ι : Type*)
  | register (client : ι)
  | broadcast (tenantId : Uuid) (json : String)
  | sweep (timedOut : ι → Bool) (json : String)
  | stop
  | stopClear
  | release (unregisters : Bool) (clients : List ι) (result : Result)
  | awaitClose (unregisters : Bool) (client : ι) (rest : List ι) (result : Result)
  | done (result : Result)

/-- `SOCEventBroadcaster`, with its clients and the operations that were called. -/
structure Broadcaster (ι : Type*) where
  clients : Dict Uuid (List ι)
  sessions : ι → Session Frame
  isRunning : Bool
  totalEventsPublished : ℕ
  totalBroadcasts : ℕ
  tasks : Dict ℕ (Task ι)
  nextTask : ℕ

/-- A call of an operation. -/
inductive Call (ι : Type*)
  | register (client : ι)
  | unregister (client : ι)
  | broadcast (tenantId : Uuid) (json : String)
  | sweep (timedOut : ι → Bool) (json : String)
  | stop

/-- Where a call begins. -/
def Call.task : Call ι → Task ι
  | register client => .register client
  | unregister client => .release true [client] .unregistered
  | broadcast tenantId json => .broadcast tenantId json
  | sweep timedOut json => .sweep timedOut json
  | stop => .stop

/-- What happens next: a call, the next segment of an operation, a move of a client's sender,
or `start`. -/
inductive Act (ι : Type*)
  | call (c : Call ι)
  | resume (task : ℕ)
  | sender (client : ι) (m : SenderMove)
  | start

namespace Broadcaster

variable [DecidableEq ι]

/-! ## The segments -/

/-- A segment of a client. -/
def move (sessions : ι → Session Frame) (client : ι) (m : Move Frame) : ι → Session Frame :=
  Function.update sessions client (clientStep (sessions client) m).1

/-- `register`, under the lock. -/
def register (g : Setting ι) (b : Broadcaster ι) (client : ι) : Broadcaster ι × Bool :=
  let tenantId := g.tenantId client
  let tenantClients := (b.clients.get? tenantId).getD []
  if g.maxClientsPerTenant ≤ tenantClients.length then
    ({ b with clients := b.clients.set tenantId tenantClients }, false)
  else
    ({ b with
      clients := b.clients.set tenantId (tenantClients ++ [client])
      sessions := move b.sessions client .start }, true)

/-- `unregister`, under the lock. -/
def leave (g : Setting ι) (clients : Dict Uuid (List ι)) (client : ι) : Dict Uuid (List ι) :=
  match clients.get? (g.tenantId client) with
  | none => clients
  | some group =>
    let remaining := group.erase client
    if remaining = [] then clients.erase (g.tenantId client)
    else clients.set (g.tenantId client) remaining

/-- Whether `enqueue_event` returned `True`. -/
def success (events : List (Event Frame)) : Bool := events.any fun e => e.acceptedMessage.isSome

/-- The loop of `broadcast_event` over its snapshot, with the number of clients that took the
event and the stale ones. -/
def offer (frame : Frame) (sessions : ι → Session Frame) :
    List ι → (ι → Session Frame) × ℕ × List ι
  | [] => (sessions, 0, [])
  | client :: rest =>
    if (sessions client).client.isActive = false then
      let later := offer frame sessions rest
      (later.1, later.2.1, client :: later.2.2)
    else
      let later := offer frame (move sessions client (.enqueue frame)) rest
      if success (clientStep (sessions client) (.enqueue frame)).2 then
        (later.1, later.2.1 + 1, later.2.2)
      else (later.1, later.2.1, client :: later.2.2)

/-- The loop of a heartbeat over its snapshot, with the stale clients. -/
def pingAll (timedOut : ι → Bool) (json : String) (sessions : ι → Session Frame) :
    List ι → (ι → Session Frame) × List ι
  | [] => (sessions, [])
  | client :: rest =>
    if timedOut client || !(sessions client).client.isActive then
      let later := pingAll timedOut json sessions rest
      (later.1, client :: later.2)
    else pingAll timedOut json (move sessions client (.enqueue (.ping json))) rest

/-- The end of a broadcast adds to the totals. -/
def published (b : Broadcaster ι) : Result → Broadcaster ι
  | .queued count =>
    { b with
      totalEventsPublished := b.totalEventsPublished + 1
      totalBroadcasts := b.totalBroadcasts + count }
  | _ => b

/-- The operation `n` goes on to its next suspension point. -/
def segment (g : Setting ι) (b : Broadcaster ι) (n : ℕ) : Task ι → Broadcaster ι × Task ι
  | .register client =>
    let r := register g b client
    (r.1, .done (.registered r.2))
  | .broadcast tenantId json =>
    let targetClients := (b.clients.get? tenantId).getD []
    if targetClients = [] then (b, .done (.queued 0))
    else
      let r := offer (.event n tenantId json) b.sessions targetClients
      ({ b with sessions := r.1 }, .release true r.2.2 (.queued r.2.1))
  | .sweep timedOut json =>
    let r := pingAll timedOut json b.sessions b.clients.values.flatten
    ({ b with sessions := r.1 }, .release true r.2 .swept)
  | .stop =>
    if b.isRunning = false then (b, .done .stopped)
    else ({ b with isRunning := false }, .stopClear)
  | .stopClear => ({ b with clients := ∅ }, .release false b.clients.values.flatten .stopped)
  | .release _ [] result => (published b result, .done result)
  | .release unregisters (client :: rest) result =>
    ({ b with
      clients := if unregisters then leave g b.clients client else b.clients
      sessions := move b.sessions client .close }, .awaitClose unregisters client rest result)
  | .awaitClose unregisters client rest result =>
    ({ b with sessions := move b.sessions client .closed }, .release unregisters rest result)
  | .done result => (b, .done result)

/-- What happens next. -/
def step (g : Setting ι) (b : Broadcaster ι) : Act ι → Broadcaster ι × Unit
  | .call c => ({ b with tasks := b.tasks.set b.nextTask c.task, nextTask := b.nextTask + 1 }, ())
  | .resume n =>
    match b.tasks.get? n with
    | some task =>
      let r := segment g b n task
      ({ r.1 with tasks := b.tasks.set n r.2 }, ())
    | none => (b, ())
  | .sender client m => ({ b with sessions := move b.sessions client (.sender m) }, ())
  | .start => ({ b with isRunning := true }, ())

def init (g : Setting ι) : Broadcaster ι :=
  ⟨∅, fun client => .init (g.maxQueueSize client), false, 0, 0, ∅, 0⟩

end Broadcaster

/-! ## What a client takes -/

section Sessions

variable {μ : Type*} {maxQueueSize : ℤ} {s : Session μ}

/-- Only `enqueue_event` puts a message on the queue. -/
theorem accepted_clientStep (s : Session μ) {m : Move μ} (hm : ∀ message, m ≠ .enqueue message) :
    (clientStep s m).1.accepted = s.accepted := by
  have hevents : (clientMove s.client m).2.filterMap Event.acceptedMessage = [] := by
    cases m with
    | start =>
      simp only [clientMove, startSender]
      split
      · rfl
      · rfl
      · rfl
    | enqueue message => exact absurd rfl (hm message)
    | sender m =>
      simp only [clientMove, senderMove]
      repeat' split
      all_goals rfl
    | close => rfl
    | closed => rfl
  show (s.log ++ _).filterMap _ = s.log.filterMap _
  rw [List.filterMap_append, hevents, List.append_nil]

theorem isActive_dropOldest (c : WebSocketClient μ) : (dropOldest c).1.isActive = c.isActive := by
  unfold dropOldest
  cases c.queue.getNowait with
  | none => rfl
  | some r =>
    dsimp only
    cases r.2.taskDone with
    | none => rfl
    | some q => rfl

theorem isActive_put (c : WebSocketClient μ) (message : μ) :
    (put c message).1.isActive = c.isActive := by
  unfold put
  cases c.queue.putNowait message with
  | none => rfl
  | some q => rfl

theorem isActive_enqueueEvent (c : WebSocketClient μ) (message : μ) :
    (enqueueEvent c message).1.isActive = c.isActive := by
  unfold enqueueEvent
  split_ifs
  · rfl
  · exact (isActive_put _ message).trans (isActive_dropOldest c)
  · exact isActive_put c message

/-- **An active client takes what is enqueued**, whether its queue is full or not. -/
theorem Accounts.enqueue_accepted (h : Accounts maxQueueSize s) (message : μ) :
    (clientStep s (.enqueue message)).1.accepted =
      s.accepted ++ if s.client.isActive then [message] else [] := by
  have hevents : (enqueueEvent s.client message).2.filterMap Event.acceptedMessage =
      if s.client.isActive then [message] else [] := by
    unfold enqueueEvent
    by_cases hactive : s.client.isActive = true
    · rw [if_neg (by simp [hactive]), if_pos hactive]
      by_cases hfull : s.client.queue.full = true
      · obtain ⟨oldest, -, -, hdrop, hroom, hdropped⟩ := h.dropOldest hfull
        have hput : (Realtime.put (Realtime.dropOldest s.client).1 message).2 = [.accepted message] :=
          (hdropped.put hroom message).2
        rw [if_pos hfull]
        dsimp only
        rw [hdrop, hput]
        rfl
      · have hroom : s.client.queue.full = false := by simpa using hfull
        rw [if_neg hfull, (h.put hroom message).2]
        rfl
    · rw [if_pos (by simpa using hactive), if_neg hactive]
      rfl
  show (s.log ++ _).filterMap _ = _
  rw [List.filterMap_append]
  exact congrArg _ hevents

end Sessions

namespace Broadcaster

variable [DecidableEq ι] {g : Setting ι}

/-- What the clients took between two states of their sessions. -/
structure Took (g : Setting ι) (sessions sessions' : ι → Session Frame) (frames : ι → List Frame) :
    Prop where
  accounts : ∀ i, Accounts (g.maxQueueSize i) (sessions' i)
  accepted : ∀ i, (sessions' i).accepted = (sessions i).accepted ++ frames i

omit [DecidableEq ι] in
theorem Took.refl {sessions : ι → Session Frame}
    (h : ∀ i, Accounts (g.maxQueueSize i) (sessions i)) : Took g sessions sessions fun _ => [] where
  accounts := h
  accepted _ := (List.append_nil _).symm

omit [DecidableEq ι] in
/-- Of frames that are not there, anything holds. -/
theorem Took.of_nothing {sessions sessions' : ι → Session Frame}
    (h : Took g sessions sessions' fun _ => []) (P : ι → Frame → Prop) :
    ∃ frames, Took g sessions sessions' frames ∧ ∀ i, ∀ frame ∈ frames i, P i frame :=
  ⟨_, h, fun _ _ hmem => by cases hmem⟩

theorem move_self (sessions : ι → Session Frame) (client : ι) (m : Move Frame) :
    move sessions client m client = (clientStep (sessions client) m).1 := Function.update_self ..

theorem move_of_ne (sessions : ι → Session Frame) {client i : ι} (m : Move Frame) (h : i ≠ client) :
    move sessions client m i = sessions i := Function.update_of_ne h ..

theorem accounts_move {sessions : ι → Session Frame}
    (h : ∀ i, Accounts (g.maxQueueSize i) (sessions i)) (client : ι) (m : Move Frame) (i : ι) :
    Accounts (g.maxQueueSize i) (move sessions client m i) := by
  by_cases hi : i = client
  · subst hi
    rw [move_self]
    exact ((h i).step m).1
  · rw [move_of_ne sessions m hi]
    exact h i

/-- A segment of a client that is not `enqueue_event` puts nothing on a queue. -/
theorem took_move {sessions : ι → Session Frame}
    (h : ∀ i, Accounts (g.maxQueueSize i) (sessions i)) (client : ι) {m : Move Frame}
    (hm : ∀ frame, m ≠ .enqueue frame) : Took g sessions (move sessions client m) fun _ => [] where
  accounts := accounts_move h client m
  accepted i := by
    rw [List.append_nil]
    by_cases hi : i = client
    · subst hi
      rw [move_self, accepted_clientStep _ hm]
    · rw [move_of_ne sessions m hi]

theorem accepted_move_enqueue {sessions : ι → Session Frame}
    (h : ∀ i, Accounts (g.maxQueueSize i) (sessions i)) (client i : ι) (frame : Frame) :
    (move sessions client (.enqueue frame) i).accepted = (sessions i).accepted ++
      List.replicate (if (sessions client).client.isActive then [client].count i else 0) frame := by
  by_cases hi : i = client
  · subst hi
    rw [move_self, (h i).enqueue_accepted]
    split_ifs
    · simp
    · rfl
  · have hcount : [client].count i = 0 := List.count_eq_zero.2 (by simpa using hi)
    rw [move_of_ne sessions _ hi, hcount]
    simp

theorem isActive_move_enqueue (sessions : ι → Session Frame) (client i : ι) (frame : Frame) :
    (move sessions client (.enqueue frame) i).client.isActive = (sessions i).client.isActive := by
  by_cases hi : i = client
  · subst hi
    rw [move_self]
    exact isActive_enqueueEvent _ _
  · rw [move_of_ne sessions _ hi]

/-- **One pass of a broadcast**: every active client of the snapshot takes the event once for each
time it occurs there. -/
theorem offer_spec (frame : Frame) (targets : List ι) {sessions : ι → Session Frame}
    (h : ∀ i, Accounts (g.maxQueueSize i) (sessions i)) :
    Took g sessions (offer frame sessions targets).1 fun i =>
      List.replicate (if (sessions i).client.isActive then targets.count i else 0) frame := by
  induction targets generalizing sessions with
  | nil =>
    have hnone := Took.refl h
    simpa [offer] using hnone
  | cons client rest ih =>
    by_cases hactive : (sessions client).client.isActive = false
    · have hrest := ih h
      have hsessions : (offer frame sessions (client :: rest)).1 = (offer frame sessions rest).1 := by
        rw [offer, if_pos hactive]
      rw [hsessions]
      refine ⟨hrest.accounts, fun i => ?_⟩
      rw [hrest.accepted]
      by_cases hi : i = client
      · subst hi
        simp [hactive]
      · rw [List.count_cons_of_ne (Ne.symm hi)]
    · have hrest := ih (accounts_move h client (.enqueue frame))
      have hsessions : (offer frame sessions (client :: rest)).1 =
          (offer frame (move sessions client (.enqueue frame)) rest).1 := by
        rw [offer, if_neg hactive]
        dsimp only
        split_ifs
        · rfl
        · rfl
      rw [hsessions]
      refine ⟨hrest.accounts, fun i => ?_⟩
      rw [hrest.accepted, accepted_move_enqueue h, isActive_move_enqueue, List.append_assoc,
        List.replicate_append_replicate]
      by_cases hi : i = client
      · subst hi
        simp [hactive, Nat.add_comm]
      · simp [hactive, Ne.symm hi]

/-- A heartbeat sends pings only. -/
theorem pingAll_spec (timedOut : ι → Bool) (json : String) (targets : List ι)
    {sessions : ι → Session Frame} (h : ∀ i, Accounts (g.maxQueueSize i) (sessions i)) :
    ∃ copies : ι → ℕ, Took g sessions (pingAll timedOut json sessions targets).1 fun i =>
      List.replicate (copies i) (.ping json) := by
  induction targets generalizing sessions with
  | nil => exact ⟨fun _ => 0, Took.refl h⟩
  | cons client rest ih =>
    rw [pingAll]
    split_ifs
    · exact ih h
    · obtain ⟨copies, hrest⟩ := ih (accounts_move h client (.enqueue (.ping json)))
      refine ⟨fun i => (if (sessions client).client.isActive then [client].count i else 0) + copies i,
        hrest.accounts, fun i => ?_⟩
      rw [hrest.accepted, accepted_move_enqueue h, List.append_assoc,
        List.replicate_append_replicate]

/-! ## The groups -/

/-- No group is empty or too large, and the clients of a group are of its tenant. -/
def Groups (g : Setting ι) (clients : Dict Uuid (List ι)) : Prop :=
  ∀ t group, clients.get? t = some group →
    group ≠ [] ∧ (group.length : ℤ) ≤ g.maxClientsPerTenant ∧ ∀ i ∈ group, g.tenantId i = t

/-- How often a client is registered. -/
def registrations (g : Setting ι) (b : Broadcaster ι) (client : ι) : ℕ :=
  ((b.clients.get? (g.tenantId client)).getD []).count client

omit [DecidableEq ι] in
theorem groups_empty (g : Setting ι) : Groups g ∅ := nofun

omit [DecidableEq ι] in
theorem Groups.set {clients : Dict Uuid (List ι)} (h : Groups g clients) {t : Uuid} {group : List ι}
    (hne : group ≠ []) (hle : (group.length : ℤ) ≤ g.maxClientsPerTenant)
    (hmem : ∀ i ∈ group, g.tenantId i = t) : Groups g (clients.set t group) := by
  intro t' group' hget
  rw [Dict.get?_set] at hget
  split_ifs at hget with ht
  · cases hget
    rw [ht]
    exact ⟨hne, hle, hmem⟩
  · exact h t' group' hget

omit [DecidableEq ι] in
theorem Groups.erase {clients : Dict Uuid (List ι)} (h : Groups g clients) (t : Uuid) :
    Groups g (clients.erase t) := by
  intro t' group hget
  rw [Dict.get?_erase] at hget
  split_ifs at hget
  exact h t' group hget

theorem Groups.leave {clients : Dict Uuid (List ι)} (h : Groups g clients) (client : ι) :
    Groups g (leave g clients client) := by
  unfold Broadcaster.leave
  cases hget : clients.get? (g.tenantId client) with
  | none => exact h
  | some group =>
    obtain ⟨-, hle, hmem⟩ := h _ _ hget
    dsimp only
    split_ifs with hempty
    · exact h.erase _
    · have hlength : (group.erase client).length ≤ group.length := List.erase_sublist.length_le
      refine h.set hempty (by omega) fun i hi => hmem i (List.mem_of_mem_erase hi)

/-- With room for one client at least, a refused registration finds a group that is there. -/
theorem Groups.register {b : Broadcaster ι} (h : Groups g b.clients)
    (hmax : 1 ≤ g.maxClientsPerTenant) (client : ι) : Groups g (register g b client).1.clients := by
  unfold Broadcaster.register
  dsimp only
  split_ifs with hfull
  · cases hget : b.clients.get? (g.tenantId client) with
    | none =>
      rw [hget] at hfull
      simp at hfull
      omega
    | some group =>
      have hsame : b.clients.set (g.tenantId client) group = b.clients := Dict.set_eq_self hget
      rw [Option.getD_some, hsame]
      exact h
  · cases hget : b.clients.get? (g.tenantId client) with
    | none => exact h.set (by simp) (by simpa using hmax) (by simp)
    | some group =>
      obtain ⟨-, -, hmem⟩ := h _ _ hget
      rw [hget, Option.getD_some] at hfull
      refine h.set (by simp) ?_ fun i hi => ?_
      · simp
        omega
      · rcases List.mem_append.1 hi with hi | hi
        · exact hmem i hi
        · rw [List.mem_singleton.1 hi]

/-! ## The segments, each once -/

variable {b : Broadcaster ι}

omit [DecidableEq ι] in
@[simp] theorem published_clients (b : Broadcaster ι) (result : Result) :
    (published b result).clients = b.clients := by
  cases result with
  | _ => rfl

omit [DecidableEq ι] in
@[simp] theorem published_sessions (b : Broadcaster ι) (result : Result) :
    (published b result).sessions = b.sessions := by
  cases result with
  | _ => rfl

omit [DecidableEq ι] in
@[simp] theorem published_nextTask (b : Broadcaster ι) (result : Result) :
    (published b result).nextTask = b.nextTask := by
  cases result with
  | _ => rfl

theorem groups_segment (h : Groups g b.clients) (hmax : 1 ≤ g.maxClientsPerTenant) (n : ℕ)
    (task : Task ι) : Groups g (segment g b n task).1.clients := by
  cases task with
  | register client => exact h.register hmax client
  | broadcast t json =>
    simp only [segment]
    split_ifs
    · exact h
    · exact h
  | sweep timedOut json => exact h
  | stop =>
    simp only [segment]
    split_ifs
    · exact h
    · exact h
  | stopClear => exact groups_empty g
  | release unregisters clients result =>
    cases clients with
    | nil =>
      simp only [segment, published_clients]
      exact h
    | cons client rest =>
      simp only [segment]
      split_ifs
      · exact h.leave client
      · exact h
  | awaitClose unregisters client rest result => exact h
  | done result => exact h

/-- A broadcast takes its snapshot and puts the event on the queues at one go. -/
theorem took_broadcast (h : ∀ i, Accounts (g.maxQueueSize i) (b.sessions i)) (n : ℕ) (t : Uuid)
    (json : String) :
    Took g b.sessions (segment g b n (.broadcast t json)).1.sessions fun i =>
      List.replicate
        (if (b.sessions i).client.isActive then ((b.clients.get? t).getD []).count i else 0)
        (.event n t json) := by
  simp only [segment]
  split_ifs with hnone
  · rw [hnone]
    simpa using Took.refl h
  · exact offer_spec _ _ h

/-- What a segment puts on the queues is a ping, or the event that it broadcasts to the clients of
the group. -/
theorem took_segment (h : ∀ i, Accounts (g.maxQueueSize i) (b.sessions i)) (n : ℕ) (task : Task ι) :
    ∃ frames, Took g b.sessions (segment g b n task).1.sessions frames ∧
      ∀ i, ∀ frame ∈ frames i, (∃ json, frame = .ping json) ∨
        ∃ t json group, task = .broadcast t json ∧ frame = .event n t json ∧
          b.clients.get? t = some group ∧ i ∈ group := by
  have hmove : ∀ client m, (∀ frame, m ≠ .enqueue frame) →
      Took g b.sessions (move b.sessions client m) fun _ => [] := fun client m => took_move h client
  cases task with
  | register client =>
    simp only [segment, register]
    split_ifs
    · exact (Took.refl h).of_nothing _
    · exact (hmove client .start nofun).of_nothing _
  | broadcast t json =>
    refine ⟨_, took_broadcast h n t json, fun i frame hframe => .inr ?_⟩
    obtain ⟨hcount, rfl⟩ := List.mem_replicate.1 hframe
    cases hget : b.clients.get? t with
    | none => simp [hget] at hcount
    | some group =>
      refine ⟨t, json, group, rfl, rfl, hget, ?_⟩
      rw [hget] at hcount
      by_contra hnot
      simp [List.count_eq_zero.2 hnot] at hcount
  | sweep timedOut json =>
    obtain ⟨copies, htook⟩ := pingAll_spec timedOut json b.clients.values.flatten h
    exact ⟨_, htook, fun i frame hframe => .inl ⟨json, (List.mem_replicate.1 hframe).2⟩⟩
  | stop =>
    simp only [segment]
    split_ifs
    · exact (Took.refl h).of_nothing _
    · exact (Took.refl h).of_nothing _
  | stopClear => exact (Took.refl h).of_nothing _
  | release unregisters clients result =>
    cases clients with
    | nil =>
      simp only [segment, published_sessions]
      exact (Took.refl h).of_nothing _
    | cons client rest => exact (hmove client .close nofun).of_nothing _
  | awaitClose unregisters client rest result => exact (hmove client .closed nofun).of_nothing _
  | done result => exact (Took.refl h).of_nothing _

/-- No operation comes back to the start of a broadcast. -/
theorem segment_ne_broadcast (n : ℕ) (task : Task ι) (t : Uuid) (json : String) :
    (segment g b n task).2 ≠ .broadcast t json := by
  cases task with
  | broadcast t' json' =>
    simp only [segment]
    split_ifs
    · exact nofun
    · exact nofun
  | stop =>
    simp only [segment]
    split_ifs
    · exact nofun
    · exact nofun
  | release unregisters clients result =>
    cases clients with
    | nil => exact nofun
    | cons client rest => exact nofun
  | _ => exact nofun

theorem segment_nextTask (n : ℕ) (task : Task ι) : (segment g b n task).1.nextTask = b.nextTask := by
  cases task with
  | register client =>
    simp only [segment, register]
    split_ifs
    · rfl
    · rfl
  | broadcast t json =>
    simp only [segment]
    split_ifs
    · rfl
    · rfl
  | stop =>
    simp only [segment]
    split_ifs
    · rfl
    · rfl
  | release unregisters clients result =>
    cases clients with
    | nil => exact published_nextTask b result
    | cons client rest => rfl
  | _ => rfl

/-! ## Every reachable state -/

/-- The operations that were called, in order. -/
def calls (as : List (Act ι)) : List (Call ι) :=
  as.filterMap fun
    | .call c => some c
    | _ => none

/-- What holds after any run with these calls. -/
structure Reached (g : Setting ι) (made : List (Call ι)) (b : Broadcaster ι) : Prop where
  groups : Groups g b.clients
  accounts : ∀ i, Accounts (g.maxQueueSize i) (b.sessions i)
  nextTask_eq : b.nextTask = made.length
  spawned : ∀ n task, b.tasks.get? n = some task → n < b.nextTask
  /-- A broadcast that has not taken its snapshot was called. -/
  waiting : ∀ n t json, b.tasks.get? n = some (.broadcast t json) → made[n]? = some (.broadcast t json)
  /-- An event on a queue was broadcast for the client's tenant, by a call that has taken its
  snapshot. -/
  received : ∀ i n t json, .event n t json ∈ (b.sessions i).accepted →
    t = g.tenantId i ∧ made[n]? = some (.broadcast t json) ∧
      ∀ t' json', b.tasks.get? n ≠ some (.broadcast t' json')

variable {made : List (Call ι)}

omit [DecidableEq ι] in
theorem reached_init (g : Setting ι) : Reached g [] (init g) where
  groups := groups_empty g
  accounts i := accounts_init (g.maxQueueSize i)
  nextTask_eq := rfl
  spawned := nofun
  waiting := nofun
  received := nofun

omit [DecidableEq ι] in
theorem Call.task_eq_broadcast {c : Call ι} {t : Uuid} {json : String}
    (h : c.task = .broadcast t json) : c = .broadcast t json := by
  cases c with
  | broadcast t' json' =>
    cases h
    rfl
  | _ => cases h

/-- A call only adds an operation. -/
theorem Reached.call (h : Reached g made b) (c : Call ι) :
    Reached g (made ++ [c]) (step g b (.call c)).1 where
  groups := h.groups
  accounts := h.accounts
  nextTask_eq := by
    rw [List.length_append, List.length_singleton, ← h.nextTask_eq]
    rfl
  spawned := by
    intro n task hget
    show n < b.nextTask + 1
    simp only [step, Dict.get?_set] at hget
    split_ifs at hget with hn
    · omega
    · have hlt := h.spawned n task hget
      omega
  waiting := by
    intro n t json hget
    simp only [step, Dict.get?_set] at hget
    split_ifs at hget with hn
    · rw [hn, h.nextTask_eq, List.getElem?_concat_length,
        Call.task_eq_broadcast (Option.some.inj hget)]
    · have hlt := h.spawned n _ hget
      rw [List.getElem?_append_left (h.nextTask_eq ▸ hlt)]
      exact h.waiting n t json hget
  received := by
    intro i n t json hmem
    obtain ⟨htenant, hcall, hover⟩ := h.received i n t json hmem
    obtain ⟨hlt, -⟩ := List.getElem?_eq_some_iff.1 hcall
    have hne : n ≠ b.nextTask := by
      rw [h.nextTask_eq]
      omega
    refine ⟨htenant, ?_, fun t' json' => ?_⟩
    · rw [List.getElem?_append_left hlt]
      exact hcall
    · show (b.tasks.set b.nextTask c.task).get? n ≠ _
      rw [Dict.get?_set_of_ne _ _ hne]
      exact hover t' json'

/-- An operation that goes on keeps to the groups. -/
theorem Reached.resume (h : Reached g made b) (hmax : 1 ≤ g.maxClientsPerTenant) (n : ℕ) :
    Reached g made (step g b (.resume n)).1 := by
  cases htask : b.tasks.get? n with
  | none =>
    simp only [step, htask]
    exact h
  | some task =>
    obtain ⟨frames, htook, hframes⟩ := took_segment (g := g) h.accounts n task
    have hstep : (step g b (.resume n)).1 = { (segment g b n task).1 with
        tasks := b.tasks.set n (segment g b n task).2 } := by
      simp only [step, htask]
    rw [hstep]
    constructor
    · exact groups_segment h.groups hmax n task
    · exact htook.accounts
    · exact (segment_nextTask n task).trans h.nextTask_eq
    · intro n' task' hget
      show n' < (segment g b n task).1.nextTask
      rw [segment_nextTask]
      simp only [Dict.get?_set] at hget
      split_ifs at hget with hn
      · rw [hn]
        exact h.spawned n task htask
      · exact h.spawned n' task' hget
    · intro n' t json hget
      simp only [Dict.get?_set] at hget
      split_ifs at hget with hn
      · exact absurd (Option.some.inj hget) (segment_ne_broadcast n task t json)
      · exact h.waiting n' t json hget
    · intro i n' t json hmem
      have hover : ∀ t' json', n' = n ∨ b.tasks.get? n' ≠ some (.broadcast t' json') →
          (b.tasks.set n (segment g b n task).2).get? n' ≠ some (.broadcast t' json') := by
        intro t' json' hn'
        rw [Dict.get?_set]
        split_ifs with hn
        · exact fun hsome => segment_ne_broadcast n task t' json' (Option.some.inj hsome)
        · exact hn'.resolve_left hn
      have hmem' : .event n' t json ∈ (b.sessions i).accepted ++ frames i := htook.accepted i ▸ hmem
      rcases List.mem_append.1 hmem' with hold | hnew
      · obtain ⟨htenant, hcall, hwas⟩ := h.received i n' t json hold
        exact ⟨htenant, hcall, fun t' json' => hover t' json' (.inr (hwas t' json'))⟩
      · rcases hframes i _ hnew with ⟨ping, hping⟩ | ⟨t', json', group, hbroadcast, hevent, hget, hi⟩
        · cases hping
        · cases hevent
          obtain ⟨-, -, htenants⟩ := h.groups t group hget
          refine ⟨(htenants i hi).symm, h.waiting n t json (hbroadcast ▸ htask), ?_⟩
          exact fun t' json' => hover t' json' (.inl rfl)

theorem Reached.sender (h : Reached g made b) (client : ι) (m : SenderMove) :
    Reached g made (step g b (.sender client m)).1 := by
  have htook := took_move h.accounts client (m := .sender m) nofun
  constructor
  · exact h.groups
  · exact htook.accounts
  · exact h.nextTask_eq
  · exact h.spawned
  · exact h.waiting
  · intro i n t json hmem
    have haccepted := htook.accepted i
    rw [List.append_nil] at haccepted
    exact h.received i n t json (haccepted ▸ hmem)

theorem Reached.start (h : Reached g made b) : Reached g made (step g b .start).1 where
  groups := h.groups
  accounts := h.accounts
  nextTask_eq := h.nextTask_eq
  spawned := h.spawned
  waiting := h.waiting
  received := h.received

/-- The invariant holds at every suspension point. -/
theorem Reached.run (h : Reached g made b) (hmax : 1 ≤ g.maxClientsPerTenant) (as : List (Act ι)) :
    Reached g (made ++ calls as) (Machine.run (step g) b as) := by
  induction as generalizing made b with
  | nil =>
    rw [calls, List.filterMap_nil, List.append_nil]
    exact h
  | cons a as ih =>
    cases a with
    | call c =>
      have hrest := ih (h.call c)
      rw [List.append_assoc] at hrest
      exact hrest
    | resume n => exact ih (h.resume hmax n)
    | sender client m => exact ih (h.sender client m)
    | start => exact ih h.start

theorem Reached.step (h : Reached g made b) (hmax : 1 ≤ g.maxClientsPerTenant) (a : Act ι) :
    Reached g (made ++ calls [a]) (step g b a).1 := h.run hmax [a]

/-! ## One broadcast -/

/-- How often the event of a call was put on the client's queue. -/
def enqueued (b : Broadcaster ι) (n : ℕ) (t : Uuid) (json : String) (client : ι) : ℕ :=
  (b.sessions client).accepted.count (.event n t json)

/-- The operation is past its snapshot, if it is a broadcast. -/
def Past (b : Broadcaster ι) (n : ℕ) : Prop :=
  ∃ task, b.tasks.get? n = some task ∧ ∀ t json, task ≠ .broadcast t json

omit [DecidableEq ι] in
theorem enqueued_eq_of_accepted {b b' : Broadcaster ι} {client : ι} {frames : List Frame} (n : ℕ)
    (t : Uuid) (json : String)
    (h : (b'.sessions client).accepted = (b.sessions client).accepted ++ frames) :
    enqueued b' n t json client = enqueued b n t json client + frames.count (.event n t json) := by
  unfold enqueued
  rw [h, List.count_append]

/-- Past its snapshot, a broadcast enqueues nothing. -/
theorem Past.step {n : ℕ} (hpast : Past b n) (h : Reached g made b) (a : Act ι) (t : Uuid)
    (json : String) (client : ι) : Past (step g b a).1 n ∧
      enqueued (step g b a).1 n t json client = enqueued b n t json client := by
  obtain ⟨task, htask, hnot⟩ := hpast
  cases a with
  | call c =>
    have hne : n ≠ b.nextTask := Nat.ne_of_lt (h.spawned n task htask)
    refine ⟨⟨task, ?_, hnot⟩, rfl⟩
    show (b.tasks.set b.nextTask c.task).get? n = _
    rw [Dict.get?_set_of_ne _ _ hne]
    exact htask
  | sender other m =>
    have htook := took_move h.accounts other (m := .sender m) nofun
    have hcount : enqueued (Broadcaster.step g b (.sender other m)).1 n t json client =
        enqueued b n t json client + ([] : List Frame).count (.event n t json) :=
      enqueued_eq_of_accepted n t json (htook.accepted client)
    exact ⟨⟨task, htask, hnot⟩, hcount⟩
  | start => exact ⟨⟨task, htask, hnot⟩, rfl⟩
  | resume n' =>
    cases htask' : b.tasks.get? n' with
    | none =>
      have hsame : (Broadcaster.step g b (.resume n')).1 = b := by
        simp only [Broadcaster.step, htask']
      rw [hsame]
      exact ⟨⟨task, htask, hnot⟩, rfl⟩
    | some task' =>
      obtain ⟨frames, htook, hframes⟩ := took_segment (g := g) h.accounts n' task'
      simp only [Broadcaster.step, htask']
      constructor
      · by_cases hn : n = n'
        · subst hn
          exact ⟨_, Dict.get?_set_self .., segment_ne_broadcast n task'⟩
        · exact ⟨task, (Dict.get?_set_of_ne _ _ hn).trans htask, hnot⟩
      · have hnone : (frames client).count (.event n t json) = 0 := by
          refine List.count_eq_zero.2 fun hmem => ?_
          rcases hframes client _ hmem with ⟨ping, hping⟩ | ⟨t', json', group, hbroadcast, hevent, -⟩
          · cases hping
          · cases hevent
            rw [htask] at htask'
            exact hnot t json ((Option.some.inj htask').trans hbroadcast)
        have hcount := enqueued_eq_of_accepted n t json (htook.accepted client)
        rw [hnone] at hcount
        exact hcount

theorem Past.run {n : ℕ} (hpast : Past b n) (h : Reached g made b) (hmax : 1 ≤ g.maxClientsPerTenant)
    (as : List (Act ι)) (t : Uuid) (json : String) (client : ι) :
    enqueued (Machine.run (Broadcaster.step g) b as) n t json client = enqueued b n t json client := by
  induction as generalizing made b with
  | nil => rfl
  | cons a as ih =>
    obtain ⟨hnext, hcount⟩ := hpast.step h a t json client
    exact (ih hnext (h.step hmax a)).trans hcount

/-- When a broadcast takes its snapshot, every active client gets the event once for each time it is
registered. -/
theorem enqueued_resume {n : ℕ} {t : Uuid} {json : String} (h : Reached g made b)
    (hwaiting : b.tasks.get? n = some (.broadcast t json)) {client : ι} (ht : g.tenantId client = t)
    (hactive : (b.sessions client).client.isActive = true) :
    Past (step g b (.resume n)).1 n ∧
      enqueued (step g b (.resume n)).1 n t json client = registrations g b client := by
  have hbefore : enqueued b n t json client = 0 := by
    refine List.count_eq_zero.2 fun hmem => ?_
    obtain ⟨-, -, hover⟩ := h.received client n t json hmem
    exact hover t json hwaiting
  have htook := took_broadcast (g := g) h.accounts n t json
  simp only [step, hwaiting]
  refine ⟨⟨_, Dict.get?_set_self .., segment_ne_broadcast n _⟩, ?_⟩
  have hcount := enqueued_eq_of_accepted n t json (htook.accepted client)
  rw [hbefore, hactive, if_pos rfl, List.count_replicate_self, Nat.zero_add] at hcount
  rw [registrations, ht]
  exact hcount

theorem waiting_step {n : ℕ} {t : Uuid} {json : String} (h : Reached g made b)
    (hwaiting : b.tasks.get? n = some (.broadcast t json)) {a : Act ι} (ha : a ≠ .resume n) :
    (step g b a).1.tasks.get? n = some (.broadcast t json) := by
  cases a with
  | call c =>
    have hne : n ≠ b.nextTask := Nat.ne_of_lt (h.spawned n _ hwaiting)
    exact (Dict.get?_set_of_ne _ _ hne).trans hwaiting
  | resume n' =>
    have hne : n ≠ n' := fun heq => ha (heq ▸ rfl)
    cases htask : b.tasks.get? n' with
    | none =>
      simp only [step, htask]
      exact hwaiting
    | some task =>
      simp only [step, htask]
      exact (Dict.get?_set_of_ne _ _ hne).trans hwaiting
  | sender other m => exact hwaiting
  | start => exact hwaiting

/-- **A broadcast that is over** took its snapshot at some moment of the call, and its event is on
the queue of a client that was active all the time as often as the client was registered then. -/
theorem enqueued_run {n : ℕ} {t : Uuid} {json : String} (h : Reached g made b)
    (hmax : 1 ≤ g.maxClientsPerTenant) (hwaiting : b.tasks.get? n = some (.broadcast t json))
    {client : ι} (ht : g.tenantId client = t) (during : List (Act ι)) {result : Result}
    (hdone : (Machine.run (step g) b during).tasks.get? n = some (.done result))
    (hactive : ∀ p, p <+: during →
      ((Machine.run (step g) b p).sessions client).client.isActive = true) :
    Past (Machine.run (step g) b during) n ∧ ∃ p, p <+: during ∧
      enqueued (Machine.run (step g) b during) n t json client =
        registrations g (Machine.run (step g) b p) client := by
  refine ⟨⟨_, hdone, nofun⟩, ?_⟩
  induction during generalizing made b with
  | nil =>
    have hsame : Task.broadcast t json = .done result := Option.some.inj (hwaiting.symm.trans hdone)
    cases hsame
  | cons a during ih =>
    by_cases ha : a = .resume n
    · subst ha
      obtain ⟨hpast, hcount⟩ := enqueued_resume h hwaiting ht (hactive [] (List.nil_prefix ..))
      exact ⟨[], List.nil_prefix .., (hpast.run (h.step hmax _) hmax during t json client).trans hcount⟩
    · obtain ⟨p, hp, hcount⟩ := ih (h.step hmax a) (waiting_step h hwaiting ha) hdone fun p hp =>
        hactive (a :: p) (List.cons_prefix_cons.2 ⟨rfl, hp⟩)
      exact ⟨a :: p, List.cons_prefix_cons.2 ⟨rfl, hp⟩, hcount⟩

/-- **Broadcasts respect the tenant groups**, in every interleaving of registrations, removals,
broadcasts, heartbeats and shutdowns.  The clients of a group are of its tenant, and no group is
empty or too large.  An event on a client's queue was broadcast for the client's tenant.  A client
that was active throughout a broadcast for its tenant got the event as often as it was registered
at a moment of the call: once per registration, where its registrations stayed as they were. -/
theorem broadcasts_isolated (g : Setting ι) (hmax : 1 ≤ g.maxClientsPerTenant) (as : List (Act ι)) :
    let b := Machine.run (step g) (init g) as
    Groups g b.clients ∧
    (∀ i n t json, .event n t json ∈ (b.sessions i).accepted →
      t = g.tenantId i ∧ (calls as)[n]? = some (.broadcast t json)) ∧
    ∀ pre t json during post result, as = pre ++ (.call (.broadcast t json) :: during) ++ post →
      let called := Machine.run (step g) (init g) (pre ++ [.call (.broadcast t json)])
      let n := (calls pre).length
      (Machine.run (step g) called during).tasks.get? n = some (.done result) →
      ∀ i, g.tenantId i = t →
        (∀ p, p <+: during →
          ((Machine.run (step g) called p).sessions i).client.isActive = true) →
        (∃ p, p <+: during ∧
          enqueued b n t json i = registrations g (Machine.run (step g) called p) i) ∧
        ∀ k, (∀ p, p <+: during → registrations g (Machine.run (step g) called p) i = k) →
          enqueued b n t json i = k := by
  intro b
  have hreached : Reached g (calls as) b := (reached_init g).run hmax as
  refine ⟨hreached.groups, fun i n t json hmem => ?_, ?_⟩
  · obtain ⟨htenant, hcall, -⟩ := hreached.received i n t json hmem
    exact ⟨htenant, hcall⟩
  · intro pre t json during post result has called n hdone i ht hactive
    have hpre : Reached g (calls pre) (Machine.run (step g) (init g) pre) :=
      (reached_init g).run hmax pre
    have hcalledEq : called = (step g (Machine.run (step g) (init g) pre)
        (.call (.broadcast t json))).1 := Machine.run_append ..
    have hcalled : Reached g (calls pre ++ [.broadcast t json]) called := hcalledEq ▸ hpre.call _
    have hwaiting : called.tasks.get? n = some (.broadcast t json) := by
      have hn : n = (Machine.run (step g) (init g) pre).nextTask := hpre.nextTask_eq.symm
      rw [hcalledEq, hn]
      exact Dict.get?_set_self ..
    obtain ⟨hpast, p, hp, hcount⟩ := enqueued_run hcalled hmax hwaiting ht during hdone hactive
    have hb : b = Machine.run (step g) (Machine.run (step g) called during) post := by
      show Machine.run (step g) (init g) as = _
      rw [has, ← List.singleton_append (l := during), ← List.append_assoc, Machine.run_append,
        Machine.run_append]
    have hend : enqueued b n t json i = registrations g (Machine.run (step g) called p) i := by
      rw [hb, hpast.run (hcalled.run hmax during) hmax post t json i]
      exact hcount
    exact ⟨⟨p, hp, hend⟩, fun k hk => hend.trans (hk p hp)⟩

/-- A client that is registered twice, and one of another tenant. -/
def twoTenants : Setting Bool where
  tenantId c := if c then ⟨1⟩ else ⟨2⟩
  maxQueueSize _ := 5
  maxClientsPerTenant := 2

/-- Its event is on its queue twice. -/
theorem broadcasts_isolated_two :
    let registered : List (Act Bool) :=
      [.call (.register true), .call (.register true), .call (.register false), .resume 0, .resume 1,
        .resume 2]
    let as := registered ++ (.call (.broadcast ⟨1⟩ "alert") :: [.resume 3, .resume 3]) ++ []
    let b := Machine.run (step twoTenants) (init twoTenants) as
    Groups twoTenants b.clients ∧ enqueued b 3 ⟨1⟩ "alert" true = 2 ∧
      (b.sessions false).accepted = [] := by
  intro registered as b
  obtain ⟨hgroups, -, hcalls⟩ := broadcasts_isolated twoTenants (by decide) as
  refine ⟨hgroups, ?_, by decide +kernel⟩
  have hprefix : ∀ P : List (Act Bool) → Prop, P [] → P [.resume 3] → P [.resume 3, .resume 3] →
      ∀ p, p <+: [.resume 3, .resume 3] → P p := by
    intro P h0 h1 h2 p hp
    obtain ⟨n, rfl⟩ : ∃ n, p = [Act.resume 3, .resume 3].take n :=
      ⟨p.length, List.prefix_iff_eq_take.1 hp⟩
    match n with
    | 0 => exact h0
    | 1 => exact h1
    | k + 2 =>
      simp only [List.take_succ_cons, List.take_nil]
      exact h2
  refine (hcalls registered ⟨1⟩ "alert" [.resume 3, .resume 3] [] (.queued 2) rfl rfl true rfl
    ?_).2 2 ?_
  · exact hprefix _ (by decide +kernel) (by decide +kernel) (by decide +kernel)
  · exact hprefix _ (by decide +kernel) (by decide +kernel) (by decide +kernel)

end Broadcaster
end ScamOn.Realtime
