import ScamOn.IngestionGateway.DeadLetterStorage
import ScamOn.Lib.Machine

/-!
# Runs of the dead-letter queue

`DeadLetterQueue` over `InMemoryDeadLetterStorage`, with every operation and counter, over
whole runs.

* `QueueState.step` is an operation of the queue; `left` are the identifiers that leave the
  deque with it.
* `left_cases`: an identifier leaves because it is purged, because its tenant is cleared, or
  because it is the oldest of a full queue when a new item arrives.
* `Ledger` relates the state to the history: how often each item was requeued, and where
  everything that was ever enqueued has gone.
* `deadLetter_runs` puts it together for every run.
-/

namespace ScamOn.IngestionGateway

open Machine DeadLetterQueue

/-! ## The queue -/

/-- `DeadLetterQueue` with its storage and all its counters, and the next identifier that
`uuid4` draws. -/
structure QueueState where
  storage : InMemoryStorage
  totalEnqueued : ℕ
  totalPurged : ℕ
  totalRequeued : ℕ
  nextId : ℕ

/-- An operation of the queue. -/
inductive QueueOp
  | enqueue (failure : Failure)
  | requeue (id : ℕ)
  | purge (id : ℕ)
  | clearTenant (tenantId : Uuid)
  | get (id : ℕ)
  | listItems (tenantId : Option Uuid) (limit : ℤ)

/-- What an operation returns. -/
inductive QueueReply
  | item (item : Option DeadLetterItem)
  | flag (deleted : Bool)
  | cleared (n : ℕ)
  | items (items : List DeadLetterItem)
  deriving DecidableEq

namespace QueueState

def init (maxItems : ℕ) : QueueState := ⟨.init maxItems, 0, 0, 0, 0⟩

/-- `requeue`. -/
def requeue (s : QueueState) (id : ℕ) : QueueState × QueueReply :=
  match s.storage.get id with
  | none => (s, .item none)
  | some item =>
    if item.maxRetries ≤ item.retryCount then (s, .item none)
    else
      let updatedItem := { item with retryCount := item.retryCount + 1 }
      ({ s with
        storage := s.storage.save updatedItem
        totalRequeued := s.totalRequeued + 1 }, .item (some updatedItem))

/-- `purge`. -/
def purge (s : QueueState) (id : ℕ) : QueueState × QueueReply :=
  let deleted := s.storage.delete id
  ({ s with
    storage := deleted.1
    totalPurged := if deleted.2 then s.totalPurged + 1 else s.totalPurged }, .flag deleted.2)

/-- One operation. -/
def step (s : QueueState) : QueueOp → QueueState × QueueReply
  | .enqueue failure =>
    let item := failure.item s.nextId
    ({ s with
      storage := s.storage.save item
      totalEnqueued := s.totalEnqueued + 1
      nextId := s.nextId + 1 }, .item (some item))
  | .requeue id => s.requeue id
  | .purge id => s.purge id
  | .clearTenant tenantId =>
    let cleared := s.storage.clearTenant tenantId
    ({ s with
      storage := cleared.1
      totalPurged := s.totalPurged + cleared.2 }, .cleared cleared.2)
  | .get id => (s, .item (s.storage.get id))
  | .listItems tenantId limit => (s, .items (s.storage.listItems tenantId limit))

/-- The identifiers that leave the deque with an operation. -/
def left (s : QueueState) (op : QueueOp) : List ℕ :=
  s.storage.queue.filter fun id => id ∉ (s.step op).1.storage.queue

/-- The queue of the ingestion pipeline is this one. -/
theorem step_enqueue_eq (s : QueueState) (failure : Failure) :
    let q : DeadLetterQueue :=
      ⟨s.storage.maxItems, s.storage.queue, s.storage.items, s.totalEnqueued, s.nextId⟩
    (s.step (.enqueue failure)).1.storage = (q.enqueue failure).storage ∧
      (s.step (.enqueue failure)).1.totalEnqueued = (q.enqueue failure).totalEnqueued ∧
      (s.step (.enqueue failure)).1.nextId = (q.enqueue failure).nextId := ⟨rfl, rfl, rfl⟩

end QueueState

/-! ## Removing -/

namespace InMemoryStorage

variable {s : InMemoryStorage}

theorem Valid.nodup_queue (h : s.Valid) : s.queue.Nodup := h.keys_eq ▸ s.items.nodup

theorem Valid.mem_queue_iff (h : s.Valid) {id : ℕ} : id ∈ s.queue ↔ s.items.contains id := by
  rw [← h.keys_eq, Dict.mem_keys_iff, Dict.contains]

theorem queue_foldl_remove (h : s.queue.Nodup) (ids : List ℕ) :
    (ids.foldl remove s).queue = s.queue.filter (· ∉ ids) := by
  induction ids generalizing s with
  | nil => simp
  | cons id ids ih =>
    have herase : (s.remove id).queue = s.queue.filter (· != id) := h.erase_eq_filter id
    rw [List.foldl_cons, ih (herase ▸ h.filter _), herase, List.filter_filter]
    refine List.filter_congr fun k _ => ?_
    by_cases hk : k = id
    · simp [hk]
    · simp [hk]

theorem get?_foldl_remove (ids : List ℕ) (id : ℕ) :
    (ids.foldl remove s).items.get? id = if id ∈ ids then none else s.items.get? id := by
  induction ids generalizing s with
  | nil => simp
  | cons k ids ih =>
    rw [List.foldl_cons, ih, remove, Dict.get?_erase]
    by_cases hk : id = k
    · simp [hk]
    · simp [hk]

/-- The identifiers of a tenant's items. -/
def targetIds (s : InMemoryStorage) (tenantId : Uuid) : List ℕ :=
  (s.items.entries.filter fun p => p.2.tenantId = tenantId).map Prod.fst

theorem mem_targetIds {tenantId : Uuid} {id : ℕ} :
    id ∈ s.targetIds tenantId ↔ ∃ item, s.items.get? id = some item ∧ item.tenantId = tenantId := by
  constructor
  · intro h
    obtain ⟨⟨k, item⟩, hmem, rfl⟩ := List.mem_map.1 h
    obtain ⟨hentry, htenant⟩ := List.mem_filter.1 hmem
    exact ⟨item, Dict.mem_entries_iff.1 hentry, by simpa using htenant⟩
  · rintro ⟨item, hitem, htenant⟩
    exact List.mem_map.2 ⟨(id, item),
      List.mem_filter.2 ⟨Dict.mem_entries_iff.2 hitem, by simpa using htenant⟩, rfl⟩

theorem nodup_targetIds (s : InMemoryStorage) (tenantId : Uuid) : (s.targetIds tenantId).Nodup :=
  (List.filter_sublist.map Prod.fst).nodup s.items.nodup

theorem Valid.targetIds_subset (h : s.Valid) (tenantId : Uuid) : s.targetIds tenantId ⊆ s.queue := by
  intro id hid
  obtain ⟨item, hitem, -⟩ := mem_targetIds.1 hid
  rw [h.mem_queue_iff, Dict.contains, hitem]
  rfl

/-- `clear_tenant` takes the tenant's items and no others. -/
theorem get?_clearTenant (tenantId : Uuid) (id : ℕ) :
    (s.clearTenant tenantId).1.items.get? id =
      (s.items.get? id).filter fun item => item.tenantId ≠ tenantId := by
  rw [show s.clearTenant tenantId = ((s.targetIds tenantId).foldl remove s, _) from rfl,
    get?_foldl_remove]
  cases hid : s.items.get? id with
  | none => simp
  | some item =>
    have hmem : id ∈ s.targetIds tenantId ↔ item.tenantId = tenantId := by
      rw [mem_targetIds, hid]
      simp
    by_cases htenant : item.tenantId = tenantId
    · rw [if_pos (hmem.2 htenant)]
      simp [Option.filter, htenant]
    · rw [if_neg (mt hmem.1 htenant)]
      simp [Option.filter, htenant]

/-- `clear_tenant` counts what it takes. -/
theorem length_clearTenant (h : s.Valid) (tenantId : Uuid) :
    s.queue.length = (s.clearTenant tenantId).1.queue.length + (s.clearTenant tenantId).2 := by
  have hqueue : (s.clearTenant tenantId).1.queue = s.queue.filter (· ∉ s.targetIds tenantId) :=
    queue_foldl_remove h.nodup_queue _
  have htargets : (s.queue.filter (· ∈ s.targetIds tenantId)).Perm (s.targetIds tenantId) := by
    refine (List.perm_ext_iff_of_nodup (h.nodup_queue.filter _) (nodup_targetIds ..)).2 fun id => ?_
    rw [List.mem_filter, decide_eq_true_eq]
    exact ⟨fun hid => hid.2, fun hid => ⟨h.targetIds_subset tenantId hid, hid⟩⟩
  have hcount : (s.clearTenant tenantId).2 = _ := htargets.length_eq.symm
  have hsplit := List.length_eq_length_filter_add (l := s.queue) fun id => id ∈ s.targetIds tenantId
  simp only [← decide_not] at hsplit
  rw [hqueue, hcount]
  omega

theorem valid_delete (h : s.Valid) (id : ℕ) : (s.delete id).1.Valid := by
  unfold delete
  split_ifs
  · exact valid_remove h id
  · exact h

/-- `delete` takes one item, if it is there. -/
theorem length_delete (h : s.Valid) (id : ℕ) :
    s.queue.length = (s.delete id).1.queue.length + (if (s.delete id).2 then 1 else 0) := by
  by_cases hid : s.items.contains id
  · have hmem : id ∈ s.queue := h.mem_queue_iff.2 hid
    have hpos := List.length_pos_of_mem hmem
    have hlength := List.length_erase_of_mem hmem
    rw [delete, if_pos hid]
    show _ = (s.queue.erase id).length + 1
    omega
  · rw [delete, if_neg hid]
    rfl

end InMemoryStorage

/-! ## One operation -/

namespace QueueState

variable {s : QueueState} {op : QueueOp}

/-- What holds of the queue after any history: deque and dictionary agree, and every item is
stored under its own identifier, which was drawn before. -/
structure Valid (s : QueueState) : Prop where
  storage : s.storage.Valid
  keyed : ∀ id item, s.storage.items.get? id = some item → item.deadLetterId = id ∧ id < s.nextId

theorem valid_init {maxItems : ℕ} (h : 0 < maxItems) : (init maxItems).Valid :=
  ⟨InMemoryStorage.valid_init h, by simp [init, InMemoryStorage.init]⟩

theorem Valid.not_contains_nextId (h : s.Valid) : s.storage.items.contains s.nextId = false := by
  rw [Dict.contains, Option.isSome_eq_false_iff, Option.isNone_iff_eq_none]
  by_contra hsome
  obtain ⟨item, hitem⟩ := Option.ne_none_iff_exists'.1 hsome
  exact absurd (h.keyed _ item hitem).2 (lt_irrefl _)

/-- **What `enqueue` does to the storage**: the new item goes to the end, in exchange for the
oldest if the deque is full. -/
theorem Valid.enqueue_cases (h : s.Valid) (failure : Failure) :
    (s.storage.queue.length < s.storage.maxItems ∧
      (s.storage.save (failure.item s.nextId)).queue = s.storage.queue ++ [s.nextId] ∧
      ∀ id, (s.storage.save (failure.item s.nextId)).items.get? id =
        if id = s.nextId then some (failure.item s.nextId) else s.storage.items.get? id) ∨
    (s.storage.queue.length = s.storage.maxItems ∧ ∃ oldest rest, s.storage.queue = oldest :: rest ∧
      (s.storage.save (failure.item s.nextId)).queue = rest ++ [s.nextId] ∧
      ∀ id, (s.storage.save (failure.item s.nextId)).items.get? id =
        if id = s.nextId then some (failure.item s.nextId)
        else if id = oldest then none else s.storage.items.get? id) := by
  have hnew := h.not_contains_nextId
  rcases InMemoryStorage.save_cases h.storage (failure.item s.nextId) with
    ⟨hold, -⟩ | ⟨-, hroom, hsave⟩ | ⟨-, hfull, oldest, rest, hq, hsave⟩
  · exact absurd (hnew.symm.trans hold) (by simp)
  · exact .inl ⟨hroom, by rw [hsave]; rfl, fun id => by rw [hsave]; exact Dict.get?_set ..⟩
  · refine .inr ⟨hfull, oldest, rest, hq, by rw [hsave]; rfl, fun id => ?_⟩
    rw [hsave]
    exact (Dict.get?_set ..).trans (by rw [Dict.get?_erase]; rfl)

/-- **What `requeue` does**: it writes a stored item back in its place with one more retry, or
nothing. -/
theorem Valid.requeue_cases (h : s.Valid) (id : ℕ) :
    (∃ item, s.storage.items.get? id = some item ∧ item.retryCount < item.maxRetries ∧
      s.requeue id = ({ s with
        storage := { s.storage with
          items := s.storage.items.set id { item with retryCount := item.retryCount + 1 } }
        totalRequeued := s.totalRequeued + 1 },
        .item (some { item with retryCount := item.retryCount + 1 }))) ∨
    s.requeue id = (s, .item none) := by
  unfold requeue InMemoryStorage.get
  cases hget : s.storage.items.get? id with
  | none => exact .inr rfl
  | some item =>
    by_cases hretries : item.maxRetries ≤ item.retryCount
    · exact .inr (if_pos hretries)
    · refine .inl ⟨item, rfl, not_le.1 hretries, ?_⟩
      have hid : item.deadLetterId = id := (h.keyed id item hget).1
      have hstored : s.storage.items.contains item.deadLetterId = true := by
        rw [hid, Dict.contains, hget]
        rfl
      dsimp only
      rw [if_neg hretries]
      rcases InMemoryStorage.save_cases h.storage { item with retryCount := item.retryCount + 1 } with
        ⟨-, hsave⟩ | ⟨hnew, -⟩ | ⟨hnew, -⟩
      · rw [hsave, hid]
      · exact absurd (hstored.symm.trans hnew) (by simp)
      · exact absurd (hstored.symm.trans hnew) (by simp)

/-- **Where a stored item comes from**: it was there before, or has just been requeued or
enqueued. -/
theorem Valid.stored_cases (h : s.Valid) {id : ℕ} {item : DeadLetterItem}
    (hitem : (s.step op).1.storage.items.get? id = some item) :
    s.storage.items.get? id = some item ∨
    (op = .requeue id ∧ (s.step op).2 = .item (some item) ∧
      ∃ old, s.storage.items.get? id = some old ∧ old.retryCount < old.maxRetries ∧
        item = { old with retryCount := old.retryCount + 1 }) ∨
    ∃ failure, op = .enqueue failure ∧ id = s.nextId ∧ item = failure.item s.nextId := by
  cases op with
  | enqueue failure =>
    rcases h.enqueue_cases failure with ⟨-, -, hget⟩ | ⟨-, oldest, rest, -, -, hget⟩
    · have hitem := (hget id).symm.trans hitem
      split_ifs at hitem with hnew
      · exact .inr (.inr ⟨failure, rfl, hnew, (Option.some.inj hitem).symm⟩)
      · exact .inl hitem
    · have hitem := (hget id).symm.trans hitem
      split_ifs at hitem with hnew
      · exact .inr (.inr ⟨failure, rfl, hnew, (Option.some.inj hitem).symm⟩)
      · exact .inl hitem
  | requeue id' =>
    rcases h.requeue_cases id' with ⟨old, hold, hretries, heq⟩ | heq
    · simp only [step, heq, Dict.get?_set] at hitem ⊢
      split_ifs at hitem with hid
      · cases hitem
        exact .inr (.inl ⟨by rw [hid], rfl, old, hid ▸ hold, hretries, rfl⟩)
      · exact .inl hitem
    · simp only [step, heq] at hitem
      exact .inl hitem
  | purge id' =>
    refine .inl ?_
    simp only [step, purge, InMemoryStorage.delete] at hitem
    split_ifs at hitem
    · have hitem := (Dict.get?_erase ..).symm.trans hitem
      split_ifs at hitem
      exact hitem
    · exact hitem
  | clearTenant tenantId =>
    have hitem := (InMemoryStorage.get?_clearTenant ..).symm.trans hitem
    exact .inl (Option.filter_eq_some_iff.1 hitem).1
  | get id => exact .inl hitem
  | listItems tenantId limit => exact .inl hitem

theorem nextId_le_step (s : QueueState) (op : QueueOp) : s.nextId ≤ (s.step op).1.nextId := by
  cases op with
  | enqueue failure => exact Nat.le_succ _
  | requeue id =>
    simp only [step, requeue]
    cases s.storage.get id with
    | none => exact le_rfl
    | some item =>
      dsimp only
      split_ifs <;> exact le_rfl
  | purge id | clearTenant tenantId | get id | listItems tenantId limit => exact le_rfl

theorem valid_step (h : s.Valid) (op : QueueOp) : (s.step op).1.Valid := by
  constructor
  · cases op with
    | enqueue failure => exact InMemoryStorage.valid_save h.storage _
    | requeue id =>
      simp only [step, requeue]
      cases s.storage.get id with
      | none => exact h.storage
      | some item =>
        dsimp only
        split_ifs
        · exact h.storage
        · exact InMemoryStorage.valid_save h.storage _
    | purge id => exact InMemoryStorage.valid_delete h.storage id
    | clearTenant tenantId => exact InMemoryStorage.valid_foldl_remove h.storage _
    | get id | listItems tenantId limit => exact h.storage
  · intro id item hitem
    have hle := nextId_le_step s op
    rcases h.stored_cases hitem with hold | ⟨-, -, old, hold, -, rfl⟩ | ⟨failure, rfl, rfl, rfl⟩
    · exact ⟨(h.keyed id item hold).1, (h.keyed id item hold).2.trans_le hle⟩
    · exact ⟨(h.keyed id old hold).1, (h.keyed id old hold).2.trans_le hle⟩
    · exact ⟨rfl, Nat.lt_succ_self _⟩

theorem mem_left {id : ℕ} :
    id ∈ s.left op ↔ id ∈ s.storage.queue ∧ id ∉ (s.step op).1.storage.queue := by
  simp [left]

theorem left_eq_nil (h : s.storage.queue ⊆ (s.step op).1.storage.queue) : s.left op = [] := by
  refine List.filter_eq_nil_iff.2 fun id hid => ?_
  simpa using h hid

theorem queue_requeue (h : s.Valid) (id : ℕ) : (s.requeue id).1.storage.queue = s.storage.queue := by
  rcases h.requeue_cases id with ⟨item, -, -, heq⟩ | heq <;> rw [heq]

/-- **What an `enqueue` evicts**: nothing, or the oldest of a full deque. -/
theorem Valid.left_enqueue (h : s.Valid) (failure : Failure) :
    (s.left (.enqueue failure) = [] ∧
      (s.step (.enqueue failure)).1.storage.queue.length = s.storage.queue.length + 1) ∨
    (s.storage.queue.length = s.storage.maxItems ∧
      s.left (.enqueue failure) = s.storage.queue.take 1 ∧ (s.left (.enqueue failure)).length = 1 ∧
      (s.step (.enqueue failure)).1.storage.queue.length = s.storage.queue.length) := by
  rcases h.enqueue_cases failure with ⟨-, hqueue, -⟩ | ⟨hfull, oldest, rest, hq, hqueue, -⟩
  · have hqueue : (s.step (.enqueue failure)).1.storage.queue = s.storage.queue ++ [s.nextId] := hqueue
    refine .inl ⟨left_eq_nil ?_, ?_⟩
    · rw [hqueue]
      exact List.subset_append_left ..
    · rw [hqueue, List.length_append, List.length_singleton]
  · have hqueue : (s.step (.enqueue failure)).1.storage.queue = rest ++ [s.nextId] := hqueue
    have hnodup := h.storage.nodup_queue
    rw [hq] at hnodup
    obtain ⟨holdest, -⟩ := List.nodup_cons.1 hnodup
    have hne : oldest ≠ s.nextId := by
      rintro rfl
      have hmem : s.nextId ∈ s.storage.queue := hq ▸ List.mem_cons_self ..
      rw [h.storage.mem_queue_iff, h.not_contains_nextId] at hmem
      cases hmem
    have hleft : s.left (.enqueue failure) = [oldest] := by
      rw [left, hqueue, hq, List.filter_cons_of_pos (by simp [holdest, hne])]
      refine congrArg _ (List.filter_eq_nil_iff.2 fun id hid => ?_)
      simp [hid]
    refine .inr ⟨hfull, by rw [hleft, hq]; rfl, by rw [hleft]; rfl, ?_⟩
    rw [hqueue, hq, List.length_append, List.length_singleton, List.length_cons]

/-- **How an identifier leaves**: purged, cleared with its tenant, or evicted as the oldest of
a full deque by a new item. -/
theorem Valid.left_cases (h : s.Valid) {id : ℕ} (hid : id ∈ s.left op) :
    op = .purge id ∨
    (∃ item, s.storage.items.get? id = some item ∧ op = .clearTenant item.tenantId) ∨
    ∃ failure, op = .enqueue failure ∧ s.storage.queue.length = s.storage.maxItems ∧
      s.storage.queue.head? = some id := by
  obtain ⟨hbefore, hafter⟩ := mem_left.1 hid
  have hvalid := valid_step h op
  rw [h.storage.mem_queue_iff, Dict.contains, Option.isSome_iff_exists] at hbefore
  obtain ⟨item, hitem⟩ := hbefore
  cases op with
  | enqueue failure =>
    rcases h.left_enqueue failure with ⟨hnil, -⟩ | ⟨hfull, hleft, -, -⟩
    · rw [hnil] at hid
      cases hid
    · rw [hleft] at hid
      refine .inr (.inr ⟨failure, rfl, hfull, ?_⟩)
      cases hq : s.storage.queue with
      | nil => simp [hq] at hid
      | cons oldest rest =>
        rw [hq] at hid
        rw [List.mem_singleton.1 hid]
        rfl
  | requeue id' =>
    have hqueue : (s.step (.requeue id')).1.storage.queue = s.storage.queue := queue_requeue h id'
    exact absurd (hqueue ▸ (mem_left.1 hid).1) hafter
  | purge id' =>
    refine .inl ?_
    by_contra hne
    refine hafter ?_
    show id ∈ (s.storage.delete id').1.queue
    unfold InMemoryStorage.delete
    split_ifs
    · exact (List.mem_erase_of_ne fun heq => hne (by rw [heq])).2 (mem_left.1 hid).1
    · exact (mem_left.1 hid).1
  | clearTenant tenantId =>
    refine .inr (.inl ⟨item, hitem, ?_⟩)
    by_contra hne
    refine hafter (hvalid.storage.mem_queue_iff.2 ?_)
    have hget : (s.step (.clearTenant tenantId)).1.storage.items.get? id = some item := by
      refine (InMemoryStorage.get?_clearTenant ..).trans ?_
      rw [hitem]
      have htenant : item.tenantId ≠ tenantId := fun heq => hne (by rw [heq])
      simp [Option.filter, htenant]
    rw [Dict.contains, hget]
    rfl
  | get id' => exact absurd (mem_left.1 hid).1 hafter
  | listItems tenantId limit => exact absurd (mem_left.1 hid).1 hafter

/-! ## The ledger -/

/-- A history of the queue. -/
abbrev History : Type := List (Record QueueState QueueOp QueueReply)

/-- Whether an operation saves an item. -/
def saves : QueueOp → Bool
  | .enqueue _ | .requeue _ => true
  | _ => false

/-- How many items an operation evicts: they leave when another is saved. -/
def evicted (s : QueueState) (op : QueueOp) : ℕ := if saves op then (s.left op).length else 0

/-- How many items were evicted. -/
def evictions (history : History) : ℕ := (history.map fun r => r.state.evicted r.action).sum

/-- The identifier that an operation requeues. -/
def requeued : QueueOp → QueueReply → Option ℕ
  | .requeue id, .item (some _) => some id
  | _, _ => none

/-- How often an item was requeued. -/
def requeues (id : ℕ) (history : History) : ℕ :=
  history.countP fun r => requeued r.action r.answer = some id

/-- What the state says about its history. -/
structure Ledger (maxItems : ℕ) (s : QueueState) (history : History) : Prop where
  valid : s.Valid
  maxItems_eq : s.storage.maxItems = maxItems
  balance : s.totalEnqueued = s.storage.queue.length + s.totalPurged + evictions history
  stored : ∀ id item, s.storage.items.get? id = some item →
    item.retryCount = requeues id history ∧ item.retryCount ≤ item.maxRetries ∧ item.maxRetries = 3
  requeues_le : ∀ id, requeues id history ≤ 3
  fresh : ∀ id, s.nextId ≤ id → requeues id history = 0
  enqueued : ∀ r ∈ history, ∀ failure, r.action = .enqueue failure →
    ∃ item, r.answer = .item (some item) ∧ item.maxRetries = 3

variable {maxItems : ℕ} {history : History}

theorem ledger_init (h : 0 < maxItems) : Ledger maxItems (init maxItems) [] where
  valid := valid_init h
  maxItems_eq := rfl
  balance := rfl
  stored := by simp [init, InMemoryStorage.init]
  requeues_le := by simp [requeues]
  fresh := by simp [requeues]
  enqueued := by simp

theorem maxItems_step (s : QueueState) (op : QueueOp) :
    (s.step op).1.storage.maxItems = s.storage.maxItems := by
  cases op with
  | enqueue failure | get id | listItems tenantId limit => rfl
  | requeue id =>
    simp only [step, requeue]
    cases s.storage.get id with
    | none => rfl
    | some item =>
      dsimp only
      split_ifs <;> rfl
  | purge id =>
    simp only [step, purge, InMemoryStorage.delete]
    split_ifs <;> rfl
  | clearTenant tenantId => exact Backends.maxItems_foldl_remove ..

/-- **Every item is accounted for**: what an operation enqueues is stored, purged or evicted. -/
theorem balance_step (h : s.Valid) (op : QueueOp) :
    (s.step op).1.totalEnqueued + s.storage.queue.length + s.totalPurged =
      s.totalEnqueued + (s.step op).1.storage.queue.length + (s.step op).1.totalPurged +
        s.evicted op := by
  cases op with
  | enqueue failure =>
    show s.totalEnqueued + 1 + _ + s.totalPurged = _ + s.totalPurged + (s.left _).length
    rcases h.left_enqueue failure with ⟨hnil, hlength⟩ | ⟨-, -, hone, hlength⟩
    · rw [hnil, hlength, List.length_nil]
      omega
    · rw [hone, hlength]
      omega
  | requeue id =>
    have hqueue : (s.step (.requeue id)).1.storage.queue = s.storage.queue := queue_requeue h id
    have hnil : s.evicted (.requeue id) = 0 := by
      show (s.left _).length = 0
      rw [left_eq_nil (by rw [hqueue]; exact List.Subset.refl _)]
      rfl
    have hcounters : (s.step (.requeue id)).1.totalEnqueued = s.totalEnqueued ∧
        (s.step (.requeue id)).1.totalPurged = s.totalPurged := by
      rcases h.requeue_cases id with ⟨item, -, -, heq⟩ | heq <;> simp [step, heq]
    rw [hqueue, hnil, hcounters.1, hcounters.2]
    omega
  | purge id =>
    have hlength := InMemoryStorage.length_delete h.storage id
    show s.totalEnqueued + _ + _ = s.totalEnqueued + (s.storage.delete id).1.queue.length +
      (if (s.storage.delete id).2 then s.totalPurged + 1 else s.totalPurged) + 0
    split_ifs at hlength ⊢ <;> omega
  | clearTenant tenantId =>
    have hlength := InMemoryStorage.length_clearTenant h.storage tenantId
    show s.totalEnqueued + _ + _ = s.totalEnqueued + (s.storage.clearTenant tenantId).1.queue.length +
      (s.totalPurged + (s.storage.clearTenant tenantId).2) + 0
    omega
  | get id | listItems tenantId limit => rfl

theorem requeues_concat (id : ℕ) (history : History) (r : Record QueueState QueueOp QueueReply) :
    requeues id (history ++ [r]) =
      requeues id history + (if requeued r.action r.answer = some id then 1 else 0) := by
  simp [requeues, List.countP_append, List.countP_singleton]

/-- What a successful `requeue` found and left. -/
theorem Valid.of_requeued (h : s.Valid) {id : ℕ} (hid : requeued op (s.step op).2 = some id) :
    ∃ old, s.storage.items.get? id = some old ∧ old.retryCount < old.maxRetries ∧
      ∀ id', (s.step op).1.storage.items.get? id' =
        if id' = id then some { old with retryCount := old.retryCount + 1 }
        else s.storage.items.get? id' := by
  cases op with
  | requeue id' =>
    rcases h.requeue_cases id' with ⟨old, hold, hretries, heq⟩ | heq
    · simp only [step, heq, requeued, Option.some.injEq] at hid ⊢
      subst hid
      exact ⟨old, hold, hretries, fun _ => Dict.get?_set ..⟩
    · simp [step, heq, requeued] at hid
  | enqueue failure | purge id' | clearTenant tenantId | get id' | listItems tenantId limit => cases hid

/-- **One operation** keeps the ledger. -/
theorem ledger_step (h : Ledger maxItems s history) (op : QueueOp) :
    Ledger maxItems (s.step op).1 (history ++ [⟨s, op, (s.step op).2⟩]) where
  valid := valid_step h.valid op
  maxItems_eq := (maxItems_step s op).trans h.maxItems_eq
  balance := by
    have hstep := balance_step h.valid op
    have hbefore := h.balance
    have hevictions : evictions (history ++ [⟨s, op, (s.step op).2⟩]) =
        evictions history + s.evicted op := by simp [evictions]
    omega
  stored := by
    intro id item hitem
    rw [requeues_concat]
    cases hreq : requeued op (s.step op).2 with
    | some id' =>
      obtain ⟨old, hold, hretries, hget⟩ := h.valid.of_requeued hreq
      rw [hget id] at hitem
      split_ifs at hitem with hid
      · cases hitem
        obtain ⟨hcount, -, hmax⟩ := h.stored id' old hold
        rw [hid, if_pos rfl, ← hcount]
        exact ⟨rfl, hretries, hmax⟩
      · have hne : ¬some id' = some id := fun heq => hid (Option.some.inj heq).symm
        rw [if_neg hne]
        exact h.stored id item hitem
    | none =>
      rw [if_neg (by simp), add_zero]
      rcases h.valid.stored_cases hitem with hold | ⟨hop, hanswer, -⟩ | ⟨failure, -, rfl, rfl⟩
      · exact h.stored id item hold
      · rw [hanswer, hop] at hreq
        cases hreq
      · exact ⟨(h.fresh _ le_rfl).symm, Nat.zero_le _, rfl⟩
  requeues_le := by
    intro id
    rw [requeues_concat]
    split_ifs with hreq
    · obtain ⟨old, hold, hretries, -⟩ := h.valid.of_requeued hreq
      obtain ⟨hcount, -, hmax⟩ := h.stored id old hold
      omega
    · exact h.requeues_le id
  fresh := by
    intro id hid
    have hid : s.nextId ≤ id := (nextId_le_step s op).trans hid
    rw [requeues_concat, h.fresh id hid, zero_add]
    refine if_neg fun hreq => ?_
    obtain ⟨old, hold, -⟩ := h.valid.of_requeued hreq
    exact absurd (h.valid.keyed id old hold).2 (not_lt.2 hid)
  enqueued := by
    intro r hr failure hfailure
    rcases List.mem_append.1 hr with hr | hr
    · exact h.enqueued r hr failure hfailure
    · rw [List.mem_singleton.1 hr] at hfailure ⊢
      exact ⟨failure.item s.nextId, by rw [show op = .enqueue failure from hfailure]; rfl, rfl⟩

/-- **A whole run** keeps the ledger. -/
theorem ledger_run (h : Ledger maxItems s history) (ops : List QueueOp) :
    Ledger maxItems (run (recorded step) (s, history) ops).1
      (run (recorded step) (s, history) ops).2 := by
  induction ops generalizing s history with
  | nil => exact h
  | cons op ops ih => exact ih (ledger_step h op)

/-- **The dead-letter queue over its runs.**  Deque and dictionary hold the same identifiers in
the same order, without duplicates and within the bound; an identifier leaves only when it is
purged, when its tenant is cleared, or as the oldest of a full deque when a new item arrives;
no item is requeued more often than its retries allow; and what was enqueued is stored, purged
or evicted. -/
theorem deadLetter_runs (maxItems : ℕ) (hpos : 1 ≤ maxItems) (ops : List QueueOp) :
    let final := run (recorded step) (init maxItems, []) ops
    let s := final.1
    let history := final.2
    (s.storage.items.keys = s.storage.queue ∧ s.storage.queue.Nodup ∧
      s.storage.queue.length ≤ maxItems) ∧
    (∀ op, ∀ id ∈ s.left op,
      op = .purge id ∨
      (∃ item, s.storage.items.get? id = some item ∧ op = .clearTenant item.tenantId) ∨
      ∃ failure, op = .enqueue failure ∧ s.storage.queue.length = maxItems ∧
        s.storage.queue.head? = some id) ∧
    (∀ r ∈ history, ∀ failure item, r.action = .enqueue failure → r.answer = .item (some item) →
      requeues item.deadLetterId history ≤ item.maxRetries) ∧
    s.totalEnqueued = s.storage.queue.length + s.totalPurged + evictions history := by
  intro final s history
  have hledger : Ledger maxItems s history := ledger_run (ledger_init hpos) ops
  refine ⟨⟨hledger.valid.storage.keys_eq, hledger.valid.storage.nodup_queue, ?_⟩,
    fun op id hid => ?_, fun r hr failure item hop hanswer => ?_, hledger.balance⟩
  · rw [← hledger.maxItems_eq]
    exact hledger.valid.storage.bounded
  · rw [← hledger.maxItems_eq]
    exact hledger.valid.left_cases hid
  · obtain ⟨item', hanswer', hmax⟩ := hledger.enqueued r hr failure hop
    obtain rfl : item' = item := by simpa [hanswer'] using hanswer
    rw [hmax]
    exact hledger.requeues_le _

/-- A queue of two: an item that is requeued keeps its place, so the third one drives it
out. -/
theorem deadLetter_runs_two :
    let failure : Failure := ⟨.ofNat 1, .ofNat 2, .imap, "poison", "boom", none, none⟩
    let ops : List QueueOp :=
      [.enqueue failure, .enqueue failure, .requeue 0, .enqueue failure, .purge 1]
    let final := run (recorded step) (init 2, []) ops
    final.1.storage.queue = [2] ∧ evictions final.2 = 1 ∧
      final.1.totalEnqueued = final.1.storage.queue.length + final.1.totalPurged +
        evictions final.2 := by
  intro failure ops final
  exact ⟨by decide +kernel, by decide +kernel, (deadLetter_runs 2 (by decide) ops).2.2.2⟩

end QueueState
end ScamOn.IngestionGateway
