import ScamOn.Lib.Dict
import ScamOn.Lib.RingBuffer
import ScamOn.Lib.Text

/-!
# The dead-letter queue

`DeadLetterQueue` over `InMemoryDeadLetterStorage`: a dictionary of quarantined
items, and beside it a bounded deque of their identifiers.  A new item that finds
the deque full takes the place of the oldest.

* `enqueue` is the one operation ingestion uses; the identifiers that `uuid4`
  draws are numbered in the order they are drawn.
* `values_enqueue`: the items held are the last `max_items` ever enqueued.
-/

namespace ScamOn.IngestionGateway

/-- `MailboxProvider`. -/
inductive MailboxProvider
  | msGraph | gmail | imap
  deriving DecidableEq, Repr

/-- `DeadLetterItemDTO`, without timestamp, correlation id and traceback. -/
structure DeadLetterItem where
  deadLetterId : ℕ
  tenantId : Uuid
  accountId : Uuid
  provider : MailboxProvider
  reason : String
  providerMessageId : Option String
  rawPayload : Option String
  errorMessage : String
  retryCount : ℕ
  maxRetries : ℕ
  deriving DecidableEq

/-- `DeadLetterQueue` with its in-memory storage, and the next identifier. -/
structure DeadLetterQueue where
  maxItems : ℕ
  queue : List ℕ
  items : Dict ℕ DeadLetterItem
  totalEnqueued : ℕ
  nextId : ℕ

def DeadLetterQueue.init (maxItems : ℕ) : DeadLetterQueue := ⟨maxItems, [], ∅, 0, 0⟩

namespace DeadLetterQueue

/-- `InMemoryDeadLetterStorage.save`. -/
def save (q : DeadLetterQueue) (item : DeadLetterItem) : DeadLetterQueue :=
  let items :=
    match q.queue with
    | oldestId :: _ =>
      if q.items.contains item.deadLetterId = false ∧ q.queue.length = q.maxItems then
        q.items.erase oldestId
      else q.items
    | [] => q.items
  { q with
    queue :=
      if items.contains item.deadLetterId then q.queue
      else keepLast q.maxItems (q.queue ++ [item.deadLetterId])
    items := items.set item.deadLetterId item }

/-- The arguments of `enqueue`. -/
structure Failure where
  tenantId : Uuid
  accountId : Uuid
  provider : MailboxProvider
  reason : String
  errorMessage : String
  providerMessageId : Option String
  rawPayload : Option String

/-- The payload that is kept: at most 8192 characters, and `None` for none. -/
def boundedPayload : Option String → Option String
  | some s => if s = "" then none else some (String.ofList (s.toList.take 8192))
  | none => none

/-- The item made of a failure. -/
def Failure.item (f : Failure) (id : ℕ) : DeadLetterItem where
  deadLetterId := id
  tenantId := f.tenantId
  accountId := f.accountId
  provider := f.provider
  reason := f.reason
  providerMessageId := f.providerMessageId
  rawPayload := boundedPayload f.rawPayload
  errorMessage := f.errorMessage
  retryCount := 0
  maxRetries := 3

/-- `enqueue`. -/
def enqueue (q : DeadLetterQueue) (f : Failure) : DeadLetterQueue :=
  { q.save (f.item q.nextId) with totalEnqueued := q.totalEnqueued + 1, nextId := q.nextId + 1 }

/-! ## A ring buffer -/

/-- Deque and dictionary hold the same identifiers in the same order, no more
than the bound, all of them drawn before. -/
structure Valid (q : DeadLetterQueue) : Prop where
  keys_eq : q.items.keys = q.queue
  bounded : q.queue.length ≤ q.maxItems
  drawn : ∀ id ∈ q.queue, id < q.nextId

theorem valid_init (maxItems : ℕ) : (init maxItems).Valid :=
  ⟨rfl, Nat.zero_le _, fun _ h => by cases h⟩

variable {q : DeadLetterQueue}

theorem Valid.get?_nextId (h : q.Valid) : q.items.get? q.nextId = none := by
  by_contra hsome
  obtain ⟨item, hitem⟩ := Option.ne_none_iff_exists'.1 hsome
  have hmem : q.nextId ∈ q.items.keys :=
    List.mem_map_of_mem (f := Prod.fst) (Dict.mem_entries_iff.2 hitem)
  rw [h.keys_eq] at hmem
  exact absurd (h.drawn _ hmem) (Nat.lt_irrefl _)

theorem contains_erase_of_not {item : DeadLetterItem}
    (hnew : q.items.contains item.deadLetterId = false) (id : ℕ) :
    (q.items.erase id).contains item.deadLetterId = false := by
  rw [Dict.contains, Option.isSome_eq_false_iff, Option.isNone_iff_eq_none] at hnew ⊢
  rw [Dict.get?_erase, hnew, ite_self]

theorem save_of_room {item : DeadLetterItem} (hnew : q.items.contains item.deadLetterId = false)
    (hroom : q.queue.length ≠ q.maxItems) :
    q.save item =
      { q with
        queue := keepLast q.maxItems (q.queue ++ [item.deadLetterId])
        items := q.items.set item.deadLetterId item } := by
  unfold save
  cases hq : q.queue with
  | nil => simp [hnew]
  | cons oldest rest =>
    rw [hq, List.length_cons] at hroom
    simp [hnew, hroom]

theorem save_of_full {item : DeadLetterItem} (hnew : q.items.contains item.deadLetterId = false)
    (hfull : q.queue.length = q.maxItems) {oldest : ℕ} {rest : List ℕ}
    (hq : q.queue = oldest :: rest) :
    q.save item =
      { q with
        queue := keepLast q.maxItems (q.queue ++ [item.deadLetterId])
        items := (q.items.erase oldest).set item.deadLetterId item } := by
  have hgone := contains_erase_of_not hnew oldest
  rw [hq] at hfull
  unfold save
  simp [hq, hnew, hfull, hgone]

/-- An item under a new identifier goes to the end, and the oldest item makes
room for it if there is none. -/
theorem items_enqueue (h : q.Valid) (hmax : 0 < q.maxItems) (f : Failure) :
    (q.enqueue f).items.entries =
      keepLast q.maxItems (q.items.entries ++ [(q.nextId, f.item q.nextId)]) ∧
    (q.enqueue f).queue = keepLast q.maxItems (q.queue ++ [q.nextId]) := by
  have hlength : q.items.entries.length = q.queue.length := by
    rw [← h.keys_eq, Dict.keys, List.length_map]
  have hnew : q.items.contains (f.item q.nextId).deadLetterId = false := by
    show q.items.contains q.nextId = false
    rw [Dict.contains, h.get?_nextId]
    rfl
  unfold enqueue
  by_cases hfull : q.queue.length = q.maxItems
  · -- a full queue is not empty, and its head is the key of the oldest entry
    obtain ⟨⟨oldest, v⟩, entries, hentries⟩ : ∃ p entries, q.items.entries = p :: entries :=
      List.exists_cons_of_length_pos (by omega)
    have hq : q.queue = oldest :: entries.map Prod.fst := by
      rw [← h.keys_eq, Dict.keys, hentries]
      rfl
    have hgone : (q.items.erase oldest).get? q.nextId = none := by
      rw [Dict.get?_erase, h.get?_nextId, ite_self]
    rw [save_of_full hnew hfull hq]
    refine ⟨?_, rfl⟩
    show ((q.items.erase oldest).set q.nextId _).entries = _
    rw [Dict.entries_set_of_get?_eq_none hgone, Dict.entries_erase_head hentries, hentries]
    have hdrop : entries.length + 1 = q.maxItems := by
      rw [← hfull, ← hlength, hentries, List.length_cons]
    simp [keepLast, ← hdrop]
  · have hroom : q.queue.length + 1 ≤ q.maxItems := by
      have hle := h.bounded
      omega
    rw [save_of_room hnew hfull]
    refine ⟨?_, rfl⟩
    show (q.items.set q.nextId _).entries = _
    rw [Dict.entries_set_of_get?_eq_none h.get?_nextId, keepLast_of_length_le]
    rw [List.length_append, hlength]
    exact hroom

theorem valid_enqueue (h : q.Valid) (hmax : 0 < q.maxItems) (f : Failure) :
    (q.enqueue f).Valid := by
  obtain ⟨hitems, hqueue⟩ := items_enqueue h hmax f
  have hkeys : (q.enqueue f).items.keys = (q.enqueue f).queue := by
    rw [Dict.keys, hitems, hqueue, ← h.keys_eq, Dict.keys, keepLast, keepLast, List.map_drop]
    simp
  refine ⟨hkeys, ?_, ?_⟩
  · rw [hqueue, length_keepLast]
    exact Nat.min_le_left _ _
  · intro id hid
    rw [hqueue] at hid
    rcases List.mem_append.1 (List.mem_of_mem_drop hid) with hold | hnew
    · exact Nat.lt_succ_of_lt (h.drawn id hold)
    · rw [List.mem_singleton.1 hnew]
      exact Nat.lt_succ_self _

/-- **The last items.**  A queue that holds the last items of a history holds
them still after another one is enqueued. -/
theorem values_enqueue (h : q.Valid) (hmax : 0 < q.maxItems) {history : List DeadLetterItem}
    (hvalues : q.items.values = keepLast q.maxItems history) (f : Failure) :
    (q.enqueue f).items.values = keepLast q.maxItems (history ++ [f.item q.nextId]) := by
  have hpush : (q.enqueue f).items.values =
      keepLast q.maxItems (q.items.values ++ [f.item q.nextId]) := by
    rw [Dict.values, (items_enqueue h hmax f).1, keepLast, keepLast, List.map_drop, Dict.values]
    simp
  rw [hpush, hvalues, keepLast_push]

end DeadLetterQueue

end ScamOn.IngestionGateway
