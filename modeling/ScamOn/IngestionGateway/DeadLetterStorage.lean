import Mathlib.Algebra.Order.Field.Rat
import Mathlib.Data.List.Sort
import ScamOn.Lib.Loop
import ScamOn.IngestionGateway.DeadLetter

/-!
# The two dead-letter storages

`IDeadLetterStorage` has two implementations.  `InMemoryDeadLetterStorage` keeps a
dictionary and a bounded deque of identifiers, and lists the oldest items first.
`FileBackedDeadLetterStorage` keeps one file per item, takes the time of the last
write for its age, and lists the newest items first.

* `InMemoryStorage` and `FileStorage` are the two; `Backends.step` runs an operation
  on both.
* `Interchangeable`: the two hold the same items, count the same, and list the same
  items once the limit leaves none out.
* `backends_interchangeable`: this holds throughout a run exactly when the two evict
  the same item each time; in a run that saves no stored item again they do, and the
  lists are the reverse of each other.
* `backends_differ`: an item that was saved again survives in files only, and a limit
  cuts the lists at different ends.
-/

namespace ScamOn.IngestionGateway

/-! ## In memory -/

/-- `InMemoryDeadLetterStorage`. -/
structure InMemoryStorage where
  maxItems : ℕ
  queue : List ℕ
  items : Dict ℕ DeadLetterItem

/-- The storage of a queue. -/
def DeadLetterQueue.storage (q : DeadLetterQueue) : InMemoryStorage := ⟨q.maxItems, q.queue, q.items⟩

/-- `l[:limit]`: a negative limit counts from the end. -/
def sliceTo {α : Type*} (l : List α) (limit : ℤ) : List α :=
  if 0 ≤ limit then l.take limit.toNat else l.take (l.length + limit).toNat

/-- `tenant_id is None or item.tenant_id == tenant_id`. -/
def ofTenant (tenantId : Option Uuid) (item : DeadLetterItem) : Bool :=
  match tenantId with
  | none => true
  | some tenant => item.tenantId = tenant

namespace InMemoryStorage

def init (maxItems : ℕ) : InMemoryStorage := ⟨maxItems, [], ∅⟩

/-- `save`. -/
def save (s : InMemoryStorage) (item : DeadLetterItem) : InMemoryStorage :=
  let items :=
    match s.queue with
    | oldestId :: _ =>
      if s.items.contains item.deadLetterId = false ∧ s.queue.length = s.maxItems then
        s.items.erase oldestId
      else s.items
    | [] => s.items
  { s with
    queue :=
      if items.contains item.deadLetterId then s.queue
      else keepLast s.maxItems (s.queue ++ [item.deadLetterId])
    items := items.set item.deadLetterId item }

/-- `get`. -/
def get (s : InMemoryStorage) (id : ℕ) : Option DeadLetterItem := s.items.get? id

/-- `list_items`. -/
def listItems (s : InMemoryStorage) (tenantId : Option Uuid) (limit : ℤ) : List DeadLetterItem :=
  sliceTo (s.items.values.filter (ofTenant tenantId)) limit

/-- Take an identifier out of dictionary and deque. -/
def remove (s : InMemoryStorage) (id : ℕ) : InMemoryStorage :=
  { s with items := s.items.erase id, queue := s.queue.erase id }

/-- `delete`. -/
def delete (s : InMemoryStorage) (id : ℕ) : InMemoryStorage × Bool :=
  if s.items.contains id then (s.remove id, true) else (s, false)

/-- `clear_tenant`. -/
def clearTenant (s : InMemoryStorage) (tenantId : Uuid) : InMemoryStorage × ℕ :=
  let targetIds := (s.items.entries.filter fun p => p.2.tenantId = tenantId).map Prod.fst
  (targetIds.foldl remove s, targetIds.length)

/-- `count`. -/
def count (s : InMemoryStorage) (tenantId : Option Uuid) : ℕ :=
  (s.items.values.filter (ofTenant tenantId)).length

end InMemoryStorage

/-- The queue saves as its storage does. -/
theorem DeadLetterQueue.storage_save (q : DeadLetterQueue) (item : DeadLetterItem) :
    (q.save item).storage = q.storage.save item := rfl

/-! ## In files -/

/-- `FileBackedDeadLetterStorage`: the files of its directory, each with the item it
holds and the time of its last write. -/
structure FileStorage where
  maxItems : ℕ
  files : Dict ℕ (DeadLetterItem × ℚ)

namespace FileStorage

/-- A file of the directory. -/
abbrev File : Type := ℕ × DeadLetterItem × ℚ

def init (maxItems : ℕ) : FileStorage := ⟨maxItems, ∅⟩

/-- `existing_files.sort(key=os.path.getmtime)`. -/
def byMtime (s : FileStorage) : List File :=
  s.files.entries.insertionSort fun f g => f.2.2 ≤ g.2.2

/-- `sorted(files, key=os.path.getmtime, reverse=True)`. -/
def byMtimeReverse (s : FileStorage) : List File :=
  s.files.entries.insertionSort fun f g => g.2.2 ≤ f.2.2

/-- `save` at the time `now`.  (The list of files is not empty when one is evicted, as
`max_items` is at least one.) -/
def save (s : FileStorage) (now : ℚ) (item : DeadLetterItem) : FileStorage :=
  let files :=
    if s.files.contains item.deadLetterId = false ∧ s.maxItems ≤ s.files.entries.length then
      match s.byMtime with
      | oldestFile :: _ => s.files.erase oldestFile.1
      | [] => s.files
    else s.files
  { s with files := files.set item.deadLetterId (item, now) }

/-- `get`. -/
def get (s : FileStorage) (id : ℕ) : Option DeadLetterItem := (s.files.get? id).map Prod.fst

/-- The loop of `list_items`: it looks at the limit after each item it takes. -/
def listLoop (tenantId : Option Uuid) (limit : ℤ) :
    List DeadLetterItem → List DeadLetterItem → List DeadLetterItem
  | items, [] => items
  | items, dto :: rest =>
    if ofTenant tenantId dto then
      let items := items ++ [dto]
      if limit ≤ items.length then items else listLoop tenantId limit items rest
    else listLoop tenantId limit items rest

/-- `list_items`. -/
def listItems (s : FileStorage) (tenantId : Option Uuid) (limit : ℤ) : List DeadLetterItem :=
  listLoop tenantId limit [] (s.byMtimeReverse.map fun f => f.2.1)

/-- `delete`. -/
def delete (s : FileStorage) (id : ℕ) : FileStorage × Bool :=
  if s.files.contains id then ({ s with files := s.files.erase id }, true) else (s, false)

/-- `clear_tenant`, which compares the tenants' texts. -/
def clearTenant (s : FileStorage) (tenantId : Uuid) : FileStorage × ℕ :=
  let kept := s.files.filter fun f => f.2.1.tenantId.str ≠ tenantId.str
  ({ s with files := kept }, s.files.entries.length - kept.entries.length)

/-- `count`. -/
def count (s : FileStorage) (tenantId : Option Uuid) : ℕ :=
  match tenantId with
  | none => s.files.entries.length
  | some tenant => (s.listItems (some tenant) s.maxItems).length

end FileStorage

/-! ## Both -/

/-- An operation that changes a storage. -/
inductive StorageOp
  | save (item : DeadLetterItem)
  | delete (id : ℕ)
  | clearTenant (tenantId : Uuid)

/-- An operation and the instant at which it runs. -/
structure TimedStorageOp where
  now : ℚ
  op : StorageOp

/-- The two storages of one history. -/
structure Backends where
  memory : InMemoryStorage
  file : FileStorage

namespace Backends

def init (maxItems : ℕ) : Backends := ⟨.init maxItems, .init maxItems⟩

/-- One operation, on both. -/
def step (b : Backends) (a : TimedStorageOp) : Backends × Unit :=
  match a.op with
  | .save item => (⟨b.memory.save item, b.file.save a.now item⟩, ())
  | .delete id => (⟨(b.memory.delete id).1, (b.file.delete id).1⟩, ())
  | .clearTenant tenantId =>
    (⟨(b.memory.clearTenant tenantId).1, (b.file.clearTenant tenantId).1⟩, ())

end Backends

/-! ## Saving -/

namespace InMemoryStorage

variable {s : InMemoryStorage}

/-- Deque and dictionary hold the same identifiers in the same order, no more than the
bound. -/
structure Valid (s : InMemoryStorage) : Prop where
  pos : 0 < s.maxItems
  keys_eq : s.items.keys = s.queue
  bounded : s.queue.length ≤ s.maxItems

theorem valid_init {maxItems : ℕ} (h : 0 < maxItems) : (init maxItems).Valid :=
  ⟨h, rfl, Nat.zero_le _⟩

/-- **What `save` does**: it overwrites a stored item in its place, appends a new one, or
appends it in exchange for the oldest. -/
theorem save_cases (h : s.Valid) (item : DeadLetterItem) :
    (s.items.contains item.deadLetterId = true ∧
      s.save item = { s with items := s.items.set item.deadLetterId item }) ∨
    (s.items.contains item.deadLetterId = false ∧ s.queue.length < s.maxItems ∧
      s.save item = { s with
        queue := s.queue ++ [item.deadLetterId]
        items := s.items.set item.deadLetterId item }) ∨
    (s.items.contains item.deadLetterId = false ∧ s.queue.length = s.maxItems ∧
      ∃ oldest rest, s.queue = oldest :: rest ∧
        s.save item = { s with
          queue := rest ++ [item.deadLetterId]
          items := (s.items.erase oldest).set item.deadLetterId item }) := by
  have hpos := h.pos
  have hbounded := h.bounded
  rcases hnew : s.items.contains item.deadLetterId with _ | _
  · right
    by_cases hfull : s.queue.length = s.maxItems
    · obtain ⟨oldest, rest, hq⟩ : ∃ oldest rest, s.queue = oldest :: rest :=
        List.exists_cons_of_length_pos (by omega)
      have hsave : s.save item = { s with
          queue := keepLast s.maxItems (s.queue ++ [item.deadLetterId])
          items := (s.items.erase oldest).set item.deadLetterId item } :=
        congrArg DeadLetterQueue.storage
          (DeadLetterQueue.save_of_full (q := ⟨s.maxItems, s.queue, s.items, 0, 0⟩) hnew hfull hq)
      have hkeep : keepLast s.maxItems (s.queue ++ [item.deadLetterId]) =
          rest ++ [item.deadLetterId] := by
        rw [hq, List.length_cons] at hfull
        simp [keepLast, hq, ← hfull]
      rw [hkeep] at hsave
      exact .inr ⟨rfl, hfull, oldest, rest, hq, hsave⟩
    · have hsave : s.save item = { s with
          queue := keepLast s.maxItems (s.queue ++ [item.deadLetterId])
          items := s.items.set item.deadLetterId item } :=
        congrArg DeadLetterQueue.storage
          (DeadLetterQueue.save_of_room (q := ⟨s.maxItems, s.queue, s.items, 0, 0⟩) hnew hfull)
      rw [keepLast_of_length_le (by rw [List.length_append, List.length_singleton]; omega)] at hsave
      exact .inl ⟨rfl, by omega, hsave⟩
  · left
    refine ⟨rfl, ?_⟩
    unfold save
    rcases hq : s.queue with _ | ⟨oldest, rest⟩
    · simp [hnew]
    · simp [hnew]

theorem valid_save (h : s.Valid) (item : DeadLetterItem) : (s.save item).Valid := by
  have hkeys := h.keys_eq
  have hbounded := h.bounded
  have habsent : ∀ {d : Dict ℕ DeadLetterItem}, d.contains item.deadLetterId = false →
      d.get? item.deadLetterId = none := by
    intro d hd
    simpa [Dict.contains] using hd
  rcases save_cases h item with ⟨hold, hsave⟩ | ⟨hnew, hroom, hsave⟩ | ⟨hnew, hfull, oldest, rest, hq, hsave⟩
  · rw [hsave]
    exact ⟨h.pos, (Dict.keys_set_of_contains hold item).trans hkeys, hbounded⟩
  · rw [hsave]
    refine ⟨h.pos, ?_, ?_⟩
    · rw [Dict.keys_set_of_get?_eq_none (habsent hnew), hkeys]
    · rw [List.length_append, List.length_singleton]
      exact hroom
  · rw [hsave]
    have hgone := habsent (DeadLetterQueue.contains_erase_of_not
      (q := ⟨s.maxItems, s.queue, s.items, 0, 0⟩) hnew oldest)
    refine ⟨h.pos, ?_, ?_⟩
    · rw [Dict.keys_set_of_get?_eq_none hgone, Dict.keys_erase_head (hkeys.trans hq)]
    · rw [hq, List.length_cons] at hfull
      rw [List.length_append, List.length_singleton]
      exact hfull.le

theorem valid_remove (h : s.Valid) (id : ℕ) : (s.remove id).Valid := by
  have hnodup : s.queue.Nodup := h.keys_eq ▸ s.items.nodup
  refine ⟨h.pos, ?_, (List.length_erase_le).trans h.bounded⟩
  show (s.items.erase id).keys = s.queue.erase id
  rw [hnodup.erase_eq_filter, ← h.keys_eq, Dict.keys_erase]
  refine List.filter_congr fun k _ => ?_
  by_cases hk : k = id
  · simp [hk]
  · simp [hk]

theorem valid_foldl_remove (h : s.Valid) (ids : List ℕ) : (ids.foldl remove s).Valid := by
  induction ids generalizing s with
  | nil => exact h
  | cons id ids ih => exact ih (valid_remove h id)

end InMemoryStorage
/-! ## The same items -/

namespace Backends

variable {b : Backends} {a : TimedStorageOp}

/-- A dictionary of items and a directory of files hold the same items. -/
def SameItems (items : Dict ℕ DeadLetterItem) (files : Dict ℕ (DeadLetterItem × ℚ)) : Prop :=
  ∀ id, items.get? id = (files.get? id).map Prod.fst

section SameItems

variable {items : Dict ℕ DeadLetterItem} {files : Dict ℕ (DeadLetterItem × ℚ)}

theorem SameItems.set (h : SameItems items files) (id : ℕ) (item : DeadLetterItem) (now : ℚ) :
    SameItems (items.set id item) (files.set id (item, now)) := by
  intro id'
  rw [Dict.get?_set, Dict.get?_set]
  split_ifs
  · rfl
  · exact h id'

theorem SameItems.erase (h : SameItems items files) (id : ℕ) :
    SameItems (items.erase id) (files.erase id) := by
  intro id'
  rw [Dict.get?_erase, Dict.get?_erase]
  split_ifs
  · rfl
  · exact h id'

theorem SameItems.contains_eq (h : SameItems items files) (id : ℕ) :
    items.contains id = files.contains id := by
  rw [Dict.contains, Dict.contains, h id, Option.isSome_map]

theorem SameItems.keys_perm (h : SameItems items files) : items.keys.Perm files.keys := by
  refine (List.perm_ext_iff_of_nodup items.nodup files.nodup).2 fun id => ?_
  show id ∈ items.keys ↔ id ∈ files.keys
  rw [Dict.mem_keys_iff, Dict.mem_keys_iff]
  exact Bool.eq_iff_iff.1 (h.contains_eq id)

/-- A file without its time. -/
def entryOf (f : FileStorage.File) : ℕ × DeadLetterItem := (f.1, f.2.1)

/-- The entries are the same too, up to order. -/
theorem SameItems.entries_perm (h : SameItems items files) :
    items.entries.Perm (files.entries.map entryOf) := by
  have hnodup : (files.entries.map entryOf).Nodup := by
    refine List.Nodup.of_map Prod.fst ?_
    rw [List.map_map]
    exact files.nodup
  refine (List.perm_ext_iff_of_nodup (List.Nodup.of_map Prod.fst items.nodup) hnodup).2 ?_
  rintro ⟨id, item⟩
  rw [Dict.mem_entries_iff, h id, Option.map_eq_some_iff, List.mem_map]
  constructor
  · rintro ⟨file, hfile, rfl⟩
    exact ⟨(id, file), Dict.mem_entries_iff.2 hfile, rfl⟩
  · rintro ⟨⟨id', file⟩, hfile, heq⟩
    obtain ⟨rfl, rfl⟩ := Prod.mk.inj heq
    exact ⟨file, Dict.mem_entries_iff.1 hfile, rfl⟩

end SameItems

/-- What holds of the two storages after any history. -/
structure WellFormed (b : Backends) : Prop where
  valid : b.memory.Valid
  maxItems_eq : b.file.maxItems = b.memory.maxItems

/-- The two storages hold the same items. -/
structure Linked (b : Backends) : Prop extends b.WellFormed where
  items : SameItems b.memory.items b.file.files

/-- When a save evicts, the item that has been stored longest is the one whose last
save is longest ago. -/
def EvictsAlike (b : Backends) (a : TimedStorageOp) : Prop :=
  match a.op with
  | .save item => b.memory.items.contains item.deadLetterId = false →
      b.memory.queue.length = b.memory.maxItems →
      b.memory.queue.head? = b.file.byMtime.head?.map Prod.fst
  | _ => True

instance (b : Backends) (a : TimedStorageOp) : Decidable (b.EvictsAlike a) :=
  match a with
  | ⟨_, .save item⟩ =>
    inferInstanceAs (Decidable (b.memory.items.contains item.deadLetterId = false →
      b.memory.queue.length = b.memory.maxItems →
      b.memory.queue.head? = b.file.byMtime.head?.map Prod.fst))
  | ⟨_, .delete _⟩ => isTrue trivial
  | ⟨_, .clearTenant _⟩ => isTrue trivial

theorem wellFormed_init {maxItems : ℕ} (h : 0 < maxItems) : (init maxItems).WellFormed :=
  ⟨InMemoryStorage.valid_init h, rfl⟩

theorem linked_init {maxItems : ℕ} (h : 0 < maxItems) : (init maxItems).Linked :=
  ⟨wellFormed_init h, fun _ => rfl⟩

theorem Linked.length_files (h : b.Linked) :
    b.file.files.entries.length = b.memory.queue.length := by
  have hlength := h.items.keys_perm.length_eq
  rw [h.valid.keys_eq, Dict.keys, List.length_map] at hlength
  exact hlength.symm

/-- Without eviction, a file is written. -/
theorem file_save_of_room {s : FileStorage} (now : ℚ) {item : DeadLetterItem}
    (h : ¬(s.files.contains item.deadLetterId = false ∧ s.maxItems ≤ s.files.entries.length)) :
    s.save now item = { s with files := s.files.set item.deadLetterId (item, now) } := by
  simp only [FileStorage.save, if_neg h]

/-- When the in-memory storage evicts, so does the file storage. -/
theorem Linked.file_save_of_full (h : b.Linked) (now : ℚ) {item : DeadLetterItem}
    (hnew : b.memory.items.contains item.deadLetterId = false)
    (hfull : b.memory.queue.length = b.memory.maxItems) :
    ∃ f files, b.file.byMtime = f :: files ∧ b.file.save now item =
      { b.file with files := (b.file.files.erase f.1).set item.deadLetterId (item, now) } := by
  have hpos := h.valid.pos
  have hlength := h.length_files
  have hmax := h.maxItems_eq
  have hevicts : b.file.files.contains item.deadLetterId = false ∧
      b.file.maxItems ≤ b.file.files.entries.length :=
    ⟨h.items.contains_eq item.deadLetterId ▸ hnew, by omega⟩
  have hsort : b.file.byMtime.length = b.file.files.entries.length := List.length_insertionSort ..
  obtain ⟨f, files, hsorted⟩ : ∃ f files, b.file.byMtime = f :: files :=
    List.exists_cons_of_length_pos (by omega)
  refine ⟨f, files, hsorted, ?_⟩
  simp only [FileStorage.save, if_pos hevicts, hsorted]

theorem sameItems_save (h : b.Linked) (now : ℚ) (item : DeadLetterItem)
    (ha : b.EvictsAlike ⟨now, .save item⟩) :
    SameItems (b.memory.save item).items (b.file.save now item).files := by
  have hcontains := h.items.contains_eq item.deadLetterId
  have hlength := h.length_files
  have hmax := h.maxItems_eq
  rcases InMemoryStorage.save_cases h.valid item with
    ⟨hold, hsave⟩ | ⟨hnew, hroom, hsave⟩ | ⟨hnew, hfull, oldest, rest, hq, hsave⟩
  · rw [hsave, file_save_of_room now (by rw [← hcontains, hold]; simp)]
    exact h.items.set _ _ _
  · rw [hsave, file_save_of_room now (by omega)]
    exact h.items.set _ _ _
  · -- both evict `oldest`
    obtain ⟨f, files, hsorted, hfile⟩ := h.file_save_of_full now hnew hfull
    obtain rfl : oldest = f.1 := by
      have hhead := ha hnew hfull
      rw [hq, hsorted] at hhead
      exact Option.some.inj hhead
    rw [hsave, hfile]
    exact (h.items.erase _).set _ _ _

theorem sameItems_delete (h : b.Linked) (id : ℕ) :
    SameItems (b.memory.delete id).1.items (b.file.delete id).1.files := by
  have hcontains := h.items.contains_eq id
  unfold InMemoryStorage.delete FileStorage.delete
  rcases hid : b.memory.items.contains id with _ | _
  · simp only [← hcontains, hid, Bool.false_eq_true, if_false]
    exact h.items
  · simp only [← hcontains, hid, if_true]
    exact h.items.erase id

theorem sameItems_clearTenant (h : b.Linked) (tenantId : Uuid) :
    SameItems (b.memory.clearTenant tenantId).1.items (b.file.clearTenant tenantId).1.files := by
  intro id
  have hstep : ∀ (s : InMemoryStorage) id', (s.remove id').items.get? id =
      if decide (id = id') then none else s.items.get? id := by
    intro s id'
    rw [InMemoryStorage.remove, Dict.get?_erase]
    simp
  have hfold := Loop.get_foldl_of_erasing (g := fun s : InMemoryStorage => s.items.get? id) hstep
    b.memory ((b.memory.items.entries.filter fun p => p.2.tenantId = tenantId).map Prod.fst)
  refine hfold.trans ?_
  have hfilter : ((b.file.clearTenant tenantId).1.files.get? id) =
      (b.file.files.get? id).filter fun f => f.1.tenantId.str ≠ tenantId.str := Dict.get?_filter ..
  rw [hfilter, h.items id]
  rcases hget : b.file.files.get? id with _ | ⟨item, mtime⟩
  · simp
  have hmem : b.memory.items.get? id = some item := by rw [h.items id, hget]; rfl
  have hany : ((b.memory.items.entries.filter fun p => p.2.tenantId = tenantId).map Prod.fst).any
      (fun id' => decide (id = id')) = true ↔ item.tenantId = tenantId := by
    simp only [List.any_map, List.any_eq_true, List.mem_filter, decide_eq_true_eq, Function.comp_apply]
    constructor
    · rintro ⟨⟨id', item'⟩, ⟨hentry, htenant⟩, rfl⟩
      rw [Dict.mem_entries_iff, hmem] at hentry
      cases hentry
      exact htenant
    · intro htenant
      exact ⟨(id, item), ⟨Dict.mem_entries_iff.2 hmem, htenant⟩, rfl⟩
  by_cases htenant : item.tenantId = tenantId
  · rw [if_pos (hany.2 htenant)]
    simp [htenant]
  · have hstr : item.tenantId.str ≠ tenantId.str := fun heq => htenant (Uuid.str_injective heq)
    rw [if_neg (mt hany.1 htenant)]
    simp [hstr]

theorem maxItems_foldl_remove (s : InMemoryStorage) (ids : List ℕ) :
    (ids.foldl InMemoryStorage.remove s).maxItems = s.maxItems := by
  induction ids generalizing s with
  | nil => rfl
  | cons id ids ih => exact ih (s.remove id)

theorem wellFormed_step (h : b.WellFormed) (a : TimedStorageOp) : (b.step a).1.WellFormed := by
  obtain ⟨now, op⟩ := a
  cases op with
  | save item => exact ⟨InMemoryStorage.valid_save h.valid item, h.maxItems_eq⟩
  | delete id =>
    refine ⟨?_, ?_⟩
    · show (b.memory.delete id).1.Valid
      unfold InMemoryStorage.delete
      split_ifs
      · exact InMemoryStorage.valid_remove h.valid id
      · exact h.valid
    · show (b.file.delete id).1.maxItems = (b.memory.delete id).1.maxItems
      unfold InMemoryStorage.delete FileStorage.delete
      split_ifs <;> exact h.maxItems_eq
  | clearTenant tenantId =>
    exact ⟨InMemoryStorage.valid_foldl_remove h.valid _,
      h.maxItems_eq.trans (maxItems_foldl_remove ..).symm⟩

theorem wellFormed_run (h : b.WellFormed) (ops : List TimedStorageOp) :
    (Machine.run step b ops).WellFormed :=
  Machine.inv_run (I := WellFormed) (C := fun _ _ => True) (fun _ a h _ => wellFormed_step h a) h
    (Machine.always_of_forall (fun _ _ => trivial) _ _)

theorem linked_step (h : b.Linked) (ha : b.EvictsAlike a) : (b.step a).1.Linked := by
  refine ⟨wellFormed_step h.toWellFormed a, ?_⟩
  obtain ⟨now, op⟩ := a
  cases op with
  | save item => exact sameItems_save h now item ha
  | delete id => exact sameItems_delete h id
  | clearTenant tenantId => exact sameItems_clearTenant h tenantId

/-- A step that keeps the items the same has evicted the same one from both: what one
evicts alone, the other still has. -/
theorem Linked.evictsAlike_of_step (h : b.Linked) (h' : (b.step a).1.Linked) : b.EvictsAlike a := by
  obtain ⟨now, op⟩ := a
  cases op with
  | save item =>
    intro hnew hfull
    rcases InMemoryStorage.save_cases h.valid item with
      ⟨hold, -⟩ | ⟨-, hroom, -⟩ | ⟨-, -, oldest, rest, hq, hsave⟩
    · rw [hnew] at hold
      cases hold
    · omega
    obtain ⟨f, files, hsorted, hfile⟩ := h.file_save_of_full now hnew hfull
    have hstored : b.memory.items.contains oldest = true := by
      rw [Dict.contains, ← Dict.mem_keys_iff, h.valid.keys_eq, hq]
      exact List.mem_cons_self ..
    have hne : oldest ≠ item.deadLetterId := by
      rintro rfl
      rw [hnew] at hstored
      cases hstored
    have hitems : SameItems (b.memory.save item).items (b.file.save now item).files := h'.items
    have hget := hitems.contains_eq oldest
    rw [hsave, hfile, Dict.contains, Dict.contains, Dict.get?_set_of_ne _ _ hne,
      Dict.get?_set_of_ne _ _ hne, Dict.get?_erase, Dict.get?_erase, if_pos rfl] at hget
    by_cases heq : oldest = f.1
    · rw [hq, hsorted, heq]
      rfl
    · rw [if_neg heq, ← Dict.contains, ← h.items.contains_eq, hstored] at hget
      cases hget
  | delete id => trivial
  | clearTenant tenantId => trivial

theorem linked_step_iff (h : b.Linked) : (b.step a).1.Linked ↔ b.EvictsAlike a :=
  ⟨h.evictsAlike_of_step, linked_step h⟩

/-! ## What the storages answer -/

theorem listLoop_eq (tenantId : Option Uuid) (limit : ℤ) (items rest : List DeadLetterItem)
    (h : (items.length : ℤ) < max 1 limit) :
    FileStorage.listLoop tenantId limit items rest =
      items ++ (rest.filter (ofTenant tenantId)).take ((max 1 limit).toNat - items.length) := by
  induction rest generalizing items with
  | nil => simp [FileStorage.listLoop]
  | cons dto rest ih =>
    unfold FileStorage.listLoop
    by_cases hdto : ofTenant tenantId dto
    · rw [if_pos hdto, List.filter_cons_of_pos hdto]
      have hlength : ((items ++ [dto]).length : ℤ) = items.length + 1 := by simp
      obtain ⟨n, hn⟩ : ∃ n, (max 1 limit).toNat - items.length = n + 1 :=
        ⟨(max 1 limit).toNat - items.length - 1, by omega⟩
      dsimp only
      by_cases hlimit : limit ≤ (items ++ [dto]).length
      · have hlast : n = 0 := by omega
        rw [if_pos hlimit, hn, hlast]
        simp
      · have hrest : (max 1 limit).toNat - (items ++ [dto]).length = n := by
          rw [List.length_append, List.length_singleton]
          omega
        rw [if_neg hlimit, ih _ (by omega), hrest, hn]
        simp
    · rw [if_neg hdto, List.filter_cons_of_neg hdto]
      exact ih items h

/-- The file storage lists the newest items, at least one. -/
theorem file_listItems (s : FileStorage) (tenantId : Option Uuid) (limit : ℤ) :
    s.listItems tenantId limit =
      ((s.byMtimeReverse.map fun f => f.2.1).filter (ofTenant tenantId)).take
        (max 1 limit).toNat := by
  rw [FileStorage.listItems, listLoop_eq _ _ _ _ (by simp)]
  simp

/-- The items that are listed are those that are stored. -/
theorem Linked.listed_perm (h : b.Linked) (tenantId : Option Uuid) :
    (b.memory.items.values.filter (ofTenant tenantId)).Perm
      ((b.file.byMtimeReverse.map fun f => f.2.1).filter (ofTenant tenantId)) := by
  have hsort : (b.file.byMtimeReverse.map entryOf).Perm b.memory.items.entries :=
    ((List.perm_insertionSort _ b.file.files.entries).map entryOf).trans h.items.entries_perm.symm
  have hvalues := hsort.symm.map Prod.snd
  rw [List.map_map] at hvalues
  exact hvalues.filter _

/-- **Interchangeable.**  The two storages agree on `get` and `count`, and list the same
items, in whatever order, if the limit leaves none out. -/
structure Interchangeable (b : Backends) : Prop where
  get : ∀ id, b.memory.get id = b.file.get id
  count : ∀ tenantId, b.memory.count tenantId = b.file.count tenantId
  listItems : ∀ tenantId (limit : ℤ), b.memory.count tenantId ≤ limit →
    (b.memory.listItems tenantId limit).Perm (b.file.listItems tenantId limit)

theorem Linked.interchangeable (h : b.Linked) : b.Interchangeable := by
  have hperm := h.listed_perm
  have hvalues : b.memory.items.values.length = b.memory.queue.length := by
    rw [← h.valid.keys_eq, Dict.values, Dict.keys, List.length_map, List.length_map]
  refine ⟨h.items, fun tenantId => ?_, fun tenantId limit hlimit => ?_⟩
  · have hlength : b.memory.count tenantId = _ := (hperm tenantId).length_eq
    rw [hlength]
    cases tenantId with
    | none =>
      have hall : (b.file.byMtimeReverse.map fun f => f.2.1).filter (ofTenant none) =
          b.file.byMtimeReverse.map fun f => f.2.1 := List.filter_eq_self.2 fun _ _ => rfl
      rw [hall, List.length_map]
      exact List.length_insertionSort ..
    | some tenant =>
      have hle : b.memory.count (some tenant) ≤ b.file.maxItems := by
        rw [h.maxItems_eq]
        refine le_trans (List.length_filter_le _ _) ?_
        rw [hvalues]
        exact h.valid.bounded
      rw [hlength] at hle
      rw [FileStorage.count, file_listItems, List.length_take]
      omega
  · have hslice : b.memory.listItems tenantId limit =
        b.memory.items.values.filter (ofTenant tenantId) := by
      have hcount : (b.memory.items.values.filter (ofTenant tenantId)).length ≤ limit := hlimit
      rw [InMemoryStorage.listItems, sliceTo, if_pos (by omega)]
      exact List.take_of_length_le (by omega)
    have hfile : b.file.listItems tenantId limit =
        (b.file.byMtimeReverse.map fun f => f.2.1).filter (ofTenant tenantId) := by
      have hcount : b.memory.count tenantId = _ := (hperm tenantId).length_eq
      rw [file_listItems]
      exact List.take_of_length_le (by omega)
    rw [hslice, hfile]
    exact hperm tenantId

/-! ## Runs that save nothing twice -/

/-- When an identifier's file was last written. -/
def mtime (b : Backends) (id : ℕ) : ℚ := ((b.file.files.get? id).map Prod.snd).getD 0

/-- A save is of a new item. -/
def SavesNew (b : Backends) (a : TimedStorageOp) : Prop :=
  match a.op with
  | .save item => b.memory.items.contains item.deadLetterId = false
  | _ => True

instance (b : Backends) (a : TimedStorageOp) : Decidable (b.SavesNew a) :=
  match a with
  | ⟨_, .save item⟩ =>
    inferInstanceAs (Decidable (b.memory.items.contains item.deadLetterId = false))
  | ⟨_, .delete _⟩ => isTrue trivial
  | ⟨_, .clearTenant _⟩ => isTrue trivial

/-- The order of the deque is the order of the last writes. -/
structure Ordered (b : Backends) : Prop where
  linked : b.Linked
  mtimes : b.memory.queue.Pairwise fun i j => b.mtime i < b.mtime j

theorem mtime_of_mem {f : FileStorage.File} (h : f ∈ b.file.files.entries) : b.mtime f.1 = f.2.2 := by
  rw [mtime, Dict.mem_entries_iff.1 h]
  rfl

/-- Sorted files are the entries in their order, or in reverse: no two were last written at
the same time. -/
theorem Ordered.sorted_eq (h : b.Ordered) {r : ℚ → ℚ → Prop} (hr : ∀ x y, r x y → r y x → x = y)
    {files : List FileStorage.File} (hperm : files.Perm b.file.files.entries)
    (hsorted : files.Pairwise fun f g => r f.2.2 g.2.2) {entries : List (ℕ × DeadLetterItem)}
    (hentries : entries.Perm b.memory.items.entries)
    (horder : entries.Pairwise fun p q => r (b.mtime p.1) (b.mtime q.1)) :
    files.map entryOf = entries := by
  have hinj : ∀ i ∈ b.memory.queue, ∀ j ∈ b.memory.queue, b.mtime i = b.mtime j → i = j := by
    have hnodup : (b.memory.queue.map b.mtime).Nodup :=
      List.pairwise_map.2 (h.mtimes.imp fun hlt => hlt.ne)
    intro i hi j hj
    exact List.inj_on_of_nodup_map hnodup hi hj
  have hall : (files.map entryOf).Perm entries :=
    ((hperm.map entryOf).trans h.linked.items.entries_perm.symm).trans hentries.symm
  have hqueue : ∀ p ∈ entries, p.1 ∈ b.memory.queue := by
    intro p hp
    rw [← h.linked.valid.keys_eq]
    exact List.mem_map_of_mem (hentries.subset hp)
  refine List.Perm.eq_of_pairwise ?_ ?_ horder hall
  · intro p q hp hq hpq hqp
    have hp' := hall.subset hp
    have hid : p.1 = q.1 := hinj _ (hqueue p hp') _ (hqueue q hq) (hr _ _ hpq hqp)
    have hget := Dict.mem_entries_iff.1 (hentries.subset hp')
    have hget' := Dict.mem_entries_iff.1 (hentries.subset hq)
    rw [hid, hget'] at hget
    exact Prod.ext hid (Option.some.inj hget).symm
  · rw [List.pairwise_map]
    refine hsorted.imp_of_mem fun hf hg hfg => ?_
    show r (b.mtime _) (b.mtime _)
    rw [entryOf, entryOf, mtime_of_mem (hperm.subset hf), mtime_of_mem (hperm.subset hg)]
    exact hfg

theorem Ordered.entries_pairwise (h : b.Ordered) :
    b.memory.items.entries.Pairwise fun p q => b.mtime p.1 < b.mtime q.1 := by
  have hqueue := h.mtimes
  rw [← h.linked.valid.keys_eq, Dict.keys, List.pairwise_map] at hqueue
  exact hqueue

theorem Ordered.byMtime_eq (h : b.Ordered) :
    b.file.byMtime.map entryOf = b.memory.items.entries := by
  have htotal : Std.Total fun f g : FileStorage.File => f.2.2 ≤ g.2.2 := ⟨fun _ _ => le_total _ _⟩
  have htrans : IsTrans FileStorage.File fun f g => f.2.2 ≤ g.2.2 := ⟨fun _ _ _ => le_trans⟩
  exact h.sorted_eq (r := (· ≤ ·)) (fun _ _ => le_antisymm) (List.perm_insertionSort ..)
    (List.pairwise_insertionSort _ _) (List.Perm.refl _) (h.entries_pairwise.imp le_of_lt)

theorem Ordered.byMtimeReverse_eq (h : b.Ordered) :
    b.file.byMtimeReverse.map entryOf = b.memory.items.entries.reverse := by
  have htotal : Std.Total fun f g : FileStorage.File => g.2.2 ≤ f.2.2 := ⟨fun _ _ => le_total _ _⟩
  have htrans : IsTrans FileStorage.File fun f g => g.2.2 ≤ f.2.2 := ⟨fun _ _ _ h h' => le_trans h' h⟩
  exact h.sorted_eq (r := (· ≥ ·)) (fun _ _ h h' => le_antisymm h' h) (List.perm_insertionSort ..)
    (List.pairwise_insertionSort _ _) (List.reverse_perm _)
    (List.pairwise_reverse.2 (h.entries_pairwise.imp le_of_lt))

/-- In this order the two evict the same item. -/
theorem Ordered.evictsAlike (h : b.Ordered) (a : TimedStorageOp) : b.EvictsAlike a := by
  obtain ⟨now, op⟩ := a
  cases op with
  | save item =>
    intro _ _
    have hkeys : b.file.byMtime.map Prod.fst = b.memory.queue := by
      rw [← h.linked.valid.keys_eq, Dict.keys, ← h.byMtime_eq, List.map_map]
      rfl
    rw [← hkeys, List.head?_map]
  | delete id => trivial
  | clearTenant tenantId => trivial

/-- An identifier whose file is still there keeps its time. -/
theorem mtime_of_filter {b' : Backends} (hlinked : b'.Linked)
    (hfiles : ∃ p, b'.file.files = b.file.files.filter p) {id : ℕ}
    (hid : id ∈ b'.memory.queue) : b'.mtime id = b.mtime id := by
  rw [← hlinked.valid.keys_eq, Dict.mem_keys_iff] at hid
  have hfile : (b'.file.files.get? id).isSome := (hlinked.items.contains_eq id).symm.trans hid
  obtain ⟨p, hp⟩ := hfiles
  rw [hp, Dict.get?_filter] at hfile
  obtain ⟨f, hf⟩ := Option.isSome_iff_exists.1 hfile
  rw [mtime, mtime, hp, Dict.get?_filter, hf, (Option.filter_eq_some_iff.1 hf).1]

/-- Taking items out keeps the order. -/
theorem Ordered.of_sublist {b' : Backends} (h : b.Ordered) (hlinked : b'.Linked)
    (hqueue : b'.memory.queue.Sublist b.memory.queue)
    (hfiles : ∃ p, b'.file.files = b.file.files.filter p) : b'.Ordered := by
  refine ⟨hlinked, (h.mtimes.sublist hqueue).imp_of_mem fun {i j} hi hj hlt => ?_⟩
  rw [mtime_of_filter hlinked hfiles hi, mtime_of_filter hlinked hfiles hj]
  exact hlt

theorem file_get?_save (s : FileStorage) (now : ℚ) (item : DeadLetterItem) :
    (s.save now item).files.get? item.deadLetterId = some (item, now) := Dict.get?_set_self ..

/-- A file that is still there after a save of another item is the one that was there. -/
theorem file_get?_save_of_ne {s : FileStorage} {now : ℚ} {item : DeadLetterItem} {id : ℕ}
    (hid : id ≠ item.deadLetterId) {f : DeadLetterItem × ℚ}
    (h : (s.save now item).files.get? id = some f) : s.files.get? id = some f := by
  unfold FileStorage.save at h
  dsimp only at h
  rw [Dict.get?_set_of_ne _ _ hid] at h
  split_ifs at h with hevicts
  · rcases hsorted : s.byMtime with _ | ⟨oldest, rest⟩
    · simp only [hsorted] at h
      exact h
    · simp only [hsorted] at h
      rw [Dict.get?_erase] at h
      split_ifs at h
      exact h
  · exact h

/-- A new item goes behind what is left of the queue. -/
theorem queue_save_of_new {s : InMemoryStorage} (h : s.Valid) {item : DeadLetterItem}
    (hnew : s.items.contains item.deadLetterId = false) :
    ∃ old, old.Sublist s.queue ∧ (s.save item).queue = old ++ [item.deadLetterId] := by
  rcases InMemoryStorage.save_cases h item with
    ⟨hold, -⟩ | ⟨-, -, hsave⟩ | ⟨-, -, oldest, rest, hq, hsave⟩
  · rw [hnew] at hold
    cases hold
  · exact ⟨s.queue, List.Sublist.refl _, by rw [hsave]⟩
  · refine ⟨rest, ?_, by rw [hsave]⟩
    rw [hq]
    exact List.sublist_cons_self ..

theorem ordered_save (h : b.Ordered) {now : ℚ} {item : DeadLetterItem}
    (hnew : b.memory.items.contains item.deadLetterId = false)
    (hpast : ∀ id ∈ b.memory.queue, b.mtime id < now) :
    (⟨b.memory.save item, b.file.save now item⟩ : Backends).Ordered := by
  have hlinked : (⟨b.memory.save item, b.file.save now item⟩ : Backends).Linked :=
    linked_step h.linked (h.evictsAlike ⟨now, .save item⟩)
  obtain ⟨old, hsub, hqueue⟩ := queue_save_of_new h.linked.valid hnew
  have hne : ∀ id ∈ b.memory.queue, id ≠ item.deadLetterId := by
    rintro id hid rfl
    rw [← h.linked.valid.keys_eq, Dict.mem_keys_iff] at hid
    rw [Dict.contains, hid] at hnew
    cases hnew
  have hsame : ∀ id ∈ old,
      (⟨b.memory.save item, b.file.save now item⟩ : Backends).mtime id = b.mtime id := by
    intro id hid
    have hmem : id ∈ (b.memory.save item).queue := by
      rw [hqueue]
      exact List.mem_append_left _ hid
    rw [← hlinked.valid.keys_eq, Dict.mem_keys_iff] at hmem
    have hfile : ((b.file.save now item).files.get? id).isSome :=
      (hlinked.items.contains_eq id).symm.trans hmem
    obtain ⟨f, hf⟩ := Option.isSome_iff_exists.1 hfile
    rw [mtime, mtime, hf, file_get?_save_of_ne (hne id (hsub.subset hid)) hf]
  have hlast : (⟨b.memory.save item, b.file.save now item⟩ : Backends).mtime item.deadLetterId =
      now := by
    rw [mtime, file_get?_save]
    rfl
  refine ⟨hlinked, ?_⟩
  show (b.memory.save item).queue.Pairwise _
  rw [hqueue, List.pairwise_append]
  refine ⟨(h.mtimes.sublist hsub).imp_of_mem fun hi hj hlt => ?_, List.pairwise_singleton .., ?_⟩
  · rw [hsame _ hi, hsame _ hj]
    exact hlt
  · intro i hi j hj
    rw [List.mem_singleton.1 hj, hsame i hi, hlast]
    exact hpast i (hsub.subset hi)

theorem queue_foldl_remove_sublist (s : InMemoryStorage) (ids : List ℕ) :
    (ids.foldl InMemoryStorage.remove s).queue.Sublist s.queue := by
  induction ids generalizing s with
  | nil => exact List.Sublist.refl _
  | cons id ids ih => exact (ih (s.remove id)).trans List.erase_sublist

/-- **What a step does** to the order: it saves, or it only takes items out. -/
theorem step_saves_or_removes (b : Backends) (a : TimedStorageOp) :
    (∃ item, a.op = .save item ∧
      (b.step a).1 = ⟨b.memory.save item, b.file.save a.now item⟩) ∨
    ((b.step a).1.memory.queue.Sublist b.memory.queue ∧
      ∃ p, (b.step a).1.file.files = b.file.files.filter p) := by
  obtain ⟨now, op⟩ := a
  cases op with
  | save item => exact .inl ⟨item, rfl, rfl⟩
  | delete id =>
    refine .inr ⟨?_, ?_⟩
    · show ((b.memory.delete id).1.queue).Sublist _
      unfold InMemoryStorage.delete
      split_ifs
      · exact List.erase_sublist
      · exact List.Sublist.refl _
    · show ∃ p, (b.file.delete id).1.files = _
      unfold FileStorage.delete
      split_ifs
      · exact ⟨_, rfl⟩
      · refine ⟨fun _ => true, ?_⟩
        simp [Dict.filter]
  | clearTenant tenantId => exact .inr ⟨queue_foldl_remove_sublist .., _, rfl⟩

theorem ordered_step (h : b.Ordered) (hnew : b.SavesNew a)
    (hpast : ∀ id ∈ b.memory.queue, b.mtime id < a.now) : (b.step a).1.Ordered := by
  have hlinked := linked_step h.linked (h.evictsAlike a)
  rcases step_saves_or_removes b a with ⟨item, hop, hstep⟩ | ⟨hqueue, hfiles⟩
  · rw [SavesNew, hop] at hnew
    rw [hstep]
    exact ordered_save h hnew hpast
  · exact h.of_sublist hlinked hqueue hfiles

/-- Nothing in the directory is later than the last operation. -/
theorem mtime_step_le (hlinked : b.Linked) (hevict : b.EvictsAlike a)
    (hpast : ∀ id ∈ b.memory.queue, b.mtime id < a.now) {id : ℕ}
    (hid : id ∈ (b.step a).1.memory.queue) : (b.step a).1.mtime id ≤ a.now := by
  have hlinked' := linked_step hlinked hevict
  rcases step_saves_or_removes b a with ⟨item, -, hstep⟩ | ⟨hqueue, hfiles⟩
  · rw [← hlinked'.valid.keys_eq, Dict.mem_keys_iff] at hid
    have hfile : ((b.step a).1.file.files.get? id).isSome :=
      (hlinked'.items.contains_eq id).symm.trans hid
    obtain ⟨f, hf⟩ := Option.isSome_iff_exists.1 hfile
    rw [hstep] at hf ⊢
    by_cases hitem : id = item.deadLetterId
    · rw [hitem, mtime, file_get?_save]
      exact le_refl _
    · have hold := file_get?_save_of_ne hitem hf
      have hmem : id ∈ b.memory.queue := by
        rw [← hlinked.valid.keys_eq, Dict.mem_keys_iff]
        have hcontains := hlinked.items.contains_eq id
        rw [Dict.contains, Dict.contains, hold] at hcontains
        exact hcontains
      have hlt := hpast id hmem
      rw [mtime, hold] at hlt
      rw [mtime, hf]
      exact hlt.le
  · rw [mtime_of_filter hlinked' hfiles hid]
    exact (hpast id (hqueue.subset hid)).le

/-- In this order the file storage lists what the in-memory storage does, from its end. -/
theorem Ordered.file_listItems_eq (h : b.Ordered) (tenantId : Option Uuid) {limit : ℤ}
    (hlimit : 1 ≤ limit) :
    b.file.listItems tenantId limit =
      (b.memory.listItems tenantId (b.memory.count tenantId)).reverse.take limit.toNat := by
  have hvalues : (b.file.byMtimeReverse.map fun f => f.2.1) = b.memory.items.values.reverse := by
    have hentries := congrArg (List.map Prod.snd) h.byMtimeReverse_eq
    rw [List.map_map, List.map_reverse] at hentries
    exact hentries
  have hall : b.memory.listItems tenantId (b.memory.count tenantId) =
      b.memory.items.values.filter (ofTenant tenantId) := by
    rw [InMemoryStorage.listItems, sliceTo, if_pos (Int.natCast_nonneg _), Int.toNat_natCast]
    exact List.take_length
  rw [file_listItems, hvalues, hall, List.filter_reverse, max_eq_right hlimit]

theorem ordered_run {ops : List TimedStorageOp} (hsorted : ops.Pairwise fun a a' => a.now < a'.now)
    (h : b.Ordered) (hpast : ∀ a ∈ ops, ∀ id ∈ b.memory.queue, b.mtime id < a.now)
    (hops : Machine.Always step SavesNew b ops) : (Machine.run step b ops).Ordered := by
  induction ops generalizing b with
  | nil => exact h
  | cons a ops ih =>
    obtain ⟨hfirst, hrest⟩ := List.pairwise_cons.1 hsorted
    have hpast' := hpast a (List.mem_cons_self ..)
    refine ih hrest (ordered_step h hops.1 hpast') (fun a' ha' id hid => ?_) hops.2
    exact (mtime_step_le h.linked (h.evictsAlike a) hpast' hid).trans_lt (hfirst a' ha')

/-- **The storages are interchangeable** throughout a run exactly when they evict the same
item each time.  In a run that saves no stored item again they do, and the file storage
lists the items of the in-memory storage in reverse order. -/
theorem backends_interchangeable {maxItems : ℕ} (hmax : 1 ≤ maxItems) (ops : List TimedStorageOp)
    (hsorted : ops.Pairwise fun a a' => a.now < a'.now) :
    ((∀ pre, pre <+: ops → (Machine.run step (init maxItems) pre).Interchangeable) ↔
      Machine.Always step EvictsAlike (init maxItems) ops) ∧
    (Machine.Always step SavesNew (init maxItems) ops →
      (Machine.run step (init maxItems) ops).Interchangeable ∧
      ∀ tenantId (limit : ℤ), 1 ≤ limit →
        (Machine.run step (init maxItems) ops).file.listItems tenantId limit =
          ((Machine.run step (init maxItems) ops).memory.listItems tenantId
            ((Machine.run step (init maxItems) ops).memory.count tenantId)).reverse.take
              limit.toNat) := by
  constructor
  · rw [← Machine.inv_prefix_iff (I := Linked) (fun b a => linked_step_iff) (linked_init hmax) ops]
    refine forall₂_congr fun pre _ => ?_
    have hformed := wellFormed_run (wellFormed_init hmax) pre
    exact ⟨fun h => ⟨hformed, h.get⟩, Linked.interchangeable⟩
  · intro hops
    have hordered : (Machine.run step (init maxItems) ops).Ordered :=
      ordered_run hsorted ⟨linked_init hmax, List.Pairwise.nil⟩ (by intro _ _ id hid; cases hid) hops
    exact ⟨hordered.linked.interchangeable, hordered.file_listItems_eq⟩

/-- An item in quarantine. -/
def sampleItem (id : ℕ) : DeadLetterItem :=
  ⟨id, ⟨1⟩, ⟨2⟩, .imap, "PARSING_ERROR", none, none, "bad header", 0, 3⟩

/-- Three items, of which the second is saved again and the first deleted. -/
def sampleOps : List TimedStorageOp :=
  [⟨1, .save (sampleItem 1)⟩, ⟨2, .save (sampleItem 2)⟩, ⟨3, .save (sampleItem 2)⟩,
    ⟨4, .save (sampleItem 3)⟩, ⟨5, .delete 3⟩]

theorem backends_interchangeable_sampleOps :
    (∀ pre, pre <+: sampleOps → (Machine.run step (init 2) pre).Interchangeable) ∧
    (Machine.run step (init 2) (sampleOps.take 2)).file.listItems none 1 =
      ((Machine.run step (init 2) (sampleOps.take 2)).memory.listItems none
        ((Machine.run step (init 2) (sampleOps.take 2)).memory.count none)).reverse.take 1 :=
  ⟨(backends_interchangeable (by decide) sampleOps (by decide +kernel)).1.2 (by decide +kernel),
    ((backends_interchangeable (by decide) (sampleOps.take 2) (by decide +kernel)).2
      (by decide +kernel)).2 none 1 (by decide)⟩

/-- Two items fill both storages; the first is saved again, then a third arrives. -/
def resavedOps : List TimedStorageOp :=
  [⟨1, .save (sampleItem 1)⟩, ⟨2, .save (sampleItem 2)⟩, ⟨3, .save (sampleItem 1)⟩,
    ⟨4, .save (sampleItem 3)⟩]

/-- **The storages differ.**  After these saves only the file storage still has the first
item; and of two items saved once each, a limit of one lists the older from memory and
the newer from the files. -/
theorem backends_differ :
    (Machine.run step (init 2) resavedOps).memory.get 1 = none ∧
    (Machine.run step (init 2) resavedOps).file.get 1 = some (sampleItem 1) ∧
    (Machine.run step (init 2) (resavedOps.take 2)).memory.listItems none 1 = [sampleItem 1] ∧
    (Machine.run step (init 2) (resavedOps.take 2)).file.listItems none 1 = [sampleItem 2] := by
  decide +kernel

end Backends
end ScamOn.IngestionGateway
