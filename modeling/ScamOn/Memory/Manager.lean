import ScamOn.Lib.FirstOccurrences
import ScamOn.Memory.VectorStore

/-!
# Memory deduplication

`MemoryManager.deduplicate` goes through the store once, in the order of its dictionary, and
deletes each record whose vector it has seen before.

* `duplicates` is the loop, and `deduplicate` the whole.
* `vectorKey` is what the loop goes by: the records it keeps are the first ones with their vector.
* `deduplicate_spec` is what is lost and what stays, and when nothing is lost that says more than
  the record that stays.
-/

namespace ScamOn.Memory

variable {K ν : Type*} [Zero K] [One K] [LE K] [DecidableEq K]

/-- An entry of the store: a record under its id. -/
abbrev Entry (K ν : Type*) [Zero K] [One K] [LE K] := String × MemoryRecord K ν

/-- The loop over the store, with the vectors that were seen. -/
def duplicates : List (List K) → List (Entry K ν) → List String
  | _, [] => []
  | seenVectors, (memoryId, record) :: rest =>
    if record.vector ≠ [] ∧ record.vector ∈ seenVectors then memoryId :: duplicates seenVectors rest
    else if record.vector ≠ [] then duplicates (record.vector :: seenVectors) rest
    else duplicates seenVectors rest

/-- The deletion of records, with the number of those that were there. -/
def deleteAll (s : InMemoryVectorStore K ν) : List String → InMemoryVectorStore K ν × ℕ
  | [] => (s, 0)
  | memoryId :: rest =>
    let deleted := s.delete memoryId
    let later := deleteAll deleted.1 rest
    (later.1, (if deleted.2 then 1 else 0) + later.2)

/-- `deduplicate`. -/
def deduplicate (s : InMemoryVectorStore K ν) : InMemoryVectorStore K ν × ℕ :=
  deleteAll s (duplicates [] s.records.entries)

/-! ## What the loop goes by -/

/-- The vector of a record, if it has one. -/
def vectorKey (p : Entry K ν) : Option (List K) :=
  if p.2.vector = [] then none else some p.2.vector

omit [DecidableEq K] in
theorem vectorKey_eq_some {p : Entry K ν} {v : List K} :
    vectorKey p = some v ↔ p.2.vector = v ∧ v ≠ [] := by
  unfold vectorKey
  split_ifs with hempty
  · simp only [false_iff, not_and, not_not]
    intro hv
    rw [← hv, hempty]
  · constructor
    · intro h
      rw [← Option.some.inj h]
      exact ⟨rfl, hempty⟩
    · rintro ⟨rfl, -⟩
      rfl

/-- The loop collects the ids of the records that repeat a vector. -/
theorem duplicates_eq (seenVectors : List (List K)) (l : List (Entry K ν)) :
    duplicates seenVectors l = (repeats vectorKey seenVectors l).map Prod.fst := by
  induction l generalizing seenVectors with
  | nil => rfl
  | cons p rest ih =>
    obtain ⟨memoryId, record⟩ := p
    by_cases hempty : record.vector = []
    · have hkey : vectorKey (memoryId, record) = none := if_pos hempty
      rw [duplicates, if_neg (by simp [hempty]), if_neg (by simp [hempty]), repeats_cons_of_none hkey,
        ih]
    · have hkey : vectorKey (memoryId, record) = some record.vector := if_neg hempty
      by_cases hseen : record.vector ∈ seenVectors
      · rw [duplicates, if_pos ⟨hempty, hseen⟩, repeats_cons_of_mem hkey hseen, ih, List.map_cons]
      · rw [duplicates, if_neg (by simp [hseen]), if_pos hempty, repeats_cons_of_notMem hkey hseen, ih]

/-! ## The deletions -/

omit [DecidableEq K] in
theorem entries_deleteAll (s : InMemoryVectorStore K ν) (ids : List String) :
    (deleteAll s ids).1.records.entries = s.records.entries.filter fun p => p.1 ∉ ids := by
  induction ids generalizing s with
  | nil =>
    rw [deleteAll]
    exact (List.filter_eq_self.2 fun p _ => by simp).symm
  | cons memoryId rest ih =>
    rw [deleteAll]
    show (deleteAll (s.delete memoryId).1 rest).1.records.entries = _
    rw [ih, s.delete_records]
    show (s.records.entries.filter _).filter _ = _
    rw [List.filter_filter]
    refine List.filter_congr fun p _ => ?_
    simp [Bool.and_comm]

omit [DecidableEq K] in
/-- Every id that is there and comes once counts. -/
theorem deleteAll_snd {s : InMemoryVectorStore K ν} {ids : List String} (hnodup : ids.Nodup)
    (hthere : ∀ id ∈ ids, s.records.contains id = true) : (deleteAll s ids).2 = ids.length := by
  induction ids generalizing s with
  | nil => rfl
  | cons memoryId rest ih =>
    obtain ⟨hnot, hrest⟩ := List.nodup_cons.1 hnodup
    have hfirst : (s.delete memoryId).2 = true := by
      rw [s.delete_snd]
      exact hthere memoryId (List.mem_cons_self ..)
    have hlater : (deleteAll (s.delete memoryId).1 rest).2 = rest.length := by
      refine ih hrest fun id hid => ?_
      have hne : id ≠ memoryId := ne_of_mem_of_not_mem hid hnot
      rw [s.delete_records, Dict.contains, Dict.get?_erase, if_neg hne]
      exact hthere id (List.mem_cons_of_mem _ hid)
    rw [deleteAll]
    show (if (s.delete memoryId).2 then 1 else 0) + (deleteAll (s.delete memoryId).1 rest).2 = _
    rw [hfirst, hlater, if_pos rfl, List.length_cons, Nat.add_comm]

/-- **What stays** are the first records with their vector, and those that have none. -/
theorem entries_deduplicate (s : InMemoryVectorStore K ν) :
    (deduplicate s).1.records.entries = firsts vectorKey [] s.records.entries := by
  unfold deduplicate
  rw [entries_deleteAll, duplicates_eq]
  exact filter_notMem_repeats Prod.fst [] s.records.nodup

/-- What stays is there as it was, in its order. -/
theorem deduplicate_sublist (s : InMemoryVectorStore K ν) :
    (deduplicate s).1.records.entries.Sublist s.records.entries := by
  unfold deduplicate
  rw [entries_deleteAll]
  exact List.filter_sublist

theorem get?_deduplicate {s : InMemoryVectorStore K ν} {id : String} {r : MemoryRecord K ν}
    (h : (deduplicate s).1.records.get? id = some r) : s.records.get? id = some r :=
  Dict.mem_entries_iff.1 ((deduplicate_sublist s).subset (Dict.mem_entries_iff.2 h))

/-- The number returned is that of the records that are gone. -/
theorem deduplicate_count (s : InMemoryVectorStore K ν) :
    (deduplicate s).2 + (deduplicate s).1.records.entries.length = s.records.entries.length := by
  have hsub : (repeats vectorKey [] s.records.entries).Sublist s.records.entries :=
    repeats_sublist [] s.records.entries
  have hids : (duplicates [] s.records.entries).Nodup := by
    rw [duplicates_eq]
    exact (hsub.map Prod.fst).nodup s.records.nodup
  have hthere : ∀ id ∈ duplicates [] s.records.entries, s.records.contains id = true := by
    intro id hid
    rw [duplicates_eq] at hid
    exact Dict.mem_keys_iff.1 ((hsub.map Prod.fst).subset hid)
  have hcount : (deduplicate s).2 = (repeats vectorKey [] s.records.entries).length := by
    unfold deduplicate
    rw [deleteAll_snd hids hthere, duplicates_eq, List.length_map]
  rw [hcount, entries_deduplicate]
  exact length_repeats_add_length_firsts [] s.records.entries

/-- **A second pass** finds the store as the first one left it, and deletes nothing. -/
theorem deduplicate_deduplicate (s : InMemoryVectorStore K ν) :
    deduplicate (deduplicate s).1 = ((deduplicate s).1, 0) := by
  have hnone : duplicates [] (deduplicate s).1.records.entries = [] := by
    rw [duplicates_eq, entries_deduplicate, repeats_firsts, List.map_nil]
  rw [deduplicate, hnone, deleteAll]

/-- **The vector of a deleted record** is still in the store. -/
theorem exists_remaining {s : InMemoryVectorStore K ν} {id : String} {r : MemoryRecord K ν}
    (hr : s.records.get? id = some r) (hgone : (deduplicate s).1.records.get? id = none) :
    r.vector ≠ [] ∧
      ∃ id' r', (deduplicate s).1.records.get? id' = some r' ∧ r'.vector = r.vector := by
  have hmem : (id, r) ∈ s.records.entries := Dict.mem_entries_iff.2 hr
  have hnot : (id, r) ∉ firsts vectorKey [] s.records.entries := by
    rw [← entries_deduplicate]
    intro hstays
    rw [Dict.mem_entries_iff.1 hstays] at hgone
    cases hgone
  have hvector : r.vector ≠ [] := by
    intro hempty
    exact hnot (mem_firsts_of_none hmem (if_pos hempty))
  obtain ⟨⟨id', r'⟩, hfirst, hkey⟩ :=
    exists_mem_firsts hmem (vectorKey_eq_some.2 ⟨rfl, hvector⟩) List.not_mem_nil
  rw [← entries_deduplicate] at hfirst
  exact ⟨hvector, id', r', Dict.mem_entries_iff.1 hfirst, (vectorKey_eq_some.1 hkey).1⟩

/-- Of the records with one vector, one stays. -/
theorem remaining_unique {s : InMemoryVectorStore K ν} {id id' : String} {r r' : MemoryRecord K ν}
    (hr : (deduplicate s).1.records.get? id = some r)
    (hr' : (deduplicate s).1.records.get? id' = some r') (hvector : r.vector ≠ [])
    (hsame : r.vector = r'.vector) : r = r' := by
  have hmem := Dict.mem_entries_iff.2 hr
  have hmem' := Dict.mem_entries_iff.2 hr'
  rw [entries_deduplicate] at hmem hmem'
  have hkey : vectorKey (id, r) = some r.vector := vectorKey_eq_some.2 ⟨rfl, hvector⟩
  have hkey' : vectorKey (id', r') = some r.vector := vectorKey_eq_some.2 ⟨hsame.symm, hvector⟩
  exact congrArg Prod.snd (eq_of_mem_firsts hmem hmem' hkey hkey')

/-! ## What is lost -/

variable [PyAny ν]

/-- Records that a search by type and tenant does not tell apart. -/
def SameKind (r r' : MemoryRecord K ν) : Prop :=
  r.memoryType = r'.memoryType ∧ getItem r.metadata "tenant_id" = getItem r'.metadata "tenant_id"

/-- Each deleted record leaves one with its vector, its type and its tenant. -/
def KeepsKnowledge (s : InMemoryVectorStore K ν) : Prop :=
  ∀ id r, s.records.get? id = some r → (deduplicate s).1.records.get? id = none →
    ∃ id' r', (deduplicate s).1.records.get? id' = some r' ∧ r'.vector = r.vector ∧ SameKind r r'

/-- A record's type and tenant stay in the store with its vector. -/
theorem KeepsKnowledge.exists_remaining {s : InMemoryVectorStore K ν} (h : KeepsKnowledge s)
    {id : String} {r : MemoryRecord K ν} (hr : s.records.get? id = some r) :
    ∃ id' r', (deduplicate s).1.records.get? id' = some r' ∧ r'.vector = r.vector ∧ SameKind r r' := by
  cases hstays : (deduplicate s).1.records.get? id with
  | none => exact h id r hr hstays
  | some r' =>
    have hsame : r' = r := Option.some.inj ((get?_deduplicate hstays).symm.trans hr)
    exact ⟨id, r', hstays, hsame ▸ rfl, hsame ▸ ⟨rfl, rfl⟩⟩

/-- **Nothing is lost** exactly when the records with the same vector are of the same kind. -/
theorem keepsKnowledge_iff (s : InMemoryVectorStore K ν) : KeepsKnowledge s ↔
    ∀ id r id' r', s.records.get? id = some r → s.records.get? id' = some r' → r.vector ≠ [] →
      r.vector = r'.vector → SameKind r r' := by
  constructor
  · intro h id r id' r' hr hr' hvector hsame
    obtain ⟨i, x, hx, hxvector, hkind⟩ := h.exists_remaining hr
    obtain ⟨j, y, hy, hyvector, hkind'⟩ := h.exists_remaining hr'
    have hxy : x = y := by
      apply remaining_unique hx hy
      · rwa [hxvector]
      · rw [hxvector, hyvector, hsame]
    subst hxy
    exact ⟨hkind.1.trans hkind'.1.symm, hkind.2.trans hkind'.2.symm⟩
  · intro h id r hr hgone
    obtain ⟨hvector, id', r', hr', hsame⟩ := exists_remaining hr hgone
    exact ⟨id', r', hr', hsame, h id r id' r' hr (get?_deduplicate hr') hvector hsame.symm⟩

/-- **Deduplication** deletes a record only if one with the same vector stays in the store, leaves
every other record as it was, in its place, and finds nothing more the second time.  What stays may
be of another type or tenant, unless the records with the same vector are all of one kind. -/
theorem deduplicate_spec (s : InMemoryVectorStore K ν) :
    let s' := (deduplicate s).1
    (∀ id r, s.records.get? id = some r → s'.records.get? id = none →
      r.vector ≠ [] ∧ ∃ id' r', s'.records.get? id' = some r' ∧ r'.vector = r.vector) ∧
    s'.records.entries.Sublist s.records.entries ∧
    (deduplicate s).2 + s'.records.entries.length = s.records.entries.length ∧
    deduplicate s' = (s', 0) ∧
    (KeepsKnowledge s ↔
      ∀ id r id' r', s.records.get? id = some r → s.records.get? id' = some r' → r.vector ≠ [] →
        r.vector = r'.vector → SameKind r r') :=
  ⟨fun _ _ hr hgone => exists_remaining hr hgone, deduplicate_sublist s, deduplicate_count s,
    deduplicate_deduplicate s, keepsKnowledge_iff s⟩

/-! ## Two tenants -/

theorem short_ids : (1 ≤ "a".length ∧ "a".length ≤ 128) ∧ (1 ≤ "b".length ∧ "b".length ≤ 128) := by
  decide

theorem short_year : "2025".length ≤ 64 := by decide

/-- The same text, as one tenant's threat and as another tenant's sender. -/
def twoTenants : InMemoryVectorStore ℚ (JsonValue ℚ) :=
  (InMemoryVectorStore.empty.insert
    (.base "a" "2025" .threat (Dict.set ∅ "tenant_id" (.str "acme")) [1, 0] short_ids.1
      short_year)).insert
    (.base "b" "2025" .sender (Dict.set ∅ "tenant_id" (.str "globex")) [1, 0] short_ids.2
      short_year)

/-- The second tenant's record is deleted, and no record of that tenant or type is left. -/
theorem deduplicate_loses_tenant :
    (deduplicate twoTenants).1.records.keys = ["a"] ∧ ¬KeepsKnowledge twoTenants := by
  refine ⟨by decide +kernel, fun h => ?_⟩
  have hkind := (keepsKnowledge_iff twoTenants).1 h "a" _ "b" _ rfl rfl (by decide) rfl
  exact absurd hkind.1 (by decide)

end ScamOn.Memory
