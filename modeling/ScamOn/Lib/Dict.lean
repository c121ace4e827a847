import Mathlib.Data.List.Nodup

/-!
# Insertion-ordered dictionaries

A dictionary that remembers the order in which its keys were first written, as
Python's `dict` does: assigning to a present key overwrites the value in place,
assigning to an absent key appends, deleting closes the gap.  (`AList` moves a
written key to the front, so it has the right lookups but the wrong iteration
order.)  The structure carries the proof that no key occurs twice, so that
`get?` and the list of entries say the same thing: `mem_entries_iff`.
-/

namespace ScamOn

/-- A dictionary with its entries in insertion order. -/
structure Dict (κ ν : Type*) where
  /-- The entries, oldest key first. -/
  entries : List (κ × ν)
  /-- No key occurs twice. -/
  nodup : (entries.map Prod.fst).Nodup

namespace Dict

variable {κ ν : Type*}

/-- The empty dictionary. -/
def empty : Dict κ ν := ⟨[], List.nodup_nil⟩

instance : EmptyCollection (Dict κ ν) := ⟨empty⟩

instance : Inhabited (Dict κ ν) := ⟨empty⟩

/-- The keys, in insertion order. -/
def keys (d : Dict κ ν) : List κ := d.entries.map Prod.fst

/-- The values, in insertion order. -/
def values (d : Dict κ ν) : List ν := d.entries.map Prod.snd

/-- The entries a test keeps, in the same order. -/
def filter (p : κ × ν → Bool) (d : Dict κ ν) : Dict κ ν :=
  ⟨d.entries.filter p, (List.filter_sublist.map Prod.fst).nodup d.nodup⟩

variable [DecidableEq κ]

/-- `d.get(k)`. -/
def get? (d : Dict κ ν) (k : κ) : Option ν := d.entries.lookup k

/-- `k in d`. -/
def contains (d : Dict κ ν) (k : κ) : Bool := (d.get? k).isSome

/-- Overwrite the value of `k`, or append it when it is absent. -/
def setEntry (k : κ) (v : ν) : List (κ × ν) → List (κ × ν)
  | [] => [(k, v)]
  | (k', v') :: l => if k' = k then (k, v) :: l else (k', v') :: setEntry k v l

theorem mem_map_fst_setEntry {k k' : κ} {v : ν} {l : List (κ × ν)} :
    k' ∈ (setEntry k v l).map Prod.fst ↔ k' = k ∨ k' ∈ l.map Prod.fst := by
  induction l with
  | nil => simp [setEntry]
  | cons p l ih =>
    obtain ⟨j, w⟩ := p
    by_cases hj : j = k
    · subst hj; simp [setEntry]
    · simp only [setEntry, if_neg hj, List.map_cons, List.mem_cons, ih]
      tauto

theorem nodup_setEntry (k : κ) (v : ν) {l : List (κ × ν)} (h : (l.map Prod.fst).Nodup) :
    ((setEntry k v l).map Prod.fst).Nodup := by
  induction l with
  | nil => simp [setEntry]
  | cons p l ih =>
    obtain ⟨j, w⟩ := p
    by_cases hj : j = k
    · subst hj; simpa [setEntry] using h
    · simp only [setEntry, if_neg hj, List.map_cons, List.nodup_cons] at h ⊢
      exact ⟨fun hmem => (mem_map_fst_setEntry.1 hmem).elim hj h.1, ih h.2⟩

/-- `d[k] = v`. -/
def set (d : Dict κ ν) (k : κ) (v : ν) : Dict κ ν := ⟨setEntry k v d.entries, nodup_setEntry k v d.nodup⟩

/-- `d.pop(k, None)`: nothing happens when the key is absent. -/
def erase (d : Dict κ ν) (k : κ) : Dict κ ν := d.filter fun p => p.1 ≠ k

/-- Look a key up, and write back what `f` makes of its entry: `none` deletes. -/
def access {ρ : Type*} (d : Dict κ ν) (k : κ) (f : Option ν → Option ν × ρ) : Dict κ ν × ρ :=
  match f (d.get? k) with
  | (some v, r) => (d.set k v, r)
  | (none, r) => (d.erase k, r)

/-! ## Lookups -/

@[simp] theorem get?_empty (k : κ) : (∅ : Dict κ ν).get? k = none := rfl

omit [DecidableEq κ] in
@[simp] theorem keys_empty : (∅ : Dict κ ν).keys = [] := rfl

omit [DecidableEq κ] in
theorem nodup_keys (d : Dict κ ν) : d.keys.Nodup := d.nodup

theorem lookup_cons_ite (k k' : κ) (v : ν) (l : List (κ × ν)) :
    List.lookup k ((k', v) :: l) = if k = k' then some v else l.lookup k := by
  by_cases h : k = k'
  · simp [h]
  · have hb : (k == k') = false := by simpa using h
    rw [List.lookup_cons, hb, if_neg h]

theorem lookup_setEntry (k k' : κ) (v : ν) (l : List (κ × ν)) :
    (setEntry k v l).lookup k' = if k' = k then some v else l.lookup k' := by
  induction l with
  | nil => simp [setEntry, lookup_cons_ite]
  | cons p l ih =>
    obtain ⟨j, w⟩ := p
    by_cases hj : j = k
    · subst hj
      by_cases hk : k' = j
      · simp [setEntry, hk]
      · simp [setEntry, lookup_cons_ite, hk]
    · by_cases hk : k' = k
      · subst hk
        simp [setEntry, lookup_cons_ite, hj, Ne.symm hj, ih]
      · simp [setEntry, lookup_cons_ite, hj, hk, ih]

theorem get?_set (d : Dict κ ν) (k k' : κ) (v : ν) :
    (d.set k v).get? k' = if k' = k then some v else d.get? k' :=
  lookup_setEntry k k' v d.entries

@[simp] theorem get?_set_self (d : Dict κ ν) (k : κ) (v : ν) : (d.set k v).get? k = some v := by
  simp [get?_set]

theorem get?_set_of_ne (d : Dict κ ν) {k k' : κ} (v : ν) (h : k' ≠ k) :
    (d.set k v).get? k' = d.get? k' := by
  simp [get?_set, h]

theorem lookup_eq_some_iff {l : List (κ × ν)} (hl : (l.map Prod.fst).Nodup) {k : κ} {v : ν} :
    l.lookup k = some v ↔ (k, v) ∈ l := by
  induction l with
  | nil => simp
  | cons p l ih =>
    obtain ⟨j, w⟩ := p
    simp only [List.map_cons, List.nodup_cons] at hl
    by_cases hj : k = j
    · subst hj
      have hnot : (k, v) ∉ l := fun hmem => hl.1 (List.mem_map_of_mem (f := Prod.fst) hmem)
      simp [hnot, eq_comm]
    · simp [lookup_cons_ite, hj, ih hl.2]

/-- Lookups and entries agree. -/
theorem mem_entries_iff {d : Dict κ ν} {k : κ} {v : ν} :
    (k, v) ∈ d.entries ↔ d.get? k = some v := (lookup_eq_some_iff d.nodup).symm

theorem mem_keys_iff {d : Dict κ ν} {k : κ} : k ∈ d.keys ↔ (d.get? k).isSome := by
  rw [Option.isSome_iff_exists]
  constructor
  · intro h
    obtain ⟨⟨k, v⟩, hmem, rfl⟩ := List.mem_map.1 h
    exact ⟨v, mem_entries_iff.1 hmem⟩
  · rintro ⟨v, hv⟩
    exact List.mem_map.2 ⟨(k, v), mem_entries_iff.2 hv, rfl⟩

/-- Filtering looks up the same value, if the test keeps it. -/
theorem get?_filter (p : κ × ν → Bool) (d : Dict κ ν) (k : κ) :
    (d.filter p).get? k = (d.get? k).filter fun v => p (k, v) := by
  ext v
  rw [← mem_entries_iff, Option.filter_eq_some_iff, ← mem_entries_iff]
  exact List.mem_filter

theorem get?_erase (d : Dict κ ν) (k k' : κ) :
    (d.erase k).get? k' = if k' = k then none else d.get? k' := by
  rw [erase, get?_filter]
  by_cases h : k' = k
  · simp [h]
  · cases d.get? k' <;> simp [h]

/-- Deleting an absent key changes nothing. -/
theorem erase_eq_self {d : Dict κ ν} {k : κ} (h : d.get? k = none) : d.erase k = d := by
  have hentries : d.entries.filter (fun p => p.1 ≠ k) = d.entries := by
    refine List.filter_eq_self.2 fun p hp => ?_
    obtain ⟨j, w⟩ := p
    have hne : j ≠ k := by
      rintro rfl
      rw [mem_entries_iff.1 hp] at h
      cases h
    simpa using hne
  obtain ⟨l, hl⟩ := d
  simp only [erase, filter]
  congr

/-! ## Entries -/

/-- A new key goes to the end. -/
theorem setEntry_of_not_mem {k : κ} {l : List (κ × ν)} (h : k ∉ l.map Prod.fst) (v : ν) :
    setEntry k v l = l ++ [(k, v)] := by
  induction l with
  | nil => rfl
  | cons p l ih =>
    obtain ⟨j, w⟩ := p
    simp only [List.map_cons, List.mem_cons, not_or] at h
    rw [setEntry, if_neg (Ne.symm h.1), ih h.2, List.cons_append]

theorem mem_setEntry {k : κ} {v : ν} {l : List (κ × ν)} {e : κ × ν} (h : e ∈ setEntry k v l) :
    e = (k, v) ∨ e ∈ l := by
  induction l with
  | nil => exact .inl (List.mem_singleton.1 h)
  | cons p l ih =>
    obtain ⟨j, w⟩ := p
    rw [setEntry] at h
    split at h
    · rcases List.mem_cons.1 h with rfl | h
      · exact .inl rfl
      · exact .inr (List.mem_cons_of_mem _ h)
    · rcases List.mem_cons.1 h with rfl | h
      · exact .inr (List.mem_cons_self ..)
      · exact (ih h).imp id (List.mem_cons_of_mem _)

theorem entries_set_of_get?_eq_none {d : Dict κ ν} {k : κ} (h : d.get? k = none) (v : ν) :
    (d.set k v).entries = d.entries ++ [(k, v)] := by
  refine setEntry_of_not_mem (fun hk => ?_) v
  have hsome := mem_keys_iff.1 hk
  rw [h] at hsome
  cases hsome

theorem length_set_le (d : Dict κ ν) (k : κ) (v : ν) :
    (d.set k v).entries.length ≤ d.entries.length + 1 := by
  show (setEntry k v d.entries).length ≤ _
  generalize d.entries = l
  induction l with
  | nil => exact Nat.le_refl 1
  | cons p l ih =>
    obtain ⟨j, w⟩ := p
    rw [setEntry]
    split_ifs
    · simp
    · simpa using ih

theorem keys_set_of_get?_eq_none {d : Dict κ ν} {k : κ} (h : d.get? k = none) (v : ν) :
    (d.set k v).keys = d.keys ++ [k] := by
  rw [keys, entries_set_of_get?_eq_none h, List.map_append, List.map_singleton, keys]

theorem keys_erase (d : Dict κ ν) (k : κ) : (d.erase k).keys = d.keys.filter (· ≠ k) := by
  show (d.entries.filter _).map Prod.fst = (d.entries.map Prod.fst).filter _
  rw [List.filter_map]
  rfl

/-- Overwriting leaves the keys and their order as they are. -/
theorem keys_erase_head {d : Dict κ ν} {k : κ} {ks : List κ} (h : d.keys = k :: ks) :
    (d.erase k).keys = ks := by
  have hnodup : (k :: ks).Nodup := h ▸ d.nodup
  rw [keys_erase, h, List.filter_cons_of_neg (by simp), List.filter_eq_self]
  intro k' hk'
  have hne : k' ≠ k := ne_of_mem_of_not_mem hk' (List.nodup_cons.1 hnodup).1
  simpa using hne

theorem keys_set_of_contains {d : Dict κ ν} {k : κ} (h : d.contains k) (v : ν) :
    (d.set k v).keys = d.keys := by
  obtain ⟨l, hl⟩ := d
  show (setEntry k v l).map Prod.fst = l.map Prod.fst
  have hlookup : (l.lookup k).isSome := h
  clear h hl
  induction l with
  | nil => cases hlookup
  | cons p l ih =>
    obtain ⟨j, w⟩ := p
    by_cases hj : j = k
    · simp [setEntry, hj]
    · rw [lookup_cons_ite, if_neg (Ne.symm hj)] at hlookup
      simp [setEntry, hj, ih hlookup]

/-- Writing what is there changes nothing. -/
theorem set_eq_self {d : Dict κ ν} {k : κ} {v : ν} (h : d.get? k = some v) : d.set k v = d := by
  obtain ⟨l, hl⟩ := d
  have hentries : setEntry k v l = l := by
    have hlookup : l.lookup k = some v := h
    clear h hl
    induction l with
    | nil => cases hlookup
    | cons p l ih =>
      obtain ⟨j, w⟩ := p
      rw [lookup_cons_ite] at hlookup
      by_cases hj : j = k
      · subst hj
        rw [if_pos rfl] at hlookup
        rw [setEntry, if_pos rfl, Option.some.inj hlookup]
      · rw [if_neg (Ne.symm hj)] at hlookup
        rw [setEntry, if_neg hj, ih hlookup]
  simp [set, hentries]

/-- Deleting the oldest key leaves the rest as it is. -/
theorem entries_erase_head {d : Dict κ ν} {k : κ} {v : ν} {l : List (κ × ν)}
    (h : d.entries = (k, v) :: l) : (d.erase k).entries = l := by
  have hnodup : ((k, v) :: l).map Prod.fst |>.Nodup := h ▸ d.nodup
  have hnot : k ∉ l.map Prod.fst := (List.nodup_cons.1 hnodup).1
  show d.entries.filter _ = _
  rw [h, List.filter_cons_of_neg (by simp)]
  refine List.filter_eq_self.2 fun p hp => ?_
  have hne : p.1 ≠ k := fun heq => hnot (heq ▸ List.mem_map_of_mem (f := Prod.fst) hp)
  simpa using hne

/-- A dictionary is given by its keys in their order and its lookups. -/
theorem ext_get? {d e : Dict κ ν} (hkeys : d.keys = e.keys) (hget : ∀ k, d.get? k = e.get? k) :
    d = e := by
  have hentries : d.entries = e.entries := by
    refine List.ext_getElem ?_ fun i hi hi' => ?_
    · have hlength := congrArg List.length hkeys
      simpa [keys] using hlength
    · have hkey : d.entries[i].1 = e.entries[i].1 := by
        have hget : d.keys[i]? = e.keys[i]? := by rw [hkeys]
        simpa [keys, hi, hi'] using hget
      have hd : d.get? d.entries[i].1 = some d.entries[i].2 := mem_entries_iff.1 (List.getElem_mem hi)
      have he : e.get? e.entries[i].1 = some e.entries[i].2 := mem_entries_iff.1 (List.getElem_mem hi')
      rw [hget, hkey, he] at hd
      exact Prod.ext hkey (Option.some.inj hd).symm
  obtain ⟨l, hl⟩ := d
  obtain ⟨m, hm⟩ := e
  cases hentries
  rfl

/-- The values are what the keys look up. -/
theorem map_get?_keys (d : Dict κ ν) : d.keys.map d.get? = d.values.map some := by
  rw [keys, values, List.map_map, List.map_map]
  exact List.map_congr_left fun p hp => mem_entries_iff.1 hp

/-! ## From a list -/

/-- `dict(l)`: a later value of a key wins. -/
def ofList (l : List (κ × ν)) : Dict κ ν := l.foldl (fun d p => d.set p.1 p.2) ∅

/-- Writing new keys one by one puts them at the end. -/
theorem entries_foldl_set {l : List (κ × ν)} {d : Dict κ ν}
    (h : (d.keys ++ l.map Prod.fst).Nodup) :
    (l.foldl (fun d p => d.set p.1 p.2) d).entries = d.entries ++ l := by
  induction l generalizing d with
  | nil => simp
  | cons p l ih =>
    have hnew : d.get? p.1 = none := by
      have hnot : p.1 ∉ d.keys := by
        rw [List.map_cons, List.nodup_append'] at h
        exact fun hmem => List.disjoint_left.1 h.2.2 hmem (List.mem_cons_self ..)
      simpa [mem_keys_iff] using hnot
    have hrest : ((d.set p.1 p.2).keys ++ l.map Prod.fst).Nodup := by
      rw [keys_set_of_get?_eq_none hnew, List.append_assoc]
      exact h
    rw [List.foldl_cons, ih hrest, entries_set_of_get?_eq_none hnew, List.append_assoc,
      List.singleton_append]

/-- Reading back the entries gives the dictionary. -/
theorem ofList_entries (d : Dict κ ν) : ofList d.entries = d := by
  have hentries : (ofList d.entries).entries = d.entries := entries_foldl_set d.nodup
  obtain ⟨l, hl⟩ := d
  generalize ofList l = e at hentries
  obtain ⟨m, hm⟩ := e
  cases hentries
  rfl

section Access

variable {ρ : Type*} (d : Dict κ ν) (k : κ) (f : Option ν → Option ν × ρ)

@[simp] theorem access_snd : (d.access k f).2 = (f (d.get? k)).2 := by
  unfold access
  rcases f (d.get? k) with ⟨_ | v, r⟩
  · rfl
  · rfl

theorem get?_access (k' : κ) :
    (d.access k f).1.get? k' = if k' = k then (f (d.get? k)).1 else d.get? k' := by
  unfold access
  rcases f (d.get? k) with ⟨_ | v, r⟩
  · exact get?_erase d k k'
  · exact get?_set d k k' v

/-- What holds of every entry, and of the one that is written, holds of every entry after. -/
theorem forall_get?_access {P : ν → Prop} (hd : ∀ k v, d.get? k = some v → P v)
    (hf : ∀ v, (f (d.get? k)).1 = some v → P v) :
    ∀ k' v, (d.access k f).1.get? k' = some v → P v := by
  intro k' v h
  rw [get?_access] at h
  split_ifs at h with hk
  · exact hf v h
  · exact hd k' v h

end Access

end Dict
end ScamOn
