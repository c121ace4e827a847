import ScamOn.Lib.Dict
import ScamOn.Lib.Machine

/-!
# A table with a second index

Elements are stored under a key, and a second dictionary finds them by an index
that several elements may share.  `insert` overwrites both dictionaries, `remove`
takes an element out by its key and drops whatever the index holds for it.  The
second dictionary is therefore only a hint, and this file says exactly when it
stays a good one.

* `Table` carries the proof that every entry stands under its own key and index.
* `Coherent`: only stored elements are found, and an element that shares its index
  with no other is found.
* `coherent_step_iff`: one operation keeps this exactly when it is `Safe`, and
  `coherent_run_iff` says so of whole runs.
-/

namespace ScamOn

/-- A table of elements with a key and an index. -/
structure Table {δ κ ι : Type*} [DecidableEq κ] [DecidableEq ι] (key : δ → κ) (index : δ → ι) where
  byKey : Dict κ δ
  byIndex : Dict ι δ
  keyed : ∀ {k d}, byKey.get? k = some d → key d = k
  indexed : ∀ {i d}, byIndex.get? i = some d → index d = i

namespace Table

variable {δ κ ι : Type*} [DecidableEq κ] [DecidableEq ι] {key : δ → κ} {index : δ → ι}

/-! ## Operations -/

/-- The table without elements. -/
def empty : Table key index where
  byKey := ∅
  byIndex := ∅
  keyed := nofun
  indexed := nofun

/-- Store an element under its key and its index. -/
def insert (t : Table key index) (d : δ) : Table key index where
  byKey := t.byKey.set (key d) d
  byIndex := t.byIndex.set (index d) d
  keyed := by
    intro k e h
    rw [Dict.get?_set] at h
    split_ifs at h with hk
    · rw [hk, Option.some.inj h]
    · exact t.keyed h
  indexed := by
    intro i e h
    rw [Dict.get?_set] at h
    split_ifs at h with hi
    · rw [hi, Option.some.inj h]
    · exact t.indexed h

/-- Take `d` out: its key, and whatever stands under its index. -/
def drop (t : Table key index) (d : δ) : Table key index where
  byKey := t.byKey.erase (key d)
  byIndex := t.byIndex.erase (index d)
  keyed := by
    intro k e h
    rw [Dict.get?_erase] at h
    split_ifs at h
    exact t.keyed h
  indexed := by
    intro i e h
    rw [Dict.get?_erase] at h
    split_ifs at h
    exact t.indexed h

/-- Take the element under a key out, and say whether there was one. -/
def remove (t : Table key index) (k : κ) : Table key index × Bool :=
  match t.byKey.get? k with
  | some d => (t.drop d, true)
  | none => (t, false)

/-- The element under a key. -/
def get? (t : Table key index) (k : κ) : Option δ := t.byKey.get? k

/-- What the index holds. -/
def find? (t : Table key index) (i : ι) : Option δ := t.byIndex.get? i

/-- The elements, in order of their keys' insertion. -/
def toList (t : Table key index) : List δ := t.byKey.values

/-- The calls that change a table. -/
inductive Op (δ κ : Type*)
  | insert (d : δ)
  | remove (k : κ)
  | clear

/-- One call. -/
def step (t : Table key index) : Op δ κ → Table key index × Bool
  | .insert d => (t.insert d, true)
  | .remove k => t.remove k
  | .clear => (empty, true)

/-! ## Stored elements -/

/-- The element stands under its key. -/
def Stored (t : Table key index) (d : δ) : Prop := t.get? (key d) = some d

variable {t : Table key index} {d e : δ}

theorem stored_of_get? {k : κ} (h : t.get? k = some d) : t.Stored d := by
  have hk : key d = k := t.keyed h
  rwa [Stored, hk]

theorem get?_eq_some_iff {k : κ} : t.get? k = some d ↔ t.Stored d ∧ key d = k := by
  constructor
  · intro h
    exact ⟨stored_of_get? h, t.keyed h⟩
  · rintro ⟨h, rfl⟩
    exact h

/-- A key stores one element. -/
theorem Stored.eq_of_key_eq (hd : t.Stored d) (he : t.Stored e) (h : key d = key e) : d = e := by
  rw [Stored, h, he] at hd
  exact (Option.some.inj hd).symm

theorem mem_toList : d ∈ t.toList ↔ t.Stored d := by
  constructor
  · intro h
    obtain ⟨⟨k, d'⟩, hmem, rfl⟩ := List.mem_map.1 h
    exact stored_of_get? (Dict.mem_entries_iff.1 hmem)
  · intro h
    exact List.mem_map.2 ⟨(key d, d), Dict.mem_entries_iff.2 h, rfl⟩

theorem get?_insert (k : κ) : (t.insert d).get? k = if k = key d then some d else t.get? k :=
  Dict.get?_set ..

theorem stored_insert : (t.insert d).Stored e ↔ e = d ∨ key e ≠ key d ∧ t.Stored e := by
  show (t.byKey.set (key d) d).get? (key e) = some e ↔ _
  rw [Dict.get?_set]
  by_cases hk : key e = key d
  · simp [hk, eq_comm]
  · have hne : e ≠ d := fun h => hk (congrArg key h)
    simp [hk, hne, Stored, get?]

theorem find?_insert (i : ι) : (t.insert d).find? i = if i = index d then some d else t.find? i :=
  Dict.get?_set ..

theorem stored_drop : (t.drop d).Stored e ↔ key e ≠ key d ∧ t.Stored e := by
  show (t.byKey.erase (key d)).get? (key e) = some e ↔ _
  rw [Dict.get?_erase]
  by_cases hk : key e = key d
  · simp [hk]
  · simp [hk, Stored, get?]

theorem find?_drop (i : ι) : (t.drop d).find? i = if i = index d then none else t.find? i :=
  Dict.get?_erase ..

theorem not_stored_empty : ¬ (empty : Table key index).Stored d := nofun

theorem remove_of_stored (h : t.Stored d) : t.remove (key d) = (t.drop d, true) := by
  have hget : t.byKey.get? (key d) = some d := h
  rw [remove, hget]

theorem remove_of_get?_eq_none {k : κ} (h : t.get? k = none) : t.remove k = (t, false) := by
  have hget : t.byKey.get? k = none := h
  rw [remove, hget]

/-- A removed key is gone, and no other. -/
theorem get?_remove (k k' : κ) : (t.remove k).1.get? k' = if k' = k then none else t.get? k' := by
  rcases hk : t.get? k with _ | d
  · rw [remove_of_get?_eq_none hk]
    split_ifs with heq
    · rw [heq, hk]
    · rfl
  · obtain ⟨hd, rfl⟩ := get?_eq_some_iff.1 hk
    rw [remove_of_stored hd]
    exact Dict.get?_erase ..

/-! ## Coherence -/

/-- No other stored element has this one's index. -/
def Sole (t : Table key index) (d : δ) : Prop :=
  t.Stored d ∧ ∀ e, t.Stored e → index e = index d → e = d

/-- **Coherence.**  Only stored elements are found, and all that are alone at their
index are. -/
def Coherent (t : Table key index) : Prop :=
  (∀ i d, t.find? i = some d → t.Stored d) ∧ ∀ d, t.Sole d → t.find? (index d) = some d

/-- Without `d`, exactly one element would be left at its index. -/
def LeavesOne (t : Table key index) (d : δ) : Prop :=
  ∃ e, e ≠ d ∧ t.Stored e ∧ index e = index d ∧
    ∀ e', e' ≠ d → t.Stored e' → index e' = index d → e' = e

/-- The operations that keep a table coherent.  An element may leave its index by
`remove` if that does not leave exactly one other there; it may leave by an
`insert` under its key if it is moreover not the one that its index finds. -/
def Safe (t : Table key index) : Op δ κ → Prop
  | .insert d => ∀ d₀, t.get? (key d) = some d₀ → index d₀ ≠ index d →
      t.find? (index d₀) ≠ some d₀ ∧ (t.find? (index d₀) = none → ¬ t.LeavesOne d₀)
  | .remove k => ∀ d₀, t.get? k = some d₀ → ¬ t.LeavesOne d₀
  | .clear => True

theorem coherent_empty : (empty : Table key index).Coherent :=
  ⟨nofun, fun _ h => absurd h.1 not_stored_empty⟩

/-- What the index finds is the element that is alone there. -/
theorem Coherent.find?_eq (h : t.Coherent) {i : ι} (hd : t.find? i = some e) : t.Stored e ∧ index e = i :=
  ⟨h.1 i e hd, t.indexed hd⟩

theorem coherent_drop_iff (h : t.Coherent) (hd : t.Stored d) :
    (t.drop d).Coherent ↔ ¬ t.LeavesOne d := by
  have hkeep : ∀ e, (t.drop d).Stored e ↔ e ≠ d ∧ t.Stored e := by
    intro e
    rw [stored_drop]
    refine and_congr_left fun he => not_congr ⟨fun hk => he.eq_of_key_eq hd hk, congrArg key⟩
  constructor
  · rintro hcoh ⟨e, hne, he, hi, honly⟩
    have hsole : (t.drop d).Sole e := by
      refine ⟨(hkeep e).2 ⟨hne, he⟩, fun e' he' hi' => ?_⟩
      obtain ⟨hne', he'⟩ := (hkeep e').1 he'
      exact honly e' hne' he' (hi'.trans hi)
    have hfind := hcoh.2 e hsole
    rw [find?_drop, if_pos hi] at hfind
    cases hfind
  · intro hleaves
    refine ⟨fun i e hfind => ?_, fun e hsole => ?_⟩
    · rw [find?_drop] at hfind
      split_ifs at hfind with hi
      obtain ⟨he, hei⟩ := h.find?_eq hfind
      refine (hkeep e).2 ⟨?_, he⟩
      rintro rfl
      exact hi hei.symm
    · obtain ⟨hne, he⟩ := (hkeep e).1 hsole.1
      have halone : ∀ e', e' ≠ d → t.Stored e' → index e' = index e → e' = e := fun e' hne' he' =>
        hsole.2 e' ((hkeep e').2 ⟨hne', he'⟩)
      by_cases hi : index e = index d
      · exact absurd ⟨e, hne, he, hi, fun e' hne' he' hi' => halone e' hne' he' (hi'.trans hi.symm)⟩
          hleaves
      · rw [find?_drop, if_neg hi]
        refine h.2 e ⟨he, fun e' he' hi' => ?_⟩
        by_cases hed : e' = d
        · exact absurd (hed ▸ hi').symm hi
        · exact halone e' hed he' hi'

theorem safe_of_coherent_insert (hcoh : (t.insert d).Coherent) : t.Safe (.insert d) := by
  intro d₀ hget hi
  obtain ⟨hd₀, hk⟩ := get?_eq_some_iff.1 hget
  have hne : d₀ ≠ d := by
    rintro rfl
    exact hi rfl
  refine ⟨fun hfind => ?_, ?_⟩
  · -- the old element is still found, under the index it has left
    have hstored := hcoh.1 (index d₀) d₀ (by rw [find?_insert, if_neg hi]; exact hfind)
    rcases stored_insert.1 hstored with heq | ⟨hkey, -⟩
    · exact hne heq
    · exact hkey hk
  · rintro hnone ⟨e, hed₀, he, hie, honly⟩
    have hkey : ∀ e', t.Stored e' → e' ≠ d₀ → key e' ≠ key d := fun e' he' hne' hkey =>
      hne' (he'.eq_of_key_eq hd₀ (hkey.trans hk.symm))
    have hsole : (t.insert d).Sole e := by
      refine ⟨stored_insert.2 (.inr ⟨hkey e he hed₀, he⟩), fun e' he' hi' => ?_⟩
      rcases stored_insert.1 he' with rfl | ⟨hkey', he'⟩
      · exact absurd (hi'.trans hie).symm hi
      · refine honly e' (fun heq => hkey' (heq ▸ hk)) he' (hi'.trans hie)
    have hfind := hcoh.2 e hsole
    rw [find?_insert, if_neg (hie ▸ hi), hie, hnone] at hfind
    cases hfind

/-- An element that nobody finds, and that is alone once a key is free, was left alone by
the element under that key. -/
theorem Coherent.leavesOne_of_find?_eq_none (h : t.Coherent) {k : κ} (he : t.Stored e)
    (hfind : t.find? (index e) = none)
    (halone : ∀ e', key e' ≠ k → t.Stored e' → index e' = index e → e' = e) :
    ∃ d₀, t.get? k = some d₀ ∧ index d₀ = index e ∧ t.LeavesOne d₀ := by
  have hnot : ¬ t.Sole e := by
    intro hsole
    have hfound := h.2 e hsole
    rw [hfind] at hfound
    cases hfound
  obtain ⟨d₀, hd₀, hi₀, hne₀⟩ : ∃ d₀, t.Stored d₀ ∧ index d₀ = index e ∧ d₀ ≠ e := by
    by_contra hcon
    push Not at hcon
    exact hnot ⟨he, hcon⟩
  have hk₀ : key d₀ = k := by
    by_contra hcon
    exact hne₀ (halone d₀ hcon hd₀ hi₀)
  refine ⟨d₀, get?_eq_some_iff.2 ⟨hd₀, hk₀⟩, hi₀, e, hne₀.symm, he, hi₀.symm, ?_⟩
  intro e' hne' he' hi'
  refine halone e' (fun hk' => hne' ?_) he' (hi'.trans hi₀)
  exact he'.eq_of_key_eq hd₀ (hk'.trans hk₀.symm)

theorem Coherent.insert (h : t.Coherent) (hsafe : t.Safe (.insert d)) : (t.insert d).Coherent := by
  refine ⟨fun i e hfind => ?_, fun e hsole => ?_⟩
  · rw [find?_insert] at hfind
    split_ifs at hfind with hi
    · exact stored_insert.2 (.inl (Option.some.inj hfind).symm)
    · obtain ⟨he, rfl⟩ := h.find?_eq hfind
      refine stored_insert.2 (.inr ⟨fun hk => ?_, he⟩)
      exact (hsafe e (get?_eq_some_iff.2 ⟨he, hk⟩) hi).1 hfind
  · rcases stored_insert.1 hsole.1 with rfl | ⟨hk, he⟩
    · rw [find?_insert, if_pos rfl]
    · have hned : e ≠ d := fun heq => hk (congrArg key heq)
      have hi : index e ≠ index d := fun hi =>
        hned (hsole.2 d (stored_insert.2 (.inl rfl)) hi.symm).symm
      have halone : ∀ e', key e' ≠ key d → t.Stored e' → index e' = index e → e' = e :=
        fun e' hk' he' => hsole.2 e' (stored_insert.2 (.inr ⟨hk', he'⟩))
      rw [find?_insert, if_neg hi]
      rcases hfind : t.find? (index e) with _ | e'
      · obtain ⟨d₀, hget, hi₀, hleaves⟩ := h.leavesOne_of_find?_eq_none he hfind halone
        exact absurd hleaves ((hsafe d₀ hget (hi₀ ▸ hi)).2 (hi₀ ▸ hfind))
      · obtain ⟨he', hi'⟩ := h.find?_eq hfind
        by_cases hk' : key e' = key d
        · have hsafe' := hsafe e' (get?_eq_some_iff.2 ⟨he', hk'⟩) (hi' ▸ hi)
          exact absurd (hi' ▸ hfind) hsafe'.1
        · rw [halone e' hk' he' hi']

theorem coherent_insert_iff (h : t.Coherent) :
    (t.insert d).Coherent ↔ t.Safe (.insert d) :=
  ⟨safe_of_coherent_insert, h.insert⟩

/-- **One operation keeps a table coherent exactly when it is safe.** -/
theorem coherent_step_iff (h : t.Coherent) (op : Op δ κ) : (t.step op).1.Coherent ↔ t.Safe op := by
  cases op with
  | insert d => exact coherent_insert_iff h
  | remove k =>
    show (t.remove k).1.Coherent ↔ _
    rcases hget : t.get? k with _ | d
    · rw [remove_of_get?_eq_none hget]
      refine iff_of_true h fun d₀ hd₀ => ?_
      rw [hget] at hd₀
      cases hd₀
    · obtain ⟨hd, rfl⟩ := get?_eq_some_iff.1 hget
      rw [remove_of_stored hd, coherent_drop_iff h hd]
      refine ⟨fun hl d₀ hd₀ => ?_, fun hl => hl d hget⟩
      rw [hget] at hd₀
      rwa [← Option.some.inj hd₀]
  | clear => exact iff_of_true coherent_empty trivial

/-- **A table is coherent throughout a run exactly when every operation of the run
is safe.** -/
theorem coherent_run_iff (ops : List (Op δ κ)) :
    (∀ pre, pre <+: ops → (Machine.run step (empty : Table key index) pre).Coherent) ↔
      Machine.Always step Safe (empty : Table key index) ops :=
  Machine.inv_prefix_iff (I := Coherent) (fun _ op h => coherent_step_iff h op) coherent_empty ops

end Table
end ScamOn
