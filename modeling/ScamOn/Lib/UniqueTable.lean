import Mathlib.Data.List.Nodup

/-!
# Tables with unique columns

A table of a relational database, with the columns that the schema declares unique.  A row that repeats
a value of one of them cannot be inserted, and no table that repeats one can be written down.

* `insert?` and `update` are the writes.  `insert?_eq_some` and `insert?_isSome_iff` say what an
  insertion leaves, and when it succeeds.
* `find?_eq_some_iff`: looking for a value of a unique column finds the row that has it.
* `Refers` is a foreign key: the values of one column are among those of another.
* `scalarOneOrNone` is the row of an answer that has one row at most; `scalarOneOrNone_filter` says
  what it finds under a unique key.
-/

namespace ScamOn

/-- A table, in the order of its insertions, whose columns `columns` have no value twice. -/
structure UniqueTable (ρ : Type*) (columns : List (ρ → String)) where
  rows : List ρ
  unique : ∀ c ∈ columns, (rows.map c).Nodup

namespace UniqueTable

variable {ρ : Type*} {columns : List (ρ → String)}

/-- The table without rows. -/
def empty : UniqueTable ρ columns := ⟨[], fun _ _ => List.nodup_nil⟩

theorem unique_append {t : UniqueTable ρ columns} {r : ρ}
    (h : ∀ c ∈ columns, c r ∉ t.rows.map c) : ∀ c ∈ columns, ((t.rows ++ [r]).map c).Nodup := by
  intro c hc
  rw [List.map_append, List.map_cons, List.map_nil]
  apply List.Nodup.append (t.unique c hc) (List.nodup_singleton _)
  intro v hv hv'
  rw [List.mem_singleton.1 hv'] at hv
  exact h c hc hv

/-- `INSERT INTO`; `none` is the violation of a unique column. -/
def insert? (t : UniqueTable ρ columns) (r : ρ) : Option (UniqueTable ρ columns) :=
  if h : ∀ c ∈ columns, c r ∉ t.rows.map c then some ⟨t.rows ++ [r], unique_append h⟩ else none

theorem unique_map {t : UniqueTable ρ columns} {f : ρ → ρ} (h : ∀ c ∈ columns, ∀ r, c (f r) = c r) :
    ∀ c ∈ columns, ((t.rows.map f).map c).Nodup := by
  intro c hc
  have hsame : (t.rows.map f).map c = t.rows.map c := by
    rw [List.map_map]
    exact List.map_congr_left fun r _ => h c hc r
  rw [hsame]
  exact t.unique c hc

/-- `UPDATE`, of columns that are not unique. -/
def update (t : UniqueTable ρ columns) (f : ρ → ρ) (h : ∀ c ∈ columns, ∀ r, c (f r) = c r) :
    UniqueTable ρ columns :=
  ⟨t.rows.map f, unique_map h⟩

theorem insert?_eq_some {t t' : UniqueTable ρ columns} {r : ρ} (h : t.insert? r = some t') :
    t'.rows = t.rows ++ [r] := by
  unfold insert? at h
  split_ifs at h
  rw [← Option.some.inj h]

theorem insert?_isSome_iff {t : UniqueTable ρ columns} {r : ρ} :
    (∃ t', t.insert? r = some t') ↔ ∀ c ∈ columns, c r ∉ t.rows.map c := by
  unfold insert?
  constructor
  · rintro ⟨t', h⟩
    by_contra hnot
    rw [dif_neg hnot] at h
    cases h
  · intro h
    exact ⟨_, dif_pos h⟩

/-- A unique column determines the row. -/
theorem eq_of_column {t : UniqueTable ρ columns} {c : ρ → String} (hc : c ∈ columns) {r r' : ρ}
    (hr : r ∈ t.rows) (hr' : r' ∈ t.rows) (h : c r = c r') : r = r' :=
  List.inj_on_of_nodup_map (t.unique c hc) hr hr' h

/-- **What a look-up finds**, in a unique column. -/
theorem find?_eq_some_iff {t : UniqueTable ρ columns} {c : ρ → String} (hc : c ∈ columns) {v : String}
    {r : ρ} : t.rows.find? (fun x => c x = v) = some r ↔ r ∈ t.rows ∧ c r = v := by
  constructor
  · intro h
    exact ⟨List.mem_of_find?_eq_some h, by simpa using List.find?_some h⟩
  · rintro ⟨hr, hv⟩
    cases hfind : t.rows.find? (fun x => c x = v) with
    | none =>
      have hnone := List.find?_eq_none.1 hfind r hr
      exact absurd (decide_eq_true hv) hnone
    | some r' =>
      have hv' : c r' = v := by simpa using List.find?_some hfind
      rw [eq_of_column hc (List.mem_of_find?_eq_some hfind) hr (hv'.trans hv.symm)]

end UniqueTable

/-- A foreign key: what a column refers to is there. -/
def Refers (references keys : List String) : Prop := references ⊆ keys

namespace Refers

variable {references keys : List String}

theorem nil : Refers [] keys := List.nil_subset _

/-- More rows may be added to the table that is referred to. -/
theorem append_keys (h : Refers references keys) (more : List String) :
    Refers references (keys ++ more) :=
  List.Subset.trans h (List.subset_append_left _ _)

theorem append_references {more : List String} (h : Refers references keys) (h' : Refers more keys) :
    Refers (references ++ more) keys :=
  List.append_subset.2 ⟨h, h'⟩

instance : Decidable (Refers references keys) :=
  inferInstanceAs (Decidable (references ⊆ keys))

end Refers

/-! ## The row of an answer -/

/-- `scalar_one_or_none()` of the rows of an answer; `multiple` is raised for more than one. -/
def scalarOneOrNone {ρ ε : Type} (multiple : ε) : List ρ → Except ε (Option ρ)
  | [] => .ok none
  | [row] => .ok (some row)
  | _ :: _ :: _ => .error multiple

section Answer

variable {ρ ε κ : Type} {multiple : ε} {rows : List ρ}

theorem scalarOneOrNone_mem {row : ρ} (h : scalarOneOrNone multiple rows = .ok (some row)) :
    row ∈ rows := by
  unfold scalarOneOrNone at h
  split at h
  · cases h
  · cases h
    exact List.mem_singleton.2 rfl
  · cases h

theorem scalarOneOrNone_eq_none : scalarOneOrNone multiple rows = .ok none ↔ rows = [] := by
  match rows with
  | [] => simp [scalarOneOrNone]
  | [row] => simp [scalarOneOrNone]
  | row :: row' :: rows => simp [scalarOneOrNone]

/-- Where a key is unique, looking it up finds the row that has it, if there is one. -/
theorem scalarOneOrNone_filter [DecidableEq κ] {key : ρ → κ} (h : (rows.map key).Nodup) (k : κ) :
    scalarOneOrNone multiple (rows.filter fun row => key row = k) =
      .ok (rows.find? fun row => key row = k) := by
  induction rows with
  | nil => rfl
  | cons row rows ih =>
    rw [List.map_cons, List.nodup_cons] at h
    by_cases hrow : key row = k
    · have hrest : (rows.filter fun row => key row = k) = [] := by
        rw [List.filter_eq_nil_iff]
        intro other hother heq
        exact h.1 (List.mem_map.2 ⟨other, hother, by simpa [hrow] using heq⟩)
      simp [hrow, hrest, scalarOneOrNone]
    · simpa [hrow] using ih h.2

end Answer

end ScamOn
