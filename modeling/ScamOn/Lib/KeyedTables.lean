import Mathlib.Data.List.Perm.Basic

/-!
# Tables with keys

A family of tables whose rows have keys and refer to rows of other tables by their keys, and what
becomes of it when every key is replaced by a new one.

* `Total`, `Separated` and `Resolved`: no row loses its key, different keys of one table stay
  different, and what refers to a row still does.
* `Transferred f received`: what was received are the new keys of all rows, each once.
* `length_filterMap_iff` and `separated_map_iff` say what it takes to be total and separated.
* `scan` goes through rows with a check that may raise; `of_scan` is its rule.
-/

universe u

namespace ScamOn

/-- The keys of each table, and the references of its rows: the table they lead to, and a key. -/
structure KeyedTables (T K : Type*) where
  keys : T → List K
  references : T → List (T × K)

namespace KeyedTables

variable {T K L M : Type*} (db : KeyedTables T K) (f : K → Option L)

/-- All rows have a new key. -/
def Total : Prop := ∀ t, ∀ k ∈ db.keys t, f k ≠ none

/-- Different keys of one table become different. -/
def Separated : Prop := ∀ t, ∀ k ∈ db.keys t, ∀ k' ∈ db.keys t, k ≠ k' → f k ≠ f k'

/-- What a reference becomes is the new key of a row. -/
def Resolved : Prop :=
  ∀ t, ∀ r ∈ db.references t, ∀ l, f r.2 = some l → ∃ k ∈ db.keys r.1, f k = some l

/-- There are no rows. -/
def IsEmpty : Prop := ∀ t, db.keys t = []

/-- The new keys of all rows were received, each once. -/
def Transferred [DecidableEq T] (received : List (T × L)) : Prop :=
  ∀ t, ((received.filter fun x => x.1 = t).map fun x => some x.2).Perm ((db.keys t).map f)

variable {db f}

/-- **Counting the new keys counts the rows** if and only if no row is without one. -/
theorem length_filterMap_iff :
    (∀ t, ((db.keys t).filterMap f).length = (db.keys t).length) ↔ db.Total f := by
  refine forall_congr' fun t => ?_
  rw [List.filterMap_length_eq_length]
  simp only [Option.isSome_iff_ne_none]

/-- **What is done in two steps separates keys as the first step does**, if the second confuses
nothing that is there. -/
theorem separated_map_iff {c : K → Option L} {g : L → M}
    (hg : ∀ t, ∀ k ∈ db.keys t, ∀ k' ∈ db.keys t, ∀ l l', c k = some l → c k' = some l' →
      g l = g l' → l = l') :
    db.Separated (fun k => (c k).map g) ↔ db.Separated c := by
  constructor
  · intro h t k hk k' hk' hne heq
    exact h t k hk k' hk' hne (congrArg (Option.map g) heq)
  · intro h t k hk k' hk' hne heq
    have hmap : (c k).map g = (c k').map g := heq
    refine h t k hk k' hk' hne ?_
    cases hc : c k with
    | none =>
      rw [hc, Option.map_none] at hmap
      exact (Option.map_eq_none_iff.1 hmap.symm).symm
    | some l =>
      cases hc' : c k' with
      | none =>
        rw [hc, hc'] at hmap
        cases hmap
      | some l' =>
        rw [hc, hc'] at hmap
        exact congrArg some (hg t k hk k' hk' l l' hc hc' (Option.some.inj hmap))

theorem transferred_nil_iff [DecidableEq T] : db.Transferred f [] ↔ db.IsEmpty := by
  refine forall_congr' fun t => ?_
  rw [List.filter_nil, List.map_nil, List.nil_perm, List.map_eq_nil_iff]

/-! ## Going through rows -/

variable {ε R : Type*} {L : Type u}

/-- The new keys that a check gives out, row after row, until it raises. -/
def scan (check : R → Except ε (Option L)) : List R → Except ε (List L)
  | [] => .ok []
  | r :: rows => do
    let target ← check r
    let targets ← scan check rows
    return target.toList ++ targets

/-- A computation that returns does so in both of its steps. -/
theorem of_bind {α β : Type u} {x : Except ε α} {next : α → Except ε β} {b : β} (h : x >>= next = .ok b) :
    ∃ a, x = .ok a ∧ next a = .ok b := by
  cases x with
  | error e => cases h
  | ok a => exact ⟨a, rfl, h⟩

/-- **What holds of every row that passes holds of all rows**, and the new keys are theirs. -/
theorem of_scan {check : R → Except ε (Option L)} {key : R → Option L} {P : R → Prop}
    (hcheck : ∀ r target, check r = .ok target → target = key r ∧ P r) {rows : List R}
    {targets : List L} (h : scan check rows = .ok targets) :
    targets = rows.filterMap key ∧ ∀ r ∈ rows, P r := by
  induction rows generalizing targets with
  | nil =>
    cases h
    exact ⟨rfl, fun r hr => nomatch hr⟩
  | cons r rows ih =>
    obtain ⟨target, htarget, h⟩ := of_bind h
    obtain ⟨rest, hrest, h⟩ := of_bind h
    cases h
    obtain ⟨rfl, hr⟩ := hcheck r target htarget
    obtain ⟨rfl, hrows⟩ := ih hrest
    refine ⟨?_, List.forall_mem_cons.2 ⟨hr, hrows⟩⟩
    rw [List.filterMap_cons]
    cases key r <;> rfl

end KeyedTables
end ScamOn
