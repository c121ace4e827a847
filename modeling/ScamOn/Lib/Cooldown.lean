import Mathlib.Algebra.Order.Monoid.Defs
import Mathlib.Data.Set.Insert
import ScamOn.Lib.Dict

/-!
# Cooldowns

A key that has been announced may not be announced again before a window of time has passed.  A
program that keeps to this has a table of the instants at which the windows close, and clears it as
it goes.

* `Waits` is the rule, over the announcements so far.
* `Live` is what the table says.
* `Tracks`: from now on the table says of every key what the announcements say.  `Tracks.prune` and
  `Tracks.announce` are the two things a program does to the table.
-/

namespace ScamOn.Cooldown

variable {κ τ : Type*} [DecidableEq κ] [LinearOrder τ]

/-- The entries of a table whose windows are open. -/
def prune (cache : Dict κ τ) (now : τ) : Dict κ τ :=
  cache.filter fun p => now < p.2

/-- The table has an open window for the key. -/
def Live (cache : Dict κ τ) (now : τ) (k : κ) : Prop :=
  ∃ exp, cache.get? k = some exp ∧ now < exp

/-- The key has been announced, and the window of that announcement is open. -/
def Waits [Add τ] (window : τ) (log : Set (κ × τ)) (now : τ) (k : κ) : Prop :=
  ∃ t, (k, t) ∈ log ∧ now < t + window

/-- From `now` on, the table says what the announcements say. -/
def Tracks [Add τ] (window now : τ) (cache : Dict κ τ) (log : Set (κ × τ)) : Prop :=
  ∀ t, now ≤ t → ∀ k, Live cache t k ↔ Waits window log t k

variable {cache : Dict κ τ} {now t : τ} {k : κ}

theorem contains_prune_iff : (prune cache now).contains k = true ↔ Live cache now k := by
  rw [Dict.contains, prune, Dict.get?_filter, Option.isSome_iff_exists]
  refine exists_congr fun exp => ?_
  rw [Option.filter_eq_some_iff, decide_eq_true_eq]

/-- Clearing a table loses nothing that is still to be asked for. -/
theorem live_prune_iff (h : now ≤ t) : Live (prune cache now) t k ↔ Live cache t k := by
  refine exists_congr fun exp => and_congr_left fun hexp => ?_
  rw [prune, Dict.get?_filter, Option.filter_eq_some_iff, decide_eq_true_eq]
  exact and_iff_left (lt_of_le_of_lt h hexp)

theorem live_set_iff {exp : τ} {k' : κ} :
    Live (cache.set k exp) t k' ↔ if k' = k then t < exp else Live cache t k' := by
  unfold Live
  rw [Dict.get?_set]
  split_ifs with hkey
  · constructor
    · rintro ⟨exp', hexp', hlt⟩
      obtain rfl := Option.some.inj hexp'
      exact hlt
    · intro hlt
      exact ⟨exp, rfl, hlt⟩
  · exact Iff.rfl

section Window

variable [Add τ] {window : τ} {log : Set (κ × τ)}

theorem tracks_empty : Tracks window now (∅ : Dict κ τ) ∅ := by
  intro t _ k
  constructor
  · rintro ⟨exp, hget, -⟩
    cases hget
  · rintro ⟨t', hmem, -⟩
    exact absurd hmem (Set.notMem_empty _)

theorem Tracks.mono (h : Tracks window now cache log) (hle : now ≤ t) :
    Tracks window t cache log :=
  fun t' ht' => h t' (hle.trans ht')

theorem Tracks.prune (h : Tracks window now cache log) :
    Tracks window now (prune cache now) log :=
  fun t ht k => (live_prune_iff ht).trans (h t ht k)

omit [DecidableEq κ] in
theorem waits_insert_iff {k' : κ} :
    Waits window (insert (k, now) log) t k' ↔
      (k' = k ∧ t < now + window) ∨ Waits window log t k' := by
  constructor
  · rintro ⟨t', hmem, hlt⟩
    rcases Set.mem_insert_iff.1 hmem with heq | hold
    · obtain ⟨rfl, rfl⟩ := Prod.mk.inj heq
      exact .inl ⟨rfl, hlt⟩
    · exact .inr ⟨t', hold, hlt⟩
  · rintro (⟨rfl, hlt⟩ | ⟨t', hold, hlt⟩)
    · exact ⟨now, Set.mem_insert _ _, hlt⟩
    · exact ⟨t', Set.mem_insert_of_mem _ hold, hlt⟩

/-- **An announcement** of a key that does not have to wait. -/
theorem Tracks.announce (h : Tracks window now cache log) (hfree : ¬Live cache now k) :
    Tracks window now ((Cooldown.prune cache now).set k (now + window))
      (insert (k, now) log) := by
  intro t ht k'
  rw [live_set_iff, waits_insert_iff, live_prune_iff ht, h t ht k']
  by_cases hkey : k' = k
  · rw [if_pos hkey, hkey]
    constructor
    · intro hlt
      exact .inl ⟨rfl, hlt⟩
    · rintro (⟨-, hlt⟩ | ⟨t', hmem, hlt⟩)
      · exact hlt
      · -- an open window at `t` would have been open at `now`
        exact absurd ((h now (le_refl _) k).2 ⟨t', hmem, lt_of_le_of_lt ht hlt⟩) hfree
  · rw [if_neg hkey]
    constructor
    · exact .inr
    · rintro (⟨heq, -⟩ | hwaits)
      · exact absurd heq hkey
      · exact hwaits

end Window

end ScamOn.Cooldown
