import Mathlib.Data.List.Dedup
import Mathlib.Data.List.Perm.Subperm
import ScamOn.Lib.Dict
import ScamOn.Lib.Machine

/-!
# Caches with eviction and expiry

A cache in an ordered dictionary, the least recently used key first.  A put evicts the first key if
the cache is full, even if the key that is put is there already; an entry expires, and is dropped when
it is next asked for.

* `IsCache` says that the steps of a machine are those of such a cache.
* `lastPut`, `uses` and `othersSince` read the reference behaviour off the history of a run: what was
  last put for a key, which keys were put or successfully read, and how many others since.
* `Tracks` and `Accounts` are the invariants: what is stored was put last, and stored in the order of
  use; what is not stored has expired, or enough other keys were used since.
* `IsCache.step_boundedSound` holds of every call, and `IsCache.complete` of the runs in which no put
  evicts another key although its own is there.
-/

namespace ScamOn.LruCache

variable {τ κ β ε ν σ : Type*} [DecidableEq κ]

/-! ## The cache -/

/-- `move_to_end` of a key with its entry. -/
def touch (d : Dict κ ε) (k : κ) (e : ε) : Dict κ ε := (d.erase k).set k e

/-- `popitem(last=False)`; `none` is its `KeyError`. -/
def popOldest? (d : Dict κ ε) : Option (Dict κ ε) :=
  match d.entries with
  | (oldest, _) :: _ => some (d.erase oldest)
  | [] => none

/-- `popitem(last=False)`, if there is an item. -/
def evict (d : Dict κ ε) : Dict κ ε :=
  match d.entries with
  | (oldest, _) :: _ => d.erase oldest
  | [] => d

/-- A lookup. -/
def get (expired : ε → τ → Bool) (d : Dict κ ε) (k : κ) (now : τ) : Dict κ ε × Option ε :=
  match d.get? k with
  | some e => if expired e now then (d.erase k, none) else (touch d k e, some e)
  | none => (d, none)

/-- A put, with room for `n` entries. -/
def put (n : ℕ) (d : Dict κ ε) (k : κ) (e : ε) : Dict κ ε :=
  touch (if n ≤ d.entries.length then evict d else d) k e

/-- A put, with room for `n` entries, that raises when there is nothing to evict. -/
def put? (n : Int) (d : Dict κ ε) (k : κ) (e : ε) : Option (Dict κ ε) :=
  (if n ≤ d.entries.length then popOldest? d else some d).map fun d => touch d k e

section Cache

variable {d : Dict κ ε} {k k' : κ} {e : ε}

@[simp] theorem get?_touch : (touch d k e).get? k' = if k' = k then some e else d.get? k' := by
  rw [touch, Dict.get?_set, Dict.get?_erase]
  split_ifs <;> rfl

theorem keys_touch : (touch d k e).keys = d.keys.filter (· ≠ k) ++ [k] := by
  rw [touch, Dict.keys_set_of_get?_eq_none, Dict.keys_erase]
  rw [Dict.get?_erase, if_pos rfl]

omit [DecidableEq κ] in
theorem length_keys (d : Dict κ ε) : d.keys.length = d.entries.length := List.length_map _

/-- With room for any item, a put raises nothing. -/
theorem put?_eq {n : ℕ} (hn : 1 ≤ n) : put? n d k e = some (put n d k e) := by
  rw [put?, put]
  simp only [Int.ofNat_le]
  split_ifs with hfull
  · rw [popOldest?, evict]
    cases hentries : d.entries with
    | nil =>
      rw [hentries] at hfull
      exact absurd (Nat.le_trans hn hfull) (Nat.not_succ_le_zero 0)
    | cons p l => rfl
  · rfl

/-- What is there after a put was put, or is of another key and was there before. -/
theorem get?_of_put? {n : Int} {d' : Dict κ ε} {e' : ε} (hput : put? n d k e = some d')
    (h : d'.get? k' = some e') : k' = k ∧ e' = e ∨ k' ≠ k ∧ d.get? k' = some e' := by
  obtain ⟨room, hroom, rfl⟩ := Option.map_eq_some_iff.1 hput
  rw [get?_touch] at h
  split_ifs at h with hk
  · exact .inl ⟨hk, (Option.some.inj h).symm⟩
  · refine .inr ⟨hk, ?_⟩
    split_ifs at hroom
    · rw [popOldest?] at hroom
      split at hroom
      · cases hroom
        rw [Dict.get?_erase] at h
        split_ifs at h
        exact h
      · cases hroom
    · cases hroom
      exact h

/-- The keys before eviction. -/
theorem keys_of_evict {oldest : κ} {rest : List κ} (h : d.keys = oldest :: rest) :
    evict d = d.erase oldest ∧ (evict d).keys = rest := by
  have herase : evict d = d.erase oldest := by
    rw [evict]
    cases hentries : d.entries with
    | nil =>
      rw [Dict.keys, hentries] at h
      exact absurd h (List.cons_ne_nil _ _).symm
    | cons p l =>
      rw [Dict.keys, hentries] at h
      rw [(List.cons.inj h).1.symm]
  rw [herase]
  exact ⟨rfl, Dict.keys_erase_head h⟩

/-- A put makes no more entries than there is room for. -/
theorem length_put_le {n : ℕ} (hn : 1 ≤ n) (hd : d.entries.length ≤ n) (k : κ) (e : ε) :
    (put n d k e).entries.length ≤ n := by
  rw [← length_keys, put, keys_touch, List.length_append, List.length_singleton]
  have hfilter : ∀ d' : Dict κ ε, (d'.keys.filter (· ≠ k)).length ≤ d'.keys.length := fun d' =>
    List.length_filter_le _ _
  split_ifs with hfull
  · cases hkeys : d.keys with
    | nil =>
      rw [← length_keys, hkeys] at hfull
      exact absurd (Nat.le_trans hn hfull) (Nat.not_succ_le_zero 0)
    | cons oldest rest =>
      have hrest := hfilter (evict d)
      rw [(keys_of_evict hkeys).2] at hrest ⊢
      rw [← length_keys, hkeys, List.length_cons] at hd
      omega
  · have hrest := hfilter d
    rw [length_keys] at hrest
    omega

/-- **What a lookup does**: nothing, or it drops the entry, or it answers it. -/
theorem get_cases (expired : ε → τ → Bool) (d : Dict κ ε) (k : κ) (now : τ) :
    (d.get? k = none ∧ get expired d k now = (d, none)) ∨
      (∃ e, d.get? k = some e ∧ expired e now ∧ get expired d k now = (d.erase k, none)) ∨
      ∃ e, d.get? k = some e ∧ ¬expired e now ∧ get expired d k now = (touch d k e, some e) := by
  rw [get]
  cases hstored : d.get? k with
  | none => exact .inl ⟨rfl, rfl⟩
  | some e =>
    by_cases hexpired : expired e now
    · exact .inr (.inl ⟨e, rfl, hexpired, if_pos hexpired⟩)
    · exact .inr (.inr ⟨e, rfl, hexpired, if_neg hexpired⟩)

/-- What is there after a lookup was there before. -/
theorem get?_of_get {expired : ε → τ → Bool} {now : τ} {e : ε}
    (h : (get expired d k now).1.get? k' = some e) : d.get? k' = some e := by
  obtain ⟨-, hget⟩ | ⟨_, -, -, hget⟩ | ⟨old, hold, -, hget⟩ := get_cases expired d k now
  all_goals rw [hget] at h
  · exact h
  · rw [Dict.get?_erase] at h
    split_ifs at h
    exact h
  · rw [get?_touch] at h
    split_ifs at h with hk
    · rw [hk, hold, h]
    · exact h

/-- A lookup that answers nothing leaves nothing. -/
theorem get?_of_get_eq_none {expired : ε → τ → Bool} {now : τ}
    (h : (get expired d k now).2 = none) : (get expired d k now).1.get? k = none := by
  obtain ⟨hnone, hget⟩ | ⟨_, -, -, hget⟩ | ⟨_, -, -, hget⟩ := get_cases expired d k now
  all_goals rw [hget] at h ⊢
  · exact hnone
  · rw [Dict.get?_erase, if_pos rfl]
  · cases h

/-- A lookup makes no more entries. -/
theorem length_get_le (expired : ε → τ → Bool) (d : Dict κ ε) (k : κ) (now : τ) :
    (get expired d k now).1.entries.length ≤ d.entries.length := by
  rw [get]
  cases hstored : d.get? k with
  | none => exact Nat.le_refl _
  | some e =>
    dsimp only
    split_ifs
    · exact List.length_filter_le _ _
    · have hmem : k ∈ d.keys := Dict.mem_keys_iff.2 (by rw [hstored]; rfl)
      have hfewer : (d.keys.filter (· ≠ k)).length < d.keys.length :=
        List.length_filter_lt_length_iff_exists.2 ⟨k, hmem, by simp⟩
      rw [← length_keys, keys_touch, List.length_append, List.length_singleton]
      rw [length_keys] at hfewer
      exact hfewer

end Cache

/-! ## Machines with a cache -/

/-- What a machine with a cache is asked to do. -/
inductive Action (κ β : Type*)
  | get (k : κ)
  | put (k : κ) (b : β)

/-- An action and its instant. -/
structure Call (τ κ β : Type*) where
  now : τ
  action : Action κ β

/-- How entries are made, when they expire, and what they answer. -/
structure Kind (τ β ε ν : Type*) where
  entry : τ → β → ε
  expired : ε → τ → Bool
  value : ε → ν

/-- The steps of a machine, in the states that satisfy `I`, are those of a cache of `n` entries. -/
structure IsCache (kind : Kind τ β ε ν) (n : ℕ) (I : σ → Prop) (view : σ → Dict κ ε)
    (step : σ → Call τ κ β → σ × Option ν) : Prop where
  keeps : ∀ s a, I s → I (step s a).1
  get : ∀ s now k, I s → view (step s ⟨now, .get k⟩).1 = (get kind.expired (view s) k now).1 ∧
    (step s ⟨now, .get k⟩).2 = (LruCache.get kind.expired (view s) k now).2.map kind.value
  put : ∀ s now k b, I s →
    view (step s ⟨now, .put k b⟩).1 = put n (view s) k (kind.entry now b)

/-! ## The reference -/

/-- The history of a run. -/
abbrev History (τ κ β ν σ : Type*) : Type _ := List (Machine.Record σ (Call τ κ β) (Option ν))

section Reference

/-- What a call puts for a key. -/
def Call.puts (k : κ) (a : Call τ κ β) : Option (τ × β) :=
  match a.action with
  | .put k' b => if k' = k then some (a.now, b) else none
  | .get _ => none

/-- What was last put for a key, and when. -/
def lastPut (h : History τ κ β ν σ) (k : κ) : Option (τ × β) :=
  h.reverse.findSome? fun r => r.action.puts k

/-- The key that a call puts or successfully reads. -/
def usedKey (a : Call τ κ β) (answer : Option ν) : Option κ :=
  match a.action with
  | .put k _ => some k
  | .get k => answer.map fun _ => k

/-- The keys that were put or successfully read, in order. -/
def uses (h : History τ κ β ν σ) : List κ := h.filterMap fun r => usedKey r.action r.answer

/-- The keys that were used since the last use of a key. -/
def usedSince (used : List κ) (k : κ) : List κ := used.reverse.takeWhile (· ≠ k)

/-- How many other keys were used since the last use of a key. -/
def othersSince (used : List κ) (k : κ) : ℕ := (usedSince used k).dedup.length

variable {h : History τ κ β ν σ} {k k' : κ} {used : List κ}

theorem lastPut_concat (h : History τ κ β ν σ) (r : Machine.Record σ (Call τ κ β) (Option ν)) :
    lastPut (h ++ [r]) k = (r.action.puts k).or (lastPut h k) := by
  rw [lastPut, List.reverse_concat, List.findSome?_cons]
  cases r.action.puts k <;> rfl

omit [DecidableEq κ] in
theorem uses_concat (h : History τ κ β ν σ) (r : Machine.Record σ (Call τ κ β) (Option ν)) :
    uses (h ++ [r]) = uses h ++ (usedKey r.action r.answer).toList := by
  cases hused : usedKey r.action r.answer with
  | none => simp [uses, hused]
  | some k => simp [uses, hused]

theorem usedSince_concat (used : List κ) (k k' : κ) :
    usedSince (used ++ [k]) k' = if k' = k then [] else k :: usedSince used k' := by
  rw [usedSince, List.reverse_concat, List.takeWhile_cons]
  by_cases hk : k' = k
  · simp [hk]
  · rw [if_neg hk, if_pos (by simpa using Ne.symm hk)]
    rfl

theorem othersSince_le_concat (hk : k' ≠ k) : othersSince used k' ≤ othersSince (used ++ [k]) k' := by
  rw [othersSince, othersSince, usedSince_concat, if_neg hk]
  refine (List.Nodup.subperm (List.nodup_dedup _) fun x hx => ?_).length_le
  exact List.mem_dedup.2 (List.mem_cons_of_mem _ (List.mem_dedup.1 hx))

/-- Keys that are all different, and all used since the last use of a key, are counted. -/
theorem length_le_othersSince {keys : List κ} (hnodup : keys.Nodup)
    (hused : ∀ x ∈ keys, x ∈ usedSince used k) : keys.length ≤ othersSince used k :=
  (hnodup.subperm fun x hx => List.mem_dedup.2 (hused x hx)).length_le

end Reference

/-! ## What a run keeps -/

/-- What is stored is what was put last, and the keys come in the order of their last use. -/
structure Tracks (kind : Kind τ β ε ν) (d : Dict κ ε) (h : History τ κ β ν σ) : Prop where
  stored : ∀ k e, d.get? k = some e → ∃ t b, lastPut h k = some (t, b) ∧ e = kind.entry t b
  order : d.keys.Pairwise fun older newer => newer ∈ usedSince (uses h) older

/-- What was put and is not stored has expired, or enough other keys were used since. -/
def Accounts (kind : Kind τ β ε ν) (n : ℕ) (d : Dict κ ε) (h : History τ κ β ν σ) : Prop :=
  ∀ k t b, lastPut h k = some (t, b) → d.get? k = none →
    (∃ r ∈ h, kind.expired (kind.entry t b) r.action.now) ∨ n ≤ othersSince (uses h) k

/-- A put of a key that is there evicts no other key, unless that key's entry has expired. -/
def Spares (kind : Kind τ β ε ν) (n : ℕ) (d : Dict κ ε) (a : Call τ κ β) : Prop :=
  match a.action with
  | .get _ => True
  | .put k _ =>
    (d.get? k).isSome → n ≤ d.entries.length →
      ∀ p ∈ d.entries.head?, p.1 ≠ k → kind.expired p.2 a.now

instance Spares.decidable (kind : Kind τ β ε ν) (n : ℕ) (d : Dict κ ε) :
    ∀ a : Call τ κ β, Decidable (Spares kind n d a)
  | ⟨_, .get _⟩ => isTrue trivial
  | ⟨now, .put k _⟩ =>
    inferInstanceAs (Decidable ((d.get? k).isSome → n ≤ d.entries.length →
      ∀ p ∈ d.entries.head?, p.1 ≠ k → kind.expired p.2 now))

section Steps

variable {kind : Kind τ β ε ν} {n : ℕ} {d : Dict κ ε} {h : History τ κ β ν σ} {k : κ} {now : τ}
  {s : σ}

/-- The order of use survives a use. -/
theorem order_touch {used : List κ}
    (hd : d.keys.Pairwise fun older newer => newer ∈ usedSince used older) (e : ε) :
    (touch d k e).keys.Pairwise fun older newer => newer ∈ usedSince (used ++ [k]) older := by
  have hne : ∀ x ∈ d.keys.filter (· ≠ k), x ≠ k := fun x hx =>
    of_decide_eq_true (List.mem_filter.1 hx).2
  rw [keys_touch, List.pairwise_append]
  refine ⟨?_, List.pairwise_singleton _ _, fun x hx y hy => ?_⟩
  · refine (hd.filter _).imp_of_mem fun {x y} hx _ hxy => ?_
    rw [usedSince_concat, if_neg (hne x hx)]
    exact List.mem_cons_of_mem _ hxy
  · rw [List.mem_singleton.1 hy, usedSince_concat, if_neg (hne x hx)]
    exact List.mem_cons_self

/-- A cache with fewer entries tracks the same history. -/
theorem Tracks.erase (hd : Tracks kind d h) (k : κ) : Tracks kind (d.erase k) h := by
  constructor
  · intro k' e hstored
    rw [Dict.get?_erase] at hstored
    split_ifs at hstored
    exact hd.stored k' e hstored
  · rw [Dict.keys_erase]
    exact hd.order.filter _

theorem Tracks.evict (hd : Tracks kind d h) : Tracks kind (evict d) h := by
  rw [LruCache.evict]
  split
  · exact hd.erase _
  · exact hd

theorem lastPut_get (answer : Option ν) (k' : κ) :
    lastPut (h ++ [⟨s, ⟨now, .get k⟩, answer⟩]) k' = lastPut h k' := by
  rw [lastPut_concat]
  rfl

theorem lastPut_put (answer : Option ν) (b : β) (k' : κ) :
    lastPut (h ++ [⟨s, ⟨now, .put k b⟩, answer⟩]) k' =
      if k' = k then some (now, b) else lastPut h k' := by
  rw [lastPut_concat]
  by_cases hk : k' = k
  · simp [Call.puts, hk]
  · simp [Call.puts, hk, Ne.symm hk]

/-- **A lookup keeps track.** -/
theorem Tracks.get (hd : Tracks kind d h) (k : κ) (now : τ) (s : σ) :
    Tracks kind (LruCache.get kind.expired d k now).1
      (h ++ [⟨s, ⟨now, .get k⟩, (LruCache.get kind.expired d k now).2.map kind.value⟩]) := by
  obtain ⟨-, hget⟩ | ⟨e, -, -, hget⟩ | ⟨e, hstored, -, hget⟩ := get_cases kind.expired d k now
  all_goals rw [hget]
  · refine ⟨fun k' e he => ?_, ?_⟩
    · rw [lastPut_get]
      exact hd.stored k' e he
    · rw [uses_concat]
      simpa [usedKey] using hd.order
  · refine ⟨fun k' e he => ?_, ?_⟩
    · rw [lastPut_get]
      exact (hd.erase k).stored k' e he
    · rw [uses_concat]
      simpa [usedKey] using (hd.erase k).order
  · refine ⟨fun k' e' he => ?_, ?_⟩
    · rw [lastPut_get]
      rw [get?_touch] at he
      split_ifs at he with hk
      · rw [hk]
        exact hd.stored k e' (hstored.trans he)
      · exact hd.stored k' e' he
    · rw [uses_concat]
      exact order_touch hd.order e

/-- **A put keeps track.** -/
theorem Tracks.put (hd : Tracks kind d h) (n : ℕ) (k : κ) (b : β) (now : τ) (s : σ)
    (answer : Option ν) :
    Tracks kind (LruCache.put n d k (kind.entry now b))
      (h ++ [⟨s, ⟨now, .put k b⟩, answer⟩]) := by
  have hroom : Tracks kind (if n ≤ d.entries.length then LruCache.evict d else d) h := by
    split_ifs
    · exact hd.evict
    · exact hd
  rw [LruCache.put]
  refine ⟨fun k' e he => ?_, ?_⟩
  · rw [lastPut_put]
    rw [get?_touch] at he
    by_cases hk : k' = k
    · rw [if_pos hk] at he ⊢
      exact ⟨now, b, rfl, (Option.some.inj he).symm⟩
    · rw [if_neg hk] at he ⊢
      exact hroom.stored k' e he
  · rw [uses_concat]
    exact order_touch hroom.order _

/-- The history accounts for a key that it accounted for before the last use. -/
theorem Accounts.concat (hd : Accounts kind n d h) {k' : κ} {t : τ} {b : β}
    (r : Machine.Record σ (Call τ κ β) (Option ν)) (hput : lastPut h k' = some (t, b))
    (hnone : d.get? k' = none) (hused : usedKey r.action r.answer ≠ some k') :
    (∃ r' ∈ h ++ [r], kind.expired (kind.entry t b) r'.action.now) ∨
      n ≤ othersSince (uses (h ++ [r])) k' := by
  obtain ⟨r', hr', hexpired⟩ | hothers := hd k' t b hput hnone
  · exact .inl ⟨r', List.mem_append_left _ hr', hexpired⟩
  · right
    rw [uses_concat]
    cases hkey : usedKey r.action r.answer with
    | none => simpa using hothers
    | some k =>
      have hne : k' ≠ k := fun hk => hused (hkey.trans (congrArg some hk.symm))
      exact Nat.le_trans hothers (othersSince_le_concat hne)

/-- **A lookup accounts for what it drops.** -/
theorem Accounts.get (hd : Accounts kind n d h) (htracks : Tracks kind d h) (k : κ) (now : τ)
    (s : σ) :
    Accounts kind n (LruCache.get kind.expired d k now).1
      (h ++ [⟨s, ⟨now, .get k⟩, (LruCache.get kind.expired d k now).2.map kind.value⟩]) := by
  intro k' t b hput hnone
  rw [lastPut_get] at hput
  obtain ⟨-, hget⟩ | ⟨e, hstored, hexpired, hget⟩ | ⟨e, hstored, -, hget⟩ :=
    get_cases kind.expired d k now
  all_goals rw [hget] at hnone ⊢
  · exact hd.concat _ hput hnone nofun
  · by_cases hk : k' = k
    · obtain ⟨t', b', hlast, he⟩ := htracks.stored k e hstored
      rw [← hk, hput] at hlast
      cases hlast
      exact .inl ⟨_, List.mem_append_right _ (List.mem_singleton.2 rfl), by rwa [← he]⟩
    · rw [Dict.get?_erase, if_neg hk] at hnone
      exact hd.concat _ hput hnone nofun
  · rw [get?_touch] at hnone
    split_ifs at hnone with hk
    exact hd.concat _ hput hnone fun hused => hk (Option.some.inj hused).symm

/-- A key that a put of a new key evicts is followed by enough others. -/
theorem othersSince_of_evicted (htracks : Tracks kind d h) {oldest : κ} {rest : List κ}
    (hkeys : d.keys = oldest :: rest) (hfull : n ≤ d.entries.length) (hk : d.get? k = none) :
    n ≤ othersSince (uses h ++ [k]) oldest := by
  have hnot : k ∉ d.keys := by
    rw [Dict.mem_keys_iff, hk]
    nofun
  have hnodup : (oldest :: rest).Nodup := hkeys ▸ d.nodup_keys
  have horder := htracks.order
  rw [hkeys] at horder hnot
  have hne : oldest ≠ k := fun heq => hnot (heq ▸ List.mem_cons_self)
  have hlength : n ≤ (k :: rest).length := by
    rw [← length_keys, hkeys] at hfull
    exact hfull
  refine Nat.le_trans hlength (length_le_othersSince ?_ fun x hx => ?_)
  · exact List.nodup_cons.2 ⟨fun hmem => hnot (List.mem_cons_of_mem _ hmem),
      (List.nodup_cons.1 hnodup).2⟩
  · rw [usedSince_concat, if_neg hne]
    rcases List.mem_cons.1 hx with rfl | hrest
    · exact List.mem_cons_self
    · exact List.mem_cons_of_mem _ ((List.pairwise_cons.1 horder).1 x hrest)

/-- **A put accounts for what it evicts**, if it spares the others when its own key is there. -/
theorem Accounts.put (hd : Accounts kind n d h) (htracks : Tracks kind d h) {k : κ} {b : β}
    {now : τ} (hspares : Spares kind n d ⟨now, .put k b⟩) (s : σ) (answer : Option ν) :
    Accounts kind n (LruCache.put n d k (kind.entry now b))
      (h ++ [⟨s, ⟨now, .put k b⟩, answer⟩]) := by
  intro k' t b' hput hnone
  rw [LruCache.put, get?_touch] at hnone
  rw [lastPut_put] at hput
  split_ifs at hnone hput with hk hfull
  · have hused : usedKey (⟨now, .put k b⟩ : Call τ κ β) answer ≠ some k' := fun hused =>
      hk (Option.some.inj hused).symm
    cases hstored : d.get? k' with
    | none => exact hd.concat _ hput hstored hused
    | some e =>
      -- the key was there, so it is the one that was evicted
      cases hentries : d.entries with
      | nil =>
        rw [LruCache.evict, hentries] at hnone
        exact absurd (hnone.symm.trans hstored) nofun
      | cons p l =>
        have hkeys : d.keys = p.1 :: l.map Prod.fst := by rw [Dict.keys, hentries, List.map_cons]
        rw [(keys_of_evict hkeys).1, Dict.get?_erase] at hnone
        split_ifs at hnone with holdest
        · cases hown : d.get? k with
          | none =>
            refine .inr ?_
            rw [uses_concat, holdest]
            exact othersSince_of_evicted htracks hkeys hfull hown
          | some own =>
            have hexpired : kind.expired p.2 now :=
              hspares (by rw [hown]; rfl) hfull p (by rw [hentries]; rfl) (holdest ▸ hk)
            obtain ⟨t', b'', hlast, he⟩ := htracks.stored p.1 p.2
              (Dict.mem_entries_iff.1 (by rw [hentries]; exact List.mem_cons_self))
            rw [← holdest, hput] at hlast
            cases hlast
            exact .inl ⟨_, List.mem_append_right _ (List.mem_singleton.2 rfl), by rwa [← he]⟩
        · exact absurd (hnone.symm.trans hstored) nofun
  · exact hd.concat _ hput hnone fun hused => hk (Option.some.inj hused).symm

end Steps

/-! ## Whole runs -/

section Runs

variable (kind : Kind τ β ε ν) (n : ℕ) (view : σ → Dict κ ε)
  (step : σ → Call τ κ β → σ × Option ν)

/-- A call leaves no more entries than there is room for, and what a lookup answers was put last
and has not expired. -/
structure BoundedSound (s : σ × History τ κ β ν σ) (a : Call τ κ β) : Prop where
  bounded : (view (step s.1 a).1).entries.length ≤ n
  sound : ∀ k v, a.action = .get k → (step s.1 a).2 = some v →
    ∃ t b, lastPut s.2 k = some (t, b) ∧ kind.value (kind.entry t b) = v ∧
      ¬kind.expired (kind.entry t b) a.now

/-- A lookup answers what was put last, if it has not expired and too few other keys were used
since the key was. -/
def Complete (s : σ × History τ κ β ν σ) (a : Call τ κ β) : Prop :=
  ∀ k t b, a.action = .get k → lastPut s.2 k = some (t, b) →
    ¬kind.expired (kind.entry t b) a.now → othersSince (uses s.2) k < n →
    (step s.1 a).2 = some (kind.value (kind.entry t b))

variable {kind n view step} {I : σ → Prop}

/-- What every run keeps. -/
structure Kept (kind : Kind τ β ε ν) (n : ℕ) (I : σ → Prop) (view : σ → Dict κ ε)
    (s : σ × History τ κ β ν σ) : Prop where
  inv : I s.1
  bounded : (view s.1).entries.length ≤ n
  tracks : Tracks kind (view s.1) s.2

theorem kept_empty {s : σ} (hs : I s) (hempty : view s = ∅) :
    Kept kind n I view ((s, []) : σ × History τ κ β ν σ) := by
  refine ⟨hs, ?_, ?_, ?_⟩
  · rw [hempty]
    exact Nat.zero_le n
  · rw [hempty]
    exact nofun
  · rw [hempty]
    exact List.Pairwise.nil

theorem IsCache.step_kept (hcache : IsCache kind n I view step) (hn : 1 ≤ n)
    {s : σ × History τ κ β ν σ} (hs : Kept kind n I view s) (a : Call τ κ β) :
    Kept kind n I view (Machine.recorded step s a).1 := by
  obtain ⟨now, action⟩ := a
  cases action with
  | get k =>
    obtain ⟨hview, hanswer⟩ := hcache.get s.1 now k hs.inv
    refine ⟨hcache.keeps _ _ hs.inv, ?_, ?_⟩
    · rw [Machine.recorded, hview]
      exact Nat.le_trans (length_get_le _ _ k now) hs.bounded
    · rw [Machine.recorded, hview, hanswer]
      exact hs.tracks.get k now s.1
  | put k b =>
    have hview := hcache.put s.1 now k b hs.inv
    refine ⟨hcache.keeps _ _ hs.inv, ?_, ?_⟩
    · rw [Machine.recorded, hview]
      exact length_put_le hn hs.bounded k _
    · rw [Machine.recorded, hview]
      exact hs.tracks.put n k b now s.1 _

/-- **What a step answers** in a state that a run keeps. -/
theorem IsCache.step_boundedSound (hcache : IsCache kind n I view step) (hn : 1 ≤ n)
    {s : σ × History τ κ β ν σ} (hs : Kept kind n I view s) (a : Call τ κ β) :
    BoundedSound kind n view step s a := by
  refine ⟨(hcache.step_kept hn hs a).bounded, fun k v haction hanswer => ?_⟩
  obtain ⟨now, action⟩ := a
  subst haction
  rw [(hcache.get s.1 now k hs.inv).2] at hanswer
  obtain ⟨-, hget⟩ | ⟨e, -, -, hget⟩ | ⟨e, hstored, hexpired, hget⟩ :=
    get_cases kind.expired (view s.1) k now
  all_goals rw [hget] at hanswer
  · exact nomatch hanswer
  · exact nomatch hanswer
  · obtain ⟨t, b, hlast, he⟩ := hs.tracks.stored k e hstored
    rw [he] at hexpired hanswer
    exact ⟨t, b, hlast, Option.some.inj hanswer, hexpired⟩

/-- A call is not before any call of its history. -/
def Timely [LE τ] (s : σ × History τ κ β ν σ) (a : Call τ κ β) : Prop :=
  ∀ r ∈ s.2, r.action.now ≤ a.now

/-- **The history goes on accounting for what is not stored.** -/
theorem IsCache.step_accounts (hcache : IsCache kind n I view step)
    {s : σ × History τ κ β ν σ} (hs : Kept kind n I view s)
    (haccounts : Accounts kind n (view s.1) s.2) {a : Call τ κ β}
    (hspares : Spares kind n (view s.1) a) :
    Accounts kind n (view (Machine.recorded step s a).1.1) (Machine.recorded step s a).1.2 := by
  obtain ⟨now, action⟩ := a
  cases action with
  | get k =>
    obtain ⟨hview, hanswer⟩ := hcache.get s.1 now k hs.inv
    rw [Machine.recorded, hview, hanswer]
    exact haccounts.get hs.tracks k now s.1
  | put k b =>
    rw [Machine.recorded, hcache.put s.1 now k b hs.inv]
    exact haccounts.put hs.tracks hspares s.1 _

/-- **A lookup is complete** where the history accounts for what is not stored. -/
theorem IsCache.step_complete [Preorder τ] (hcache : IsCache kind n I view step)
    (hmono : ∀ e {t t'}, t ≤ t' → kind.expired e t → kind.expired e t')
    {s : σ × History τ κ β ν σ} (hs : Kept kind n I view s)
    (haccounts : Accounts kind n (view s.1) s.2) {a : Call τ κ β} (htimely : Timely s a) :
    Complete kind n step s a := by
  intro k t b haction hlast hfresh hothers
  obtain ⟨now, action⟩ := a
  subst haction
  rw [(hcache.get s.1 now k hs.inv).2]
  have hentry : ∀ e, (view s.1).get? k = some e → e = kind.entry t b := by
    intro e hstored
    obtain ⟨t', b', hlast', he⟩ := hs.tracks.stored k e hstored
    rw [hlast] at hlast'
    cases hlast'
    exact he
  obtain ⟨hnone, -⟩ | ⟨e, hstored, hexpired, -⟩ | ⟨e, hstored, -, hget⟩ :=
    get_cases kind.expired (view s.1) k now
  · obtain ⟨r, hr, hexpired⟩ | hmany := haccounts k t b hlast hnone
    · exact absurd (hmono _ (htimely r hr) hexpired) hfresh
    · exact absurd hothers (Nat.not_lt.2 hmany)
  · rw [hentry e hstored] at hexpired
    exact absurd hexpired hfresh
  · rw [hget, hentry e hstored]
    rfl

/-- **The runs in which every put spares the others.**  At nondecreasing times the cache is then
bounded, sound and complete. -/
theorem IsCache.complete [Preorder τ] (hcache : IsCache kind n I view step) (hn : 1 ≤ n)
    (hmono : ∀ e {t t'}, t ≤ t' → kind.expired e t → kind.expired e t') {s : σ} (hs : I s)
    (hempty : view s = ∅) {as : List (Call τ κ β)}
    (hsorted : as.Pairwise fun a b => a.now ≤ b.now)
    (hspares : Machine.Always step (fun s a => Spares kind n (view s) a) s as) :
    Machine.Always (Machine.recorded step)
      (fun s a => BoundedSound kind n view step s a ∧ Complete kind n step s a) (s, []) as := by
  have hconditions : Machine.Always (Machine.recorded step)
      (fun s a => Spares kind n (view s.1) a ∧ Timely s a) (s, []) as :=
    Machine.always_and.2 ⟨(Machine.always_recorded s [] as).2 hspares,
      Machine.always_recorded_of_pairwise s nofun hsorted⟩
  have hstart : Kept kind n I view ((s, []) : σ × History τ κ β ν σ) ∧
      Accounts kind n (view s) ([] : History τ κ β ν σ) := ⟨kept_empty hs hempty, nofun⟩
  refine Machine.always_of_inv
    (I := fun s => Kept kind n I view s ∧ Accounts kind n (view s.1) s.2) ?_ ?_ hstart hconditions
  · exact fun s a hs ha => ⟨hcache.step_kept hn hs.1 a, hcache.step_accounts hs.1 hs.2 ha.1⟩
  · exact fun s a hs ha =>
      ⟨hcache.step_boundedSound hn hs.1 a, hcache.step_complete hmono hs.1 hs.2 ha.2⟩

end Runs

end ScamOn.LruCache
