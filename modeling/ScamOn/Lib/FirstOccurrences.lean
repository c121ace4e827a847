import Mathlib.Data.List.Nodup

/-!
# First occurrences

A list is split in one pass into the entries whose key did not occur before, and those that repeat
an earlier key.  An entry may have no key, and repeats nothing then.

* `exists_mem_firsts`: every key is still there among the first occurrences.
* `eq_of_mem_firsts` and `nodup_keys_firsts`: and it is there once.
* `firsts_eq_self`: where no key repeats, nothing is left out.
* `repeats_firsts`: a second pass finds nothing.
* `filter_notMem_repeats`: deleting the repeats by their names leaves the first occurrences.
-/

namespace ScamOn

variable {α κ : Type*} [DecidableEq κ] (key : α → Option κ)

/-- The entries whose key was not seen before. -/
def firsts : List κ → List α → List α
  | _, [] => []
  | seen, a :: l =>
    match key a with
    | none => a :: firsts seen l
    | some k => if k ∈ seen then firsts seen l else a :: firsts (k :: seen) l

/-- The entries whose key was seen before. -/
def repeats : List κ → List α → List α
  | _, [] => []
  | seen, a :: l =>
    match key a with
    | none => repeats seen l
    | some k => if k ∈ seen then a :: repeats seen l else repeats (k :: seen) l

variable {key}

section Head

variable {seen : List κ} {a : α} {l : List α} {k : κ}

theorem firsts_cons_of_none (h : key a = none) : firsts key seen (a :: l) = a :: firsts key seen l := by
  rw [firsts, h]

theorem firsts_cons_of_mem (h : key a = some k) (hk : k ∈ seen) :
    firsts key seen (a :: l) = firsts key seen l := by
  rw [firsts, h]
  exact if_pos hk

theorem firsts_cons_of_notMem (h : key a = some k) (hk : k ∉ seen) :
    firsts key seen (a :: l) = a :: firsts key (k :: seen) l := by
  rw [firsts, h]
  exact if_neg hk

theorem repeats_cons_of_none (h : key a = none) : repeats key seen (a :: l) = repeats key seen l := by
  rw [repeats, h]

theorem repeats_cons_of_mem (h : key a = some k) (hk : k ∈ seen) :
    repeats key seen (a :: l) = a :: repeats key seen l := by
  rw [repeats, h]
  exact if_pos hk

theorem repeats_cons_of_notMem (h : key a = some k) (hk : k ∉ seen) :
    repeats key seen (a :: l) = repeats key (k :: seen) l := by
  rw [repeats, h]
  exact if_neg hk

end Head

theorem repeats_sublist (seen : List κ) (l : List α) : (repeats key seen l).Sublist l := by
  induction l generalizing seen with
  | nil => exact List.Sublist.refl _
  | cons a l ih =>
    cases ha : key a with
    | none =>
      rw [repeats_cons_of_none ha]
      exact (ih seen).cons a
    | some k =>
      by_cases hk : k ∈ seen
      · rw [repeats_cons_of_mem ha hk]
        exact (ih seen).cons_cons a
      · rw [repeats_cons_of_notMem ha hk]
        exact (ih (k :: seen)).cons a

theorem mem_of_mem_firsts {seen : List κ} {l : List α} {a : α} (ha : a ∈ firsts key seen l) : a ∈ l := by
  induction l generalizing seen with
  | nil => cases ha
  | cons b l ih =>
    cases hb : key b with
    | none =>
      rw [firsts_cons_of_none hb] at ha
      exact List.mem_cons.2 ((List.mem_cons.1 ha).imp_right ih)
    | some k =>
      by_cases hk : k ∈ seen
      · rw [firsts_cons_of_mem hb hk] at ha
        exact List.mem_cons_of_mem b (ih ha)
      · rw [firsts_cons_of_notMem hb hk] at ha
        exact List.mem_cons.2 ((List.mem_cons.1 ha).imp_right ih)

theorem length_repeats_add_length_firsts (seen : List κ) (l : List α) :
    (repeats key seen l).length + (firsts key seen l).length = l.length := by
  induction l generalizing seen with
  | nil => rfl
  | cons a l ih =>
    cases ha : key a with
    | none =>
      have hrest := ih seen
      rw [repeats_cons_of_none ha, firsts_cons_of_none ha, List.length_cons, List.length_cons]
      omega
    | some k =>
      by_cases hk : k ∈ seen
      · have hrest := ih seen
        rw [repeats_cons_of_mem ha hk, firsts_cons_of_mem ha hk, List.length_cons, List.length_cons]
        omega
      · have hrest := ih (k :: seen)
        rw [repeats_cons_of_notMem ha hk, firsts_cons_of_notMem ha hk, List.length_cons,
          List.length_cons]
        omega

/-- Only which keys were seen matters. -/
theorem firsts_congr {seen seen' : List κ} (h : ∀ k, k ∈ seen ↔ k ∈ seen') (l : List α) :
    firsts key seen l = firsts key seen' l := by
  induction l generalizing seen seen' with
  | nil => rfl
  | cons a l ih =>
    cases ha : key a with
    | none => rw [firsts_cons_of_none ha, firsts_cons_of_none ha, ih h]
    | some k =>
      by_cases hk : k ∈ seen
      · rw [firsts_cons_of_mem ha hk, firsts_cons_of_mem ha ((h k).1 hk), ih h]
      · rw [firsts_cons_of_notMem ha hk, firsts_cons_of_notMem ha (mt (h k).2 hk)]
        exact congrArg (a :: ·) (ih fun j => by simp only [List.mem_cons, h])

/-- An entry without a key is a first occurrence. -/
theorem mem_firsts_of_none {seen : List κ} {l : List α} {a : α} (ha : a ∈ l) (hnone : key a = none) :
    a ∈ firsts key seen l := by
  induction l generalizing seen with
  | nil => cases ha
  | cons b l ih =>
    rcases List.mem_cons.1 ha with rfl | ha
    · rw [firsts_cons_of_none hnone]
      exact List.mem_cons_self ..
    · cases hb : key b with
      | none =>
        rw [firsts_cons_of_none hb]
        exact List.mem_cons_of_mem b (ih ha)
      | some k =>
        by_cases hk : k ∈ seen
        · rw [firsts_cons_of_mem hb hk]
          exact ih ha
        · rw [firsts_cons_of_notMem hb hk]
          exact List.mem_cons_of_mem b (ih ha)

/-- No key that was seen before is among the first occurrences. -/
theorem notMem_of_mem_firsts {seen : List κ} {l : List α} {a : α} {k : κ} (ha : a ∈ firsts key seen l)
    (hk : key a = some k) : k ∉ seen := by
  induction l generalizing seen with
  | nil => cases ha
  | cons b l ih =>
    cases hb : key b with
    | none =>
      rw [firsts_cons_of_none hb] at ha
      rcases List.mem_cons.1 ha with rfl | ha
      · rw [hb] at hk
        cases hk
      · exact ih ha
    | some j =>
      by_cases hj : j ∈ seen
      · rw [firsts_cons_of_mem hb hj] at ha
        exact ih ha
      · rw [firsts_cons_of_notMem hb hj] at ha
        rcases List.mem_cons.1 ha with rfl | ha
        · rw [hb] at hk
          cases hk
          exact hj
        · exact fun hmem => ih ha (List.mem_cons_of_mem j hmem)

/-- **A key that occurs** was seen before, or is that of a first occurrence. -/
theorem exists_mem_firsts {seen : List κ} {l : List α} {a : α} {k : κ} (ha : a ∈ l)
    (hk : key a = some k) (hseen : k ∉ seen) : ∃ b ∈ firsts key seen l, key b = some k := by
  induction l generalizing seen with
  | nil => cases ha
  | cons c l ih =>
    cases hc : key c with
    | none =>
      rcases List.mem_cons.1 ha with rfl | ha
      · rw [hc] at hk
        cases hk
      · obtain ⟨b, hb, hbk⟩ := ih ha hseen
        rw [firsts_cons_of_none hc]
        exact ⟨b, List.mem_cons_of_mem c hb, hbk⟩
    | some j =>
      by_cases hj : j ∈ seen
      · rcases List.mem_cons.1 ha with rfl | ha
        · rw [hc] at hk
          cases hk
          exact absurd hj hseen
        · rw [firsts_cons_of_mem hc hj]
          exact ih ha hseen
      · rw [firsts_cons_of_notMem hc hj]
        by_cases hjk : j = k
        · exact ⟨c, List.mem_cons_self .., hjk ▸ hc⟩
        · rcases List.mem_cons.1 ha with rfl | ha
          · rw [hc] at hk
            exact absurd (Option.some.inj hk) hjk
          · have hnew : k ∉ j :: seen := by
              rw [List.mem_cons]
              exact fun hmem => hmem.elim (fun heq => hjk heq.symm) hseen
            obtain ⟨b, hb, hbk⟩ := ih ha hnew
            exact ⟨b, List.mem_cons_of_mem c hb, hbk⟩

/-- Two first occurrences with the same key are the same. -/
theorem eq_of_mem_firsts {seen : List κ} {l : List α} {a b : α} {k : κ} (ha : a ∈ firsts key seen l)
    (hb : b ∈ firsts key seen l) (hka : key a = some k) (hkb : key b = some k) : a = b := by
  induction l generalizing seen with
  | nil => cases ha
  | cons c l ih =>
    cases hc : key c with
    | none =>
      have hrest : ∀ d, key d = some k → d ∈ firsts key seen (c :: l) → d ∈ firsts key seen l := by
        intro d hd hmem
        rw [firsts_cons_of_none hc] at hmem
        rcases List.mem_cons.1 hmem with rfl | hmem
        · rw [hc] at hd
          cases hd
        · exact hmem
      exact ih (hrest a hka ha) (hrest b hkb hb)
    | some j =>
      by_cases hj : j ∈ seen
      · rw [firsts_cons_of_mem hc hj] at ha hb
        exact ih ha hb
      · -- The key of the head does not come again.
        have hhead : ∀ d, key d = some k → d ∈ firsts key (j :: seen) l → key c ≠ some k := by
          intro d hd hmem hck
          rw [hc] at hck
          cases hck
          exact notMem_of_mem_firsts hmem hd (List.mem_cons_self ..)
        rw [firsts_cons_of_notMem hc hj] at ha hb
        rcases List.mem_cons.1 ha with rfl | ha'
        · rcases List.mem_cons.1 hb with rfl | hb'
          · rfl
          · exact absurd hka (hhead b hkb hb')
        · rcases List.mem_cons.1 hb with rfl | hb'
          · exact absurd hkb (hhead a hka ha')
          · exact ih ha' hb'

section Split

variable {l : List α} {a b : α} {k : κ}

/-- The list has the entry behind others of other keys. -/
def ComesFirst (key : α → Option κ) (k : κ) (a : α) (l : List α) : Prop :=
  ∃ before after, l = before ++ a :: after ∧ ∀ b ∈ before, key b ≠ some k

omit [DecidableEq κ] in
/-- A head of another key makes no difference. -/
theorem comesFirst_cons_of_ne (h : key a = some k) (hb : key b ≠ some k) :
    ComesFirst key k a (b :: l) ↔ ComesFirst key k a l := by
  constructor
  · rintro ⟨before, after, hsplit, hbefore⟩
    cases before with
    | nil => exact absurd h ((List.cons.inj hsplit).1 ▸ hb)
    | cons c before =>
      obtain ⟨-, hsplit⟩ := List.cons.inj hsplit
      exact ⟨before, after, hsplit, fun c' hc' => hbefore c' (List.mem_cons_of_mem _ hc')⟩
  · rintro ⟨before, after, rfl, hbefore⟩
    exact ⟨b :: before, after, rfl, List.forall_mem_cons.2 ⟨hb, hbefore⟩⟩

omit [DecidableEq κ] in
/-- Nothing of its key comes before a head. -/
theorem comesFirst_cons_self (hb : key b = some k) : ComesFirst key k a (b :: l) ↔ a = b := by
  constructor
  · rintro ⟨before, after, hsplit, hbefore⟩
    cases before with
    | nil => exact (List.cons.inj hsplit).1.symm
    | cons c before =>
      exact absurd ((List.cons.inj hsplit).1 ▸ hb) (hbefore c List.mem_cons_self)
  · rintro rfl
    exact ⟨[], l, rfl, fun c hc => absurd hc List.not_mem_nil⟩

end Split

/-- **An entry is kept** exactly if its key was not seen, neither before nor further ahead in the
list. -/
theorem mem_firsts_iff {seen : List κ} {l : List α} {a : α} {k : κ} (h : key a = some k) :
    a ∈ firsts key seen l ↔ k ∉ seen ∧ ComesFirst key k a l := by
  induction l generalizing seen with
  | nil => simp [firsts, ComesFirst]
  | cons b l ih =>
    have hne : key b ≠ some k → a ≠ b := by
      rintro hb rfl
      exact hb h
    cases hb : key b with
    | none =>
      have hother : key b ≠ some k := by rw [hb]; exact nofun
      rw [firsts_cons_of_none hb, List.mem_cons, or_iff_right (hne hother), ih,
        comesFirst_cons_of_ne h hother]
    | some k' =>
      by_cases hkk : k' = k
      · subst hkk
        by_cases hk' : k' ∈ seen
        · rw [firsts_cons_of_mem hb hk', ih]
          exact iff_of_false (fun ha => ha.1 hk') fun ha => ha.1 hk'
        · have htail : a ∉ firsts key (k' :: seen) l := fun ha => (ih.1 ha).1 List.mem_cons_self
          rw [firsts_cons_of_notMem hb hk', List.mem_cons, or_iff_left htail,
            comesFirst_cons_self hb]
          exact (and_iff_right hk').symm
      · have hother : key b ≠ some k := by
          rw [hb]
          exact fun heq => hkk (Option.some.inj heq)
        rw [comesFirst_cons_of_ne h hother]
        by_cases hk' : k' ∈ seen
        · rw [firsts_cons_of_mem hb hk', ih]
        · rw [firsts_cons_of_notMem hb hk', List.mem_cons, or_iff_right (hne hother), ih,
            List.mem_cons, not_or, and_iff_right fun heq => hkk heq.symm]

/-- A first occurrence is what a search for its key finds. -/
theorem find?_of_mem_firsts {l : List α} {a : α} {k : κ} (ha : a ∈ firsts key [] l)
    (hk : key a = some k) : l.find? (fun b => key b = some k) = some a := by
  obtain ⟨-, before, after, hsplit, hbefore⟩ := (mem_firsts_iff hk).1 ha
  rw [hsplit, List.find?_append]
  have hnone : before.find? (fun b => key b = some k) = none :=
    List.find?_eq_none.2 fun b hb => by simpa using hbefore b hb
  rw [hnone, Option.none_or, List.find?_cons_of_pos (by simpa using hk)]

/-- **The keys of the first occurrences** are all different. -/
theorem nodup_keys_firsts (seen : List κ) (l : List α) :
    ((firsts key seen l).filterMap key).Nodup := by
  induction l generalizing seen with
  | nil => exact List.nodup_nil
  | cons a l ih =>
    cases ha : key a with
    | none =>
      rw [firsts_cons_of_none ha, List.filterMap_cons_none ha]
      exact ih seen
    | some k =>
      by_cases hk : k ∈ seen
      · rw [firsts_cons_of_mem ha hk]
        exact ih seen
      · rw [firsts_cons_of_notMem ha hk, List.filterMap_cons_some ha]
        refine List.nodup_cons.2 ⟨fun hmem => ?_, ih (k :: seen)⟩
        obtain ⟨b, hb, hbk⟩ := List.mem_filterMap.1 hmem
        exact notMem_of_mem_firsts hb hbk List.mem_cons_self

/-- **Where no key repeats** every entry is a first occurrence. -/
theorem firsts_eq_self {seen : List κ} {l : List α} (hl : (l.filterMap key).Nodup)
    (hseen : ∀ k ∈ l.filterMap key, k ∉ seen) : firsts key seen l = l := by
  induction l generalizing seen with
  | nil => rfl
  | cons a l ih =>
    cases ha : key a with
    | none =>
      rw [List.filterMap_cons_none ha] at hl hseen
      rw [firsts_cons_of_none ha, ih hl hseen]
    | some k =>
      rw [List.filterMap_cons_some ha] at hl hseen
      obtain ⟨hk, hl⟩ := List.nodup_cons.1 hl
      rw [firsts_cons_of_notMem ha (hseen k List.mem_cons_self), ih hl fun k' hk' => ?_]
      rw [List.mem_cons, not_or]
      exact ⟨fun heq => hk (heq ▸ hk'), hseen k' (List.mem_cons_of_mem _ hk')⟩

/-- **A second pass** finds nothing that repeats. -/
theorem repeats_firsts (seen : List κ) (l : List α) : repeats key seen (firsts key seen l) = [] := by
  induction l generalizing seen with
  | nil => rfl
  | cons a l ih =>
    cases ha : key a with
    | none => rw [firsts_cons_of_none ha, repeats_cons_of_none ha, ih]
    | some k =>
      by_cases hk : k ∈ seen
      · rw [firsts_cons_of_mem ha hk, ih]
      · rw [firsts_cons_of_notMem ha hk, repeats_cons_of_notMem ha hk, ih]

/-- **Deleting the repeats**, by names that are all different, leaves the first occurrences. -/
theorem filter_notMem_repeats {β : Type*} [DecidableEq β] (name : α → β) (seen : List κ) {l : List α}
    (h : (l.map name).Nodup) :
    l.filter (fun a => name a ∉ (repeats key seen l).map name) = firsts key seen l := by
  induction l generalizing seen with
  | nil => rfl
  | cons a l ih =>
    obtain ⟨hnot, hl⟩ := List.nodup_cons.1 h
    have hother : ∀ seen, name a ∉ (repeats key seen l).map name := fun seen hmem =>
      hnot ((repeats_sublist seen l).map name |>.subset hmem)
    cases ha : key a with
    | none =>
      rw [firsts_cons_of_none ha, repeats_cons_of_none ha,
        List.filter_cons_of_pos (by simpa using hother seen), ih seen hl]
    | some k =>
      by_cases hk : k ∈ seen
      · rw [firsts_cons_of_mem ha hk, repeats_cons_of_mem ha hk, List.map_cons,
          List.filter_cons_of_neg (by simp), ← ih seen hl]
        refine List.filter_congr fun b hb => ?_
        have hne : name b ≠ name a := fun heq => hnot (heq ▸ List.mem_map_of_mem hb)
        simp [hne]
      · rw [firsts_cons_of_notMem ha hk, repeats_cons_of_notMem ha hk,
          List.filter_cons_of_pos (by simpa using hother (k :: seen)), ih (k :: seen) hl]

end ScamOn
