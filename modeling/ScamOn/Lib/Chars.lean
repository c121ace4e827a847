import Mathlib.Data.List.Basic

/-!
# Texts as lists of characters

Where the program takes a text apart, a text is the list of its characters.

* `partition` and `rpartition` are `str.partition` and `str.rpartition` by one character;
  `partition_eq_some_iff` and its companions say exactly how they cut.
* `isAscii` is `str.isascii`, one character at a time.
-/

namespace ScamOn

/-- A text, as the list of its characters. -/
abbrev Str : Type := List Char

namespace Chars

def isAscii (c : Char) : Bool := c.toNat < 128

/-- A property of ASCII characters is decided by its 128 cases. -/
theorem of_ascii_cases {P : Char → Prop} (h : ∀ n < 128, P (Char.ofNat n)) {c : Char}
    (hc : c.toNat < 128) : P c := by
  rw [← Char.ofNat_toNat c]
  exact h _ hc

/-- A property of the characters of a text is decided along the text, not over all characters. -/
instance decidableForallMem (P : Char → Prop) [DecidablePred P] (s : Str) :
    Decidable (∀ c ∈ s, P c) :=
  List.decidableBAll P s

/-- `s.isascii()`. -/
def allAscii (s : Str) : Bool := s.all isAscii

/-- `s.partition(sep)`: what stands before the first separator and, if there is one, what
stands after it. -/
def partition (sep : Char) : Str → Str × Option Str
  | [] => ([], none)
  | c :: s =>
    if c = sep then ([], some s)
    else (c :: (partition sep s).1, (partition sep s).2)

/-- `s.rpartition(sep)`: what stands before the last separator, if there is one, and what
stands after it. -/
def rpartition (sep : Char) (s : Str) : Option Str × Str :=
  match partition sep s.reverse with
  | (after, some before) => (some before.reverse, after.reverse)
  | (_, none) => (none, s)

variable {sep : Char} {s a b : Str}

theorem partition_eq_some_iff :
    partition sep s = (a, some b) ↔ sep ∉ a ∧ s = a ++ sep :: b := by
  induction s generalizing a with
  | nil => simp [partition]
  | cons c s ih =>
    by_cases hc : c = sep
    · subst hc
      rw [partition, if_pos rfl]
      constructor
      · intro h
        cases h
        simp
      · rintro ⟨hmem, heq⟩
        cases a with
        | nil => simpa using heq
        | cons d a => exact absurd (by simp [(List.cons.inj heq).1]) hmem
    · rw [partition, if_neg hc]
      cases a with
      | nil => simp [hc]
      | cons d a =>
        have hcut := ih (a := a)
        rw [Prod.ext_iff] at hcut
        simp only [Prod.mk.injEq, List.cons.injEq, List.cons_append, List.mem_cons, not_or]
        constructor
        · rintro ⟨⟨rfl, hfst⟩, hsnd⟩
          obtain ⟨hmem, heq⟩ := hcut.1 ⟨hfst, hsnd⟩
          exact ⟨⟨fun h => hc h.symm, hmem⟩, rfl, heq⟩
        · rintro ⟨⟨-, hmem⟩, rfl, heq⟩
          obtain ⟨hfst, hsnd⟩ := hcut.2 ⟨hmem, heq⟩
          exact ⟨⟨rfl, hfst⟩, hsnd⟩

theorem partition_eq_none_iff : partition sep s = (a, none) ↔ sep ∉ s ∧ a = s := by
  induction s generalizing a with
  | nil => simp [partition, eq_comm]
  | cons c s ih =>
    by_cases hc : c = sep
    · simp [partition, hc]
    · rw [partition, if_neg hc]
      have hcut := ih (a := (partition sep s).1)
      rw [Prod.ext_iff] at hcut
      simp only [Prod.mk.injEq, List.mem_cons, not_or]
      constructor
      · rintro ⟨rfl, hnone⟩
        obtain ⟨hmem, heq⟩ := hcut.1 ⟨rfl, hnone⟩
        exact ⟨⟨fun h => hc h.symm, hmem⟩, by rw [heq]⟩
      · rintro ⟨⟨-, hmem⟩, rfl⟩
        obtain ⟨hfst, hnone⟩ := (ih (a := s)).2 ⟨hmem, rfl⟩ |> Prod.ext_iff.1
        exact ⟨by rw [hfst], hnone⟩

theorem partition_append (h : sep ∉ a) (b : Str) : partition sep (a ++ sep :: b) = (a, some b) :=
  partition_eq_some_iff.2 ⟨h, rfl⟩

theorem partition_of_not_mem (h : sep ∉ s) : partition sep s = (s, none) :=
  partition_eq_none_iff.2 ⟨h, rfl⟩

theorem rpartition_eq_some_iff :
    rpartition sep s = (some a, b) ↔ sep ∉ b ∧ s = a ++ sep :: b := by
  unfold rpartition
  rcases hcut : partition sep s.reverse with ⟨after, _ | before⟩
  · obtain ⟨hmem, -⟩ := partition_eq_none_iff.1 hcut
    constructor
    · intro h
      cases h
    · rintro ⟨-, rfl⟩
      exact absurd (by simp) hmem
  · obtain ⟨hmem, heq⟩ := partition_eq_some_iff.1 hcut
    have hs : s = before.reverse ++ sep :: after.reverse := by
      rw [← s.reverse_reverse, heq]
      simp
    constructor
    · intro h
      cases h
      exact ⟨by simpa using hmem, hs⟩
    · rintro ⟨hb, rfl⟩
      have hcut' := partition_append (a := b.reverse) (by simpa using hb) a.reverse
      rw [show (a ++ sep :: b).reverse = b.reverse ++ sep :: a.reverse by simp] at hcut
      rw [hcut] at hcut'
      cases hcut'
      simp

theorem rpartition_eq_none_iff : rpartition sep s = (none, b) ↔ sep ∉ s ∧ b = s := by
  unfold rpartition
  rcases hcut : partition sep s.reverse with ⟨after, _ | before⟩
  · obtain ⟨hmem, -⟩ := partition_eq_none_iff.1 hcut
    simp only [Prod.mk.injEq, true_and]
    exact ⟨fun h => ⟨by simpa using hmem, h.symm⟩, fun h => h.2.symm⟩
  · obtain ⟨-, heq⟩ := partition_eq_some_iff.1 hcut
    constructor
    · intro h
      cases h
    · rintro ⟨hmem, -⟩
      exact absurd (List.mem_reverse.1 (by rw [heq]; simp)) hmem

theorem partition_fst_spec (sep : Char) (s : Str) :
    (partition sep s).1 <+: s ∧ sep ∉ (partition sep s).1 := by
  rcases hcut : partition sep s with ⟨before, _ | after⟩
  · obtain ⟨hmem, rfl⟩ := partition_eq_none_iff.1 hcut
    exact ⟨List.prefix_refl _, hmem⟩
  · obtain ⟨hmem, rfl⟩ := partition_eq_some_iff.1 hcut
    exact ⟨List.prefix_append _ _, hmem⟩

theorem rpartition_snd_spec (sep : Char) (s : Str) :
    (rpartition sep s).2 ⊆ s ∧ sep ∉ (rpartition sep s).2 := by
  rcases hcut : rpartition sep s with ⟨_ | before, after⟩
  · obtain ⟨hmem, rfl⟩ := rpartition_eq_none_iff.1 hcut
    exact ⟨fun _ hc => hc, hmem⟩
  · obtain ⟨hmem, rfl⟩ := rpartition_eq_some_iff.1 hcut
    exact ⟨fun _ hc => List.mem_append_right _ (List.mem_cons_of_mem _ hc), hmem⟩

/-- What comes before the separator in the front of a text comes before it in the text. -/
theorem partition_fst_subset_of_front (h : a <+: s) :
    (partition sep a).1 ⊆ (partition sep s).1 := by
  obtain ⟨t, rfl⟩ := h
  intro c hc
  rcases hcut : partition sep a with ⟨before, _ | after⟩
  · obtain ⟨hmem, rfl⟩ := partition_eq_none_iff.1 hcut
    rw [hcut] at hc
    rcases hcut' : partition sep t with ⟨before', _ | after'⟩
    · obtain ⟨hmem', rfl⟩ := partition_eq_none_iff.1 hcut'
      rw [partition_of_not_mem (by simp [hmem, hmem'])]
      exact List.mem_append_left _ hc
    · obtain ⟨hmem', rfl⟩ := partition_eq_some_iff.1 hcut'
      rw [← List.append_assoc, partition_append (by simp [hmem, hmem'])]
      exact List.mem_append_left _ hc
  · obtain ⟨hmem, rfl⟩ := partition_eq_some_iff.1 hcut
    rw [hcut] at hc
    rw [List.append_assoc, List.cons_append, partition_append hmem]
    exact hc

theorem mem_partition_fst_append {c : Char} (h : c ∈ (partition sep (a ++ b)).1) :
    c ∈ (partition sep a).1 ∨ c ∈ b := by
  rcases hcut : partition sep a with ⟨before, _ | after⟩
  · obtain ⟨-, rfl⟩ := partition_eq_none_iff.1 hcut
    exact List.mem_append.1 ((partition_fst_spec sep _).1.subset h)
  · obtain ⟨hmem, rfl⟩ := partition_eq_some_iff.1 hcut
    rw [List.append_assoc, List.cons_append, partition_append hmem] at h
    exact .inl h

/-- Splitting leaves what has no separator in front of the first part. -/
theorem splitOn_append_of_not_mem (h : sep ∉ a) (s : Str) :
    (a ++ s).splitOn sep = (s.splitOn sep).modifyHead (a ++ ·) := by
  induction a with
  | nil =>
    rw [List.nil_append]
    rcases s.splitOn sep with _ | ⟨head, tail⟩
    · rfl
    · rfl
  | cons c a ih =>
    rw [List.mem_cons, not_or] at h
    rw [List.cons_append, List.splitOn_cons_eq_if_modifyHead, ih h.2,
      if_neg (by simpa using Ne.symm h.1)]
    rcases s.splitOn sep with _ | ⟨head, tail⟩
    · rfl
    · rfl

/-- No part has the separator in it. -/
theorem not_mem_of_mem_splitOn (h : a ∈ s.splitOn sep) : sep ∉ a := by
  induction s generalizing a with
  | nil =>
    rw [List.splitOn_nil, List.mem_singleton] at h
    simp [h]
  | cons c s ih =>
    rw [List.splitOn_cons_eq_if_modifyHead] at h
    split_ifs at h with hc
    · rcases List.mem_cons.1 h with rfl | hmem
      · simp
      · exact ih hmem
    · rcases hparts : s.splitOn sep with _ | ⟨head, tail⟩
      · exact absurd hparts (List.splitOn_ne_nil sep s)
      rw [hparts] at h ih
      rcases List.mem_cons.1 h with rfl | hmem
      · rw [List.mem_cons, not_or]
        exact ⟨fun heq => hc (by simp [heq]), ih (List.mem_cons_self ..)⟩
      · exact ih (List.mem_cons_of_mem _ hmem)

end Chars
end ScamOn
