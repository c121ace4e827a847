import Mathlib.Data.List.Basic
import Mathlib.Data.List.Infix
import ScamOn.Lib.Chars

/-!
# Text inside of markup

Where the characters `<` and `>` of a text come from, and what stands behind each `<`.

* `htmlEscape` is `html.escape`; an escaped text has no angle brackets: `noAngles_htmlEscape`.
* `angles` are the angle brackets of a text; a text that is put together from pieces has those of
  the pieces.
* `tagHeads` are the places where tags begin; `mem_tagHeads_of_part` finds the head of a tag that
  is somewhere in a text, and `tagHeads_flatten` puts the heads of pieces together.
-/

namespace ScamOn

/-! ## Angle brackets -/

/-- A character that opens or closes a tag. -/
def isAngle (c : Char) : Bool := c = '<' || c = '>'

/-- The angle brackets of a text. -/
def angles (s : Str) : Str := s.filter isAngle

/-- A text has no angle brackets. -/
def NoAngles (s : Str) : Prop := ∀ c ∈ s, isAngle c = false

instance (s : Str) : Decidable (NoAngles s) := List.decidableBAll (fun c => isAngle c = false) s

@[simp] theorem angles_append (s t : Str) : angles (s ++ t) = angles s ++ angles t :=
  List.filter_append s t

@[simp] theorem angles_flatten (pieces : List Str) :
    angles pieces.flatten = (pieces.map angles).flatten :=
  List.filter_flatten

theorem angles_eq_nil_iff {s : Str} : angles s = [] ↔ NoAngles s := by
  rw [angles, List.filter_eq_nil_iff]
  simp only [NoAngles, Bool.not_eq_true]

theorem noAngles_append {s t : Str} : NoAngles (s ++ t) ↔ NoAngles s ∧ NoAngles t := by
  simp only [NoAngles, List.mem_append, or_imp, forall_and]

theorem NoAngles.take {s : Str} (h : NoAngles s) (n : ℕ) : NoAngles (s.take n) := fun c hc =>
  h c (List.mem_of_mem_take hc)

/-! ## Escaping -/

/-- What `html.escape` writes for a character. -/
def htmlEscapeChar (c : Char) : Str :=
  if c = '&' then "&amp;".toList
  else if c = '<' then "&lt;".toList
  else if c = '>' then "&gt;".toList
  else if c = '"' then "&quot;".toList
  else if c = '\'' then "&#x27;".toList
  else [c]

/-- `html.escape(s, quote=True)`. -/
def htmlEscape (s : Str) : Str := s.flatMap htmlEscapeChar

theorem noAngles_htmlEscapeChar (c : Char) : NoAngles (htmlEscapeChar c) := by
  unfold htmlEscapeChar
  split_ifs with _ hlt hgt
  · decide
  · decide
  · decide
  · decide
  · decide
  · intro d hd
    rw [List.mem_singleton] at hd
    simp [isAngle, hd, hlt, hgt]

/-- **An escaped text** has no angle brackets. -/
theorem noAngles_htmlEscape (s : Str) : NoAngles (htmlEscape s) := by
  intro c hc
  obtain ⟨d, -, hcd⟩ := List.mem_flatMap.1 hc
  exact noAngles_htmlEscapeChar d c hcd

/-! ## Where tags begin -/

/-- Each `<` of a text, with the two characters behind it. -/
def tagHeads : Str → List Str
  | [] => []
  | c :: s => if c = '<' then (c :: s).take 3 :: tagHeads s else tagHeads s

/-- Behind each `<` of a text there are two more characters. -/
def FullHeads (s : Str) : Prop := ∀ h ∈ tagHeads s, h.length = 3

instance (s : Str) : Decidable (FullHeads s) :=
  List.decidableBAll (fun h : Str => h.length = 3) (tagHeads s)

theorem tagHeads_of_noAngles {s : Str} (h : NoAngles s) : tagHeads s = [] := by
  induction s with
  | nil => rfl
  | cons c s ih =>
    have hc : c ≠ '<' := by
      rintro rfl
      exact Bool.noConfusion (h '<' (List.mem_cons_self ..))
    rw [tagHeads, if_neg hc, ih fun d hd => h d (List.mem_cons_of_mem c hd)]

theorem fullHeads_of_noAngles {s : Str} (h : NoAngles s) : FullHeads s := by
  rw [FullHeads, tagHeads_of_noAngles h]
  simp

/-- Heads that are full do not see what follows. -/
theorem tagHeads_append {s : Str} (h : FullHeads s) (t : Str) :
    tagHeads (s ++ t) = tagHeads s ++ tagHeads t := by
  induction s with
  | nil => rfl
  | cons c s ih =>
    rw [List.cons_append, tagHeads]
    by_cases hc : c = '<'
    · have hhead : ((c :: s).take 3).length = 3 :=
        h _ (by rw [tagHeads, if_pos hc]; exact List.mem_cons_self ..)
      have hlength : 3 ≤ (c :: s).length := by
        rw [List.length_take] at hhead
        omega
      have hrest : FullHeads s := fun g hg =>
        h g (by rw [tagHeads, if_pos hc]; exact List.mem_cons_of_mem _ hg)
      have htake : (c :: (s ++ t)).take 3 = (c :: s).take 3 :=
        List.take_append_of_le_length hlength
      rw [if_pos hc, tagHeads, if_pos hc, ih hrest, htake, List.cons_append]
    · have hrest : FullHeads s := fun g hg => h g (by rw [tagHeads, if_neg hc]; exact hg)
      rw [if_neg hc, tagHeads, if_neg hc, ih hrest]

/-- **The heads of a text that is put together** are those of its pieces. -/
theorem tagHeads_flatten {pieces : List Str} (h : ∀ s ∈ pieces, FullHeads s) :
    tagHeads pieces.flatten = pieces.flatMap tagHeads := by
  induction pieces with
  | nil => rfl
  | cons s pieces ih =>
    rw [List.flatten_cons, tagHeads_append (h s (List.mem_cons_self ..)), List.flatMap_cons,
      ih fun t ht => h t (List.mem_cons_of_mem s ht)]

theorem tagHeads_suffix {s t : Str} (h : t <:+ s) : tagHeads t ⊆ tagHeads s := by
  induction s with
  | nil =>
    rw [List.suffix_nil.1 h]
    exact fun _ => id
  | cons c s ih =>
    rcases List.suffix_cons_iff.1 h with rfl | h
    · exact fun _ => id
    · rw [tagHeads]
      split_ifs
      · exact List.subset_cons_of_subset _ (ih h)
      · exact ih h

/-- **A tag that is in a text** has its head there. -/
theorem mem_tagHeads_of_part {a b : Char} {tag s : Str} (h : ('<' :: a :: b :: tag) <:+: s) :
    ['<', a, b] ∈ tagHeads s := by
  obtain ⟨before, after, rfl⟩ := h
  have hsuffix : ('<' :: a :: b :: tag) ++ after <:+ before ++ ('<' :: a :: b :: tag) ++ after := by
    rw [List.append_assoc]
    exact List.suffix_append _ _
  refine tagHeads_suffix hsuffix ?_
  simp [tagHeads]

end ScamOn
