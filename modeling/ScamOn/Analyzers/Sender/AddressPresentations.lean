import ScamOn.Analyzers.Sender.AddressNormalization

/-!
# Presentations of canonical addresses

What `normalize` makes of a canonical address, and of the address with something around it.

* `Mailbox` says what is known of the parts of a canonical address; `mailbox_of_reads`.
* `eq_of_reads`: no shorter part of the address gives it back, and the address does so itself if it is
  `Plain`: it has one `@`, and no two dots in a row.
* `reads_unwrapped_iff`: without brackets, colons are in the way.
* `normalize_presentations`: which presentations of a canonical address give it back.
-/

namespace ScamOn.Analyzers
namespace Sender
namespace Normalization

open EmailAddresses

variable {py : Tables} {a c s u d : Str}

/-! ## Canonical addresses -/

/-- What is known of the parts of a canonical address. -/
structure Mailbox (py : Tables) (u d : Str) : Prop where
  username_ne_nil : u ≠ []
  domain_ne_nil : d ≠ []
  separator : '@' ∉ u
  folded : ∀ x ∈ u, py.fold x = [x]
  ascii : ∀ x ∈ d, x.toNat < 128 ∧ x.toLower = x
  encoded : ¬['.', '.'] <:+: d → py.idna d = some d
  valid : isValidMailbox py u d (u ++ '@' :: d) = true

/-- **A plain address**: one `@`, and no two dots in a row. -/
structure Plain (c : Str) : Prop where
  one_at : c.count '@' = 1
  no_dots : ¬['.', '.'] <:+: c

theorem splitCandidate_eq_some_iff :
    splitCandidate s = some (u, d) ↔ s = u ++ '@' :: d ∧ '@' ∉ u ∧ '@' ∉ d ∧ u ≠ [] ∧ d ≠ [] := by
  have hcut : ∀ {v w : Str}, '@' ∉ v → (v ++ '@' :: w).takeWhile (· ≠ '@') = v ∧
      (v ++ '@' :: w).dropWhile (· ≠ '@') = '@' :: w := by
    intro v w hv
    have hall : ∀ x ∈ v, decide (x ≠ '@') = true := fun x hx =>
      decide_eq_true fun h' => hv (h' ▸ hx)
    rw [List.takeWhile_append_of_pos hall, List.dropWhile_append_of_pos hall]
    exact ⟨by simp, by simp⟩
  unfold splitCandidate
  constructor
  · intro h
    dsimp only at h
    split_ifs at h with hcount hempty
    have hmem : '@' ∈ s := List.count_pos_iff.1 (by omega)
    obtain ⟨v, w, rfl, hv⟩ := List.eq_append_cons_of_mem hmem
    obtain ⟨htake, hdrop⟩ := hcut (w := w) hv
    rw [htake, hdrop, List.tail_cons] at h hempty
    obtain ⟨rfl, rfl⟩ := Prod.mk.inj (Option.some.inj h)
    rw [List.count_append, List.count_cons_self, List.count_eq_zero_of_not_mem hv] at hcount
    have hw : '@' ∉ w := List.count_eq_zero.1 (by omega)
    rw [not_or] at hempty
    exact ⟨rfl, hv, hw, hempty⟩
  · rintro ⟨rfl, hu, hd, hne⟩
    obtain ⟨htake, hdrop⟩ := hcut (w := d) hu
    have hcount : (u ++ '@' :: d).count '@' = 1 := by
      rw [List.count_append, List.count_cons_self, List.count_eq_zero_of_not_mem hu,
        List.count_eq_zero_of_not_mem hd]
    rw [if_pos hcount, htake, hdrop, List.tail_cons, if_neg (not_or.2 hne)]

theorem casefold_eq_self (h : ∀ x ∈ s, py.fold x = [x]) : casefold py s = s := by
  induction s with
  | nil => rfl
  | cons x s ih =>
    rw [casefold, List.flatMap_cons, h x List.mem_cons_self]
    exact congrArg (x :: ·) (ih fun y hy => h y (List.mem_cons_of_mem _ hy))

theorem fold_eq_self {x : Char} (h : x.toNat < 128 ∧ x.toLower = x) : py.fold x = [x] := by
  rw [py.fold_ascii x h.1, h.2]

/-- **What is known of a canonical address.** -/
theorem mailbox_of_reads (h : Reads py s u d) : Mailbox py u d := by
  obtain ⟨username, domain, hsplit, rfl, hdomain, hvalid⟩ := h
  obtain ⟨-, hat, -, hu, hd⟩ := splitCandidate_eq_some_iff.1 hsplit
  have hne : ∀ t : Str, t ≠ [] → casefold py t ≠ [] := by
    intro t ht hnil
    obtain ⟨x, t, rfl⟩ := List.exists_cons_of_ne_nil ht
    rw [casefold, List.flatMap_cons, List.append_eq_nil_iff] at hnil
    exact py.fold_ne_nil x hnil.1
  refine ⟨hne _ hu, ?_, ?_, ?_, py.idna_ascii domain d hdomain, fun hdots => ?_, hvalid⟩
  · rintro rfl
    exact py.idna_ne_nil _ (hne _ hd) hdomain
  · intro hmem
    obtain ⟨x, hx, hfold⟩ := List.mem_flatMap.1 hmem
    have hsame := py.fold_separator x '@' hfold (Or.inl rfl)
    exact hat (hsame ▸ hx)
  · intro x hx
    obtain ⟨y, -, hfold⟩ := List.mem_flatMap.1 hx
    exact py.fold_fold y x hfold
  · refine py.idna_idna _ d hdomain hdots ?_
    unfold isValidMailbox at hvalid
    split_ifs at hvalid with hlimits
    tauto

theorem Mailbox.char (h : Mailbox py u d) :
    ∀ x ∈ u ++ '@' :: d, Text.isSpace x = false ∧ x ∉ invalidMailboxCharacters := by
  intro x hx
  have hvalid := h.valid
  unfold isValidMailbox at hvalid
  split_ifs at hvalid
  rw [Bool.not_eq_true', List.any_eq_false] at hvalid
  have hnot := hvalid x hx
  simp only [Bool.or_eq_true, not_or, List.contains_iff_mem] at hnot
  exact ⟨by simpa using hnot.1.1, hnot.2⟩

theorem Mailbox.fold (h : Mailbox py u d) : ∀ x ∈ u ++ '@' :: d, py.fold x = [x] := by
  intro x hx
  rcases List.mem_append.1 hx with hx | hx
  · exact h.folded x hx
  rcases List.mem_cons.1 hx with rfl | hx
  · exact fold_eq_self (by decide)
  · exact fold_eq_self (h.ascii x hx)

theorem invalid_of_isSpecial {x : Char} (h : isSpecial x = true) :
    x = '.' ∨ isStop x = true ∨ x ∈ invalidMailboxCharacters := by
  have hall : ∀ y ∈ "()<>@,:;.\"[]".toList,
      y = '.' ∨ isStop y = true ∨ y ∈ invalidMailboxCharacters := by decide +kernel
  exact hall x (by simpa [isSpecial] using h)

theorem Mailbox.isPlain (h : Mailbox py u d) : IsPlain (u ++ '@' :: d) := by
  intro x hx
  obtain ⟨hspace, hinvalid⟩ := h.char x hx
  refine ⟨hspace, ?_⟩
  by_cases hend : isAtomEnd x = true
  · refine Or.inr ?_
    simp only [isAtomEnd, decide_eq_true_eq] at hend
    rcases hend with hspecial | hfws
    · rcases invalid_of_isSpecial hspecial with hdot | hstop | hmem
      · exact Or.inl hdot
      · exact Or.inr hstop
      · exact absurd hmem hinvalid
    · rw [isSpace_of_isFws hfws] at hspace
      exact absurd hspace (by decide)
  · exact Or.inl (by simpa using hend)

/-! ## What gives an address back -/

theorem sublist_of_not_mem {m : Char} {v w t : Str} (hv : m ∉ v) (h : (m :: w).Sublist (v ++ t)) :
    (m :: w).Sublist t := by
  induction v with
  | nil => exact h
  | cons x v ih =>
    rw [List.mem_cons, not_or] at hv
    cases h with
    | cons _ hrest => exact ih hv.2 hrest
    | cons_cons _ hrest => exact absurd rfl hv.1

/-- Behind a mark, there is a part of what stands behind its first occurrence. -/
theorem sublist_behind_mark {m : Char} {v w : Str} (hs : m ∉ s)
    (h : (v ++ m :: w).Sublist (s ++ m :: d)) : w.Sublist d := by
  have hmark : (m :: w).Sublist (s ++ m :: d) := (List.sublist_append_right v _).trans h
  exact List.cons_sublist_cons.1 (sublist_of_not_mem hs hmark)

/-- **A part of folded text, with the domain behind it,** gives the address back only if repairs make
the address of it. -/
theorem collapsed_of_reads {x : Str} (hmailbox : Mailbox py u d) (hx : x.Sublist (s ++ '@' :: d))
    (hs : '@' ∉ s) (hfold : ∀ y ∈ s, py.fold y = [y]) (h : Reads py x u d) :
    collapsed x = u ++ '@' :: d := by
  obtain ⟨username, domain, hsplit, hu, hd, -⟩ := h
  obtain ⟨hcollapsed, -, -, -, -⟩ := splitCandidate_eq_some_iff.1 hsplit
  have hsublist : (username ++ '@' :: domain).Sublist (s ++ '@' :: d) := by
    rw [← hcollapsed]
    exact (collapsed_sublist x).trans (List.filter_sublist.trans hx)
  have hdomain : domain.Sublist d := sublist_behind_mark hs hsublist
  have hascii : ∀ y ∈ domain, y.toNat < 128 ∧ y.toLower = y := fun y hy =>
    hmailbox.ascii y (hdomain.subset hy)
  have husername : ∀ y ∈ username, py.fold y = [y] := by
    intro y hy
    rcases List.mem_append.1 (hsublist.subset (List.mem_append_left _ hy)) with hmem | hmem
    · exact hfold y hmem
    rcases List.mem_cons.1 hmem with rfl | hmem
    · exact fold_eq_self (by decide)
    · exact fold_eq_self (hmailbox.ascii y hmem)
  rw [casefold_eq_self husername] at hu
  rw [casefold_eq_self fun y hy => fold_eq_self (hascii y hy)] at hd
  have hsame : d = domain := py.idna_of_ascii domain d (fun y hy => (hascii y hy).1) hd
  rw [hcollapsed, hu, ← hsame]

theorem Mailbox.removeSpaces (h : Mailbox py u d) :
    removeSpaces (u ++ '@' :: d) = u ++ '@' :: d :=
  removeSpaces_eq_self fun x hx => (h.char x hx).1

theorem Mailbox.not_mem_domain (h : Mailbox py u d) (hplain : Plain (u ++ '@' :: d)) : '@' ∉ d := by
  have hcount := hplain.one_at
  rw [List.count_append, List.count_cons_self, List.count_eq_zero_of_not_mem h.separator] at hcount
  exact List.count_eq_zero.1 (by omega)

/-- **A canonical address gives itself back** exactly if it is plain. -/
theorem reads_self_iff (h : Mailbox py u d) :
    Reads py (u ++ '@' :: d) u d ↔ Plain (u ++ '@' :: d) := by
  constructor
  · intro hreads
    have hcollapsed := collapsed_of_reads h (List.Sublist.refl _) h.separator h.folded hreads
    obtain ⟨username, domain, hsplit, -⟩ := hreads
    rw [hcollapsed] at hsplit
    obtain ⟨heq, hu, hd, -⟩ := splitCandidate_eq_some_iff.1 hsplit
    refine ⟨?_, hcollapsed ▸ not_infix_collapsed _⟩
    rw [heq, List.count_append, List.count_cons_self, List.count_eq_zero_of_not_mem hu,
      List.count_eq_zero_of_not_mem hd]
  · intro hplain
    have hat : ¬['@', '@'] <:+: u ++ '@' :: d := by
      intro hpair
      have hle := hpair.sublist.count_le '@'
      rw [hplain.one_at] at hle
      exact absurd hle (by decide)
    have hcollapsed : collapsed (u ++ '@' :: d) = u ++ '@' :: d := by
      rw [collapsed, h.removeSpaces, collapseRuns_eq_self hat,
        collapseRuns_eq_self hplain.no_dots]
    have hd := h.not_mem_domain hplain
    have hdots : ¬['.', '.'] <:+: d := fun hpair =>
      hplain.no_dots (hpair.trans ⟨u ++ ['@'], [], by simp⟩)
    refine ⟨u, d, ?_, casefold_eq_self h.folded, ?_, h.valid⟩
    · rw [hcollapsed]
      exact splitCandidate_eq_some_iff.2
        ⟨rfl, h.separator, hd, h.username_ne_nil, h.domain_ne_nil⟩
    · rw [casefold_eq_self fun y hy => fold_eq_self (h.ascii y hy)]
      exact h.encoded hdots

/-- **No other part of the address** gives it back. -/
theorem eq_of_reads {x : Str} (h : Mailbox py u d) (hx : x.Sublist (u ++ '@' :: d))
    (hreads : Reads py x u d) : x = u ++ '@' :: d := by
  have hcollapsed := collapsed_of_reads h hx h.separator h.folded hreads
  have hle : (u ++ '@' :: d).length ≤ x.length := by
    rw [← hcollapsed]
    exact ((collapsed_sublist x).trans List.filter_sublist).length_le
  exact hx.eq_of_length_le hle

/-! ## Extraction -/

/-- What is left without a prefix, and what is left of it without brackets. -/
def unprefixed (py : Tables) (s : Str) : Str := (removeMailtoPrefix py ⟨s, []⟩).candidate

def unwrapped (s : Str) : Str := (extractMailbox ⟨s, []⟩).candidate

theorem extracted_eq (py : Tables) (s : Str) :
    extracted py s = unwrapped (unprefixed py (Chars.strip s)) := by
  have hunwrapped : ∀ r : Repaired, (extractMailbox r).candidate = unwrapped r.candidate := by
    intro r
    unfold unwrapped extractMailbox
    dsimp only
    rcases bracketed? r.candidate with _ | mailbox
    · dsimp only
      split_ifs
      · rfl
      · rfl
    · rfl
  have hunprefixed : ∀ r : Repaired, (removeMailtoPrefix py r).candidate = unprefixed py r.candidate := by
    intro r
    unfold unprefixed removeMailtoPrefix
    dsimp only
    split_ifs
    · rfl
    · rfl
  rw [extracted, hunwrapped, hunprefixed]
  rfl

/-- White space at the end is removed. -/
theorem strip_append {t : Str} (hne : s ≠ []) (hs : ∀ x, s.head? = some x → Text.isSpace x = false)
    (hlast : ∀ x, s.getLast? = some x → Text.isSpace x = false)
    (ht : ∀ x ∈ t, Text.isSpace x = true) : Chars.strip (s ++ t) = s := by
  have hdrop : ∀ v : Str, (∀ x, v.head? = some x → Text.isSpace x = false) →
      v.dropWhile Text.isSpace = v := by
    intro v hv
    rcases v with _ | ⟨x, v⟩
    · rfl
    · rw [List.dropWhile_cons, hv x rfl]
      rfl
  have hfront : ∀ x, (s ++ t).head? = some x → Text.isSpace x = false := by
    intro x hx
    rw [List.head?_append_of_ne_nil _ hne] at hx
    exact hs x hx
  rw [Chars.strip, Text.trim, hdrop _ hfront, List.reverse_append, List.dropWhile_append_of_pos
    fun x hx => ht x (List.mem_reverse.1 hx), hdrop s.reverse (by rwa [List.head?_reverse]),
    List.reverse_reverse]

theorem strip_eq_self (hs : ∀ x, s.head? = some x → Text.isSpace x = false)
    (hlast : ∀ x, s.getLast? = some x → Text.isSpace x = false) : Chars.strip s = s := by
  by_cases hne : s = []
  · rw [hne]
    rfl
  · have hstrip := strip_append (t := []) hne hs hlast nofun
    rwa [List.append_nil] at hstrip

/-- The result for an input that is short enough and has no white space around it. -/
theorem isMailbox_iff (hlength : a.length ≤ maxNormalizationInputLength) (hstrip : Chars.strip a = a) :
    IsMailbox (normalize py a) c u d ↔
      c = u ++ '@' :: d ∧ Reads py (unwrapped (unprefixed py a)) u d := by
  rw [normalize_isMailbox_iff, bounded, List.take_of_length_le hlength, extracted_eq, hstrip]

/-! ### Prefixes -/

theorem unprefixed_mailto (py : Tables) (s : Str) : unprefixed py (mailtoPrefix ++ s) = s := by
  have hfold : casefold py (mailtoPrefix ++ s) = mailtoPrefix ++ casefold py s := by
    have hfixed : casefold py mailtoPrefix = mailtoPrefix :=
      casefold_eq_self fun x hx => fold_eq_self ((by decide : ∀ x ∈ mailtoPrefix,
        x.toNat < 128 ∧ x.toLower = x) x hx)
    rw [casefold, List.flatMap_append]
    exact congrArg (· ++ casefold py s) hfixed
  have hpre : mailtoPrefix.isPrefixOf (casefold py (mailtoPrefix ++ s)) = true := by
    rw [hfold, List.isPrefixOf_iff_prefix]
    exact List.prefix_append _ _
  rw [unprefixed, removeMailtoPrefix, if_pos hpre]
  exact List.drop_left

theorem unprefixed_eq_self (h : ¬mailtoPrefix <+: casefold py s) : unprefixed py s = s := by
  rw [unprefixed, removeMailtoPrefix, if_neg fun hpre => h (List.isPrefixOf_iff_prefix.1 hpre)]

theorem unprefixed_bracket (py : Tables) (s : Str) : unprefixed py ('<' :: s) = '<' :: s := by
  refine unprefixed_eq_self ?_
  rw [casefold, List.flatMap_cons, fold_eq_self (by decide)]
  rintro ⟨t, ht⟩
  exact absurd (List.cons.inj ht).1 (by decide)

/-- No prefix is removed from a text that begins with a word. -/
theorem unprefixed_word {name t : Str} (hname : ':' ∉ name) (ht : ∀ x, t.head? = some x → x = ' ') :
    unprefixed py (name ++ t) = name ++ t := by
  refine unprefixed_eq_self fun hpre => ?_
  have hcolon : ':' ∉ casefold py name := by
    intro hmem
    obtain ⟨x, hx, hfold⟩ := List.mem_flatMap.1 hmem
    have hsame := py.fold_separator x ':' hfold (Or.inr rfl)
    exact hname (hsame ▸ hx)
  rw [casefold, List.flatMap_append] at hpre
  rcases List.prefix_or_prefix_of_prefix hpre (List.prefix_append _ _) with hinside | ⟨r, hr⟩
  · exact hcolon (hinside.subset (by decide))
  · rw [← hr, List.prefix_append_right_inj] at hpre
    rcases r with _ | ⟨x, r⟩
    · rw [List.append_nil] at hr
      have hmem : ':' ∈ List.flatMap py.fold name := hr ▸ by decide
      exact hcolon hmem
    · rcases t with _ | ⟨y, t⟩
      · exact absurd hpre.length_le (Nat.not_succ_le_zero _)
      · obtain rfl := ht y rfl
        rw [List.flatMap_cons, fold_eq_self (by decide)] at hpre
        obtain ⟨q, hq⟩ := hpre
        have hx : x = ' ' := (List.cons.inj hq).1
        have hmem : x ∈ mailtoPrefix := hr ▸ List.mem_append_right _ List.mem_cons_self
        rw [hx] at hmem
        exact absurd hmem (by decide)

/-! ### Brackets -/

theorem bracketed?_brackets {v w : Str} (hv : '<' ∉ v) :
    bracketed? (v ++ '<' :: (w ++ ['>'])) = some w := by
  have hall : ∀ x ∈ v, decide (x ≠ '<') = true := fun x hx => decide_eq_true fun h' => hv (h' ▸ hx)
  rw [bracketed?, List.dropWhile_append_of_pos hall]
  simp

theorem bracketed?_of_not_mem (h : '>' ∉ s) : bracketed? s = none := by
  unfold bracketed?
  rcases hdrop : s.dropWhile (· ≠ '<') with _ | ⟨x, t⟩
  · rfl
  · have ht : '>' ∉ t := fun hmem =>
      h ((List.dropWhile_suffix _).subset (hdrop ▸ List.mem_cons_of_mem _ hmem))
    have hnil : t.reverse.dropWhile (· ≠ '>') = [] := by
      rw [List.dropWhile_eq_nil_iff]
      intro y hy
      exact decide_eq_true fun h' => ht (h' ▸ List.mem_reverse.1 hy)
    dsimp only
    rw [hnil]

theorem unwrapped_brackets {v w : Str} (hv : '<' ∉ v) :
    unwrapped (v ++ '<' :: (w ++ ['>'])) = w := by
  rw [unwrapped, extractMailbox, bracketed?_brackets hv]

theorem unwrapped_bare (hclose : '>' ∉ s) (hopen : s.head? ≠ some '<') :
    unwrapped s = if parseaddr s ≠ [] ∧ parseaddr s ≠ s then parseaddr s else s := by
  have hangles : removeAngles s = s := by
    rw [removeAngles, if_neg hopen, if_neg fun hlast => hclose (List.mem_of_getLast? hlast)]
  rw [unwrapped, extractMailbox]
  dsimp only
  rw [bracketed?_of_not_mem hclose, hangles]
  split_ifs
  · rfl
  · rfl

/-- Of a plain text, a part is left. -/
theorem unwrapped_sublist {v e : Str} (h : IsPlain (v ++ '@' :: e)) (hv : '@' ∉ v) :
    (unwrapped (v ++ '@' :: e)).Sublist (v ++ '@' :: e) := by
  have hclose : '>' ∉ v ++ '@' :: e := h.not_mem (by decide)
  have hopen : (v ++ '@' :: e).head? ≠ some '<' := fun hhead =>
    h.not_mem (by decide) (List.mem_of_mem_head? hhead)
  obtain ⟨v', hsuffix, -, -, hparse⟩ := parseaddr_plain h hv
  rw [unwrapped_bare hclose hopen]
  split_ifs
  · rw [hparse]
    exact (specText_sublist _).trans (hsuffix.sublist.append_right _)
  · exact List.Sublist.refl _

/-- Without colons, the whole address is read. -/
theorem specText_self (h : Mailbox py u d) (hone : Plain (u ++ '@' :: d)) (hcolon : ':' ∉ u ++ '@' :: d) :
    specText (u ++ '@' :: d) = u ++ '@' :: d := by
  have hat := h.not_mem_domain hone
  rw [List.mem_append, List.mem_cons, not_or, not_or] at hcolon
  have hdomain := isStop_of_not_mem hat hcolon.2.2
  have huntil : untilStop d = d := by
    rw [← List.append_nil d, untilStop_append hdomain]
    rfl
  have hfrom : fromStop d = [] := by
    rw [← List.append_nil d, fromStop_append hdomain]
    rfl
  rw [specText_at (isStop_of_not_mem h.separator hcolon.1), huntil, hfrom, if_neg (by simpa using h.domain_ne_nil)]

/-- **Without brackets**, the address is read back if there is no colon in it, or one behind the `@`. -/
theorem reads_unwrapped_iff (h : Mailbox py u d) :
    Reads py (unwrapped (u ++ '@' :: d)) u d ↔
      Plain (u ++ '@' :: d) ∧ (':' ∉ u ++ '@' :: d ∨ d.head? = some ':') := by
  have hplain := h.isPlain
  have hclose : '>' ∉ u ++ '@' :: d := hplain.not_mem (by decide)
  have hopen : (u ++ '@' :: d).head? ≠ some '<' := fun hhead =>
    hplain.not_mem (by decide) (List.mem_of_mem_head? hhead)
  obtain ⟨v, hsuffix, hsame, hfree, hparse⟩ := parseaddr_plain hplain h.separator
  constructor
  · intro hreads
    have hall := eq_of_reads h (unwrapped_sublist hplain h.separator) hreads
    rw [hall] at hreads
    have hone := (reads_self_iff h).1 hreads
    have hat := h.not_mem_domain hone
    refine ⟨hone, ?_⟩
    by_contra hnot
    rw [not_or] at hnot
    obtain ⟨hcolon, hhead⟩ := hnot
    have hfilled : parseaddr (u ++ '@' :: d) ≠ [] := by
      obtain ⟨x, e, rfl⟩ := List.exists_cons_of_ne_nil h.domain_ne_nil
      have hx : isStop x = false :=
        isStop_eq_false (fun h' => hat (h' ▸ List.mem_cons_self)) fun h' => hhead (congrArg some h')
      rw [hparse, specText_at hfree, untilStop_cons hx, if_neg]
      · exact List.append_ne_nil_of_right_ne_nil _ (List.cons_ne_nil _ _)
      · rintro (hnil | hspoiled)
        · exact nomatch hnil
        · exact hat ((fromStop_suffix _).subset (List.mem_of_mem_head? hspoiled))
    have hother : parseaddr (u ++ '@' :: d) ≠ u ++ '@' :: d := by
      intro heq
      rw [hparse] at heq
      exact hcolon (heq ▸ colon_not_mem_specText _)
    rw [unwrapped_bare hclose hopen, if_pos ⟨hfilled, hother⟩] at hall
    exact hother hall
  · rintro ⟨hone, hcolon⟩
    have hparsed : parseaddr (u ++ '@' :: d) = [] ∨ parseaddr (u ++ '@' :: d) = u ++ '@' :: d := by
      rw [hparse]
      rcases hcolon with hcolon | hhead
      · rw [hsame fun hmem => hcolon (List.mem_append_left _ hmem), specText_self h hone hcolon]
        exact Or.inr rfl
      · obtain ⟨x, e, rfl⟩ := List.exists_cons_of_ne_nil h.domain_ne_nil
        obtain rfl := Option.some.inj hhead
        rw [specText_at hfree]
        exact Or.inl (if_pos (Or.inl (untilStop_stop (by decide))))
    have hall : unwrapped (u ++ '@' :: d) = u ++ '@' :: d := by
      rw [unwrapped_bare hclose hopen, if_neg]
      rintro ⟨hfilled, hother⟩
      exact hparsed.elim hfilled hother
    rw [hall]
    exact (reads_self_iff h).2 hone

/-! ## Presentations -/

/-- The result for an address with something around it, which is short and without white space. -/
theorem isMailbox_frame_iff {v w : Str} (h : Mailbox py u d) (hlength : v.length + w.length ≤ 7872)
    (hv : ∀ x ∈ v, Text.isSpace x = false) (hw : ∀ x ∈ w, Text.isSpace x = false) :
    IsMailbox (normalize py (v ++ (u ++ '@' :: d ++ w))) (u ++ '@' :: d) u d ↔
      Reads py (unwrapped (unprefixed py (v ++ (u ++ '@' :: d ++ w)))) u d := by
  have hshort : (u ++ '@' :: d).length ≤ 320 := (fits_of_isValidMailbox h.valid).2.2
  have hspace : ∀ x ∈ v ++ (u ++ '@' :: d ++ w), Text.isSpace x = false := by
    intro x hx
    rcases List.mem_append.1 hx with hx | hx
    · exact hv x hx
    rcases List.mem_append.1 hx with hx | hx
    · exact (h.char x hx).1
    · exact hw x hx
  have hfits : (v ++ (u ++ '@' :: d ++ w)).length ≤ maxNormalizationInputLength := by
    simp only [List.length_append, List.length_cons, maxNormalizationInputLength] at hshort ⊢
    omega
  have hstrip : Chars.strip (v ++ (u ++ '@' :: d ++ w)) = v ++ (u ++ '@' :: d ++ w) :=
    strip_eq_self (fun x hx => hspace x (List.mem_of_mem_head? hx)) fun x hx =>
      hspace x (List.mem_of_getLast? hx)
  rw [isMailbox_iff hfits hstrip, and_iff_right rfl]

theorem mailtoPrefix_chars : ∀ x ∈ mailtoPrefix,
    Text.isSpace x = false ∧ x ≠ '@' ∧ x.toNat < 128 ∧ x.toLower = x := by
  decide +kernel

/-- If the address begins with `mailto:`, the prefix is removed, and what is left is too short. -/
theorem not_reads_of_mailto (h : Mailbox py u d) (hpre : mailtoPrefix <+: u ++ '@' :: d) :
    ¬Reads py (unwrapped (unprefixed py (u ++ '@' :: d))) u d := by
  obtain ⟨v, rfl⟩ : ∃ v, u = mailtoPrefix ++ v := by
    rcases List.prefix_or_prefix_of_prefix hpre (List.prefix_append u _) with ⟨v, hv⟩ | ⟨r, hr⟩
    · exact ⟨v, hv.symm⟩
    · rw [← hr, List.prefix_append_right_inj] at hpre
      rcases r with _ | ⟨x, r⟩
      · exact ⟨[], by rw [← hr, List.append_nil, List.append_nil]⟩
      · obtain ⟨t, ht⟩ := hpre
        have hx : x = '@' := (List.cons.inj ht).1
        have hmem : x ∈ mailtoPrefix := hr ▸ List.mem_append_right _ List.mem_cons_self
        exact absurd hx (mailtoPrefix_chars x hmem).2.1
  intro hreads
  have hassoc : mailtoPrefix ++ v ++ '@' :: d = mailtoPrefix ++ (v ++ '@' :: d) := List.append_assoc ..
  have hplain := h.isPlain
  rw [hassoc] at hplain hreads
  rw [unprefixed_mailto] at hreads
  have hv : '@' ∉ v := fun hmem => h.separator (List.mem_append_right _ hmem)
  have hpart := unwrapped_sublist (hplain.of_suffix (List.suffix_append _ _)) hv
  have htail : (v ++ '@' :: d).Sublist (mailtoPrefix ++ v ++ '@' :: d) := by
    rw [hassoc]
    exact List.sublist_append_right _ _
  have hall := eq_of_reads h (hpart.trans htail) hreads
  have hle := hpart.length_le
  rw [hall, hassoc, List.length_append] at hle
  have hseven : mailtoPrefix.length = 7 := by decide
  omega

/-- The address alone. -/
theorem normalize_canonical_iff (h : Mailbox py u d) :
    IsMailbox (normalize py (u ++ '@' :: d)) (u ++ '@' :: d) u d ↔
      Plain (u ++ '@' :: d) ∧ (':' ∉ u ++ '@' :: d ∨ d.head? = some ':') ∧
        ¬mailtoPrefix <+: u ++ '@' :: d := by
  have hframe := isMailbox_frame_iff (v := []) (w := []) h (by decide) nofun nofun
  rw [List.append_nil, List.nil_append] at hframe
  rw [hframe]
  by_cases hpre : mailtoPrefix <+: u ++ '@' :: d
  · exact iff_of_false (not_reads_of_mailto h hpre) fun h' => h'.2.2 hpre
  · rw [unprefixed_eq_self (by rwa [casefold_eq_self h.fold]), reads_unwrapped_iff h,
      and_iff_left hpre]

/-- The address in brackets. -/
theorem normalize_brackets_iff (h : Mailbox py u d) :
    IsMailbox (normalize py ('<' :: (u ++ '@' :: d ++ ['>']))) (u ++ '@' :: d) u d ↔
      Plain (u ++ '@' :: d) := by
  have hframe := isMailbox_frame_iff (v := ['<']) (w := ['>']) h (by decide) (by decide) (by decide)
  rw [List.singleton_append] at hframe
  rw [hframe, unprefixed_bracket]
  have hwrapped := unwrapped_brackets (v := []) (w := u ++ '@' :: d) List.not_mem_nil
  rw [List.nil_append] at hwrapped
  rw [hwrapped, reads_self_iff h]

/-- The address behind `mailto:`. -/
theorem normalize_mailto_iff (h : Mailbox py u d) :
    IsMailbox (normalize py (mailtoPrefix ++ (u ++ '@' :: d))) (u ++ '@' :: d) u d ↔
      Plain (u ++ '@' :: d) ∧ (':' ∉ u ++ '@' :: d ∨ d.head? = some ':') := by
  have hframe := isMailbox_frame_iff (v := mailtoPrefix) (w := []) h (by decide)
    (fun x hx => (mailtoPrefix_chars x hx).1) nofun
  rw [List.append_nil] at hframe
  rw [hframe, unprefixed_mailto, reads_unwrapped_iff h]

/-- The address in brackets, behind `mailto:`. -/
theorem normalize_mailto_brackets_iff (h : Mailbox py u d) :
    IsMailbox (normalize py (mailtoPrefix ++ '<' :: (u ++ '@' :: d ++ ['>']))) (u ++ '@' :: d) u d ↔
      Plain (u ++ '@' :: d) := by
  have hspace : ∀ x ∈ mailtoPrefix ++ ['<'], Text.isSpace x = false := by decide +kernel
  have hframe := isMailbox_frame_iff (w := ['>']) h (by decide) hspace (by decide)
  rw [List.append_assoc, List.singleton_append] at hframe
  have hwrapped := unwrapped_brackets (v := []) (w := u ++ '@' :: d) List.not_mem_nil
  rw [List.nil_append] at hwrapped
  rw [hframe, unprefixed_mailto, hwrapped, reads_self_iff h]

/-- **The address behind `mailto:`, in brackets:** the prefix is not removed. -/
theorem normalize_brackets_mailto (h : Mailbox py u d) :
    ¬IsMailbox (normalize py ('<' :: (mailtoPrefix ++ (u ++ '@' :: d) ++ ['>']))) (u ++ '@' :: d) u d := by
  have hspace : ∀ x ∈ '<' :: mailtoPrefix, Text.isSpace x = false := by decide +kernel
  have hframe := isMailbox_frame_iff (w := ['>']) h (by decide) hspace (by decide)
  rw [List.cons_append, ← List.append_assoc mailtoPrefix] at hframe
  have hwrapped := unwrapped_brackets (v := []) (w := mailtoPrefix ++ (u ++ '@' :: d)) List.not_mem_nil
  rw [List.nil_append] at hwrapped
  rw [hframe, unprefixed_bracket, hwrapped]
  intro hreads
  have hassoc : mailtoPrefix ++ (u ++ '@' :: d) = mailtoPrefix ++ u ++ '@' :: d :=
    (List.append_assoc ..).symm
  have hat : '@' ∉ mailtoPrefix ++ u := by
    rw [List.mem_append, not_or]
    exact ⟨by decide, h.separator⟩
  have hfold : ∀ y ∈ mailtoPrefix ++ u, py.fold y = [y] := by
    intro y hy
    rcases List.mem_append.1 hy with hy | hy
    · exact fold_eq_self (mailtoPrefix_chars y hy).2.2
    · exact h.folded y hy
  have hcollapsed := collapsed_of_reads h (hassoc ▸ List.Sublist.refl _) hat hfold hreads
  have hcount := count_collapsed (s := mailtoPrefix ++ (u ++ '@' :: d)) (c := ':') (by decide)
    (by decide) (by decide)
  have hone : mailtoPrefix.count ':' = 1 := by decide
  have hsum : (mailtoPrefix ++ (u ++ '@' :: d)).count ':' =
      mailtoPrefix.count ':' + (u ++ '@' :: d).count ':' := List.count_append
  rw [hcollapsed] at hcount
  omega

/-! ### Display names -/

/-- A display name that is one atom. -/
structure Atom (name : Str) : Prop where
  ne_nil : name ≠ []
  chars : ∀ x ∈ name, Text.isSpace x = false ∧ isAtomEnd x = false

theorem Atom.isPlain {name : Str} (h : Atom name) : IsPlain name := fun x hx =>
  ⟨(h.chars x hx).1, Or.inl (h.chars x hx).2⟩

theorem Atom.not_mem {name : Str} {x : Char} (h : Atom name) (hx : isAtomEnd x = true) : x ∉ name := by
  intro hmem
  have hend := (h.chars x hmem).2
  rw [hx] at hend
  exact nomatch hend

theorem Atom.not_isStop {name : Str} (h : Atom name) : ∀ x ∈ name, isStop x = false :=
  isStop_of_not_mem (h.not_mem (by decide)) (h.not_mem (by decide))

theorem Mailbox.not_mem_open (h : Mailbox py u d) : '<' ∉ u ++ '@' :: d := h.isPlain.not_mem (by decide)

/-- An open bracket is kept, and spoils the address. -/
theorem not_reads_open {name r : Str} (h : Mailbox py u d) (hname : Atom name)
    (hr : r.Sublist (u ++ '@' :: d)) : ¬Reads py (name ++ ' ' :: '<' :: r) u d := by
  rintro ⟨username, domain, hsplit, hu, -, -⟩
  obtain ⟨hcollapsed, -, -, -, -⟩ := splitCandidate_eq_some_iff.1 hsplit
  have hopen : '<' ∈ collapsed (name ++ ' ' :: '<' :: r) := by
    rw [mem_collapsed (by decide) (by decide) (by decide)]
    simp
  rw [hcollapsed] at hopen
  rcases List.mem_append.1 hopen with hmem | hmem
  · refine h.not_mem_open (List.mem_append_left _ ?_)
    rw [← hu]
    exact List.mem_flatMap.2 ⟨'<', hmem, by rw [fold_eq_self (by decide)]; exact List.mem_cons_self⟩
  · have hdomain : '<' ∈ domain := (List.mem_cons.1 hmem).resolve_left (by decide)
    have hpair : ['@', '<'].Sublist (name ++ ' ' :: '<' :: r) := by
      have hpart : ['@', '<'].Sublist (username ++ '@' :: domain) :=
        ((List.singleton_sublist.2 hdomain).cons_cons '@').trans (List.sublist_append_right _ _)
      rw [← hcollapsed] at hpart
      exact hpart.trans ((collapsed_sublist _).trans List.filter_sublist)
    have hfront : '@' ∉ name ++ [' ', '<'] := by
      rw [List.mem_append, not_or]
      exact ⟨hname.not_mem (by decide), by decide⟩
    have hassoc : name ++ ' ' :: '<' :: r = name ++ [' ', '<'] ++ r := by
      rw [List.append_assoc]
      rfl
    rw [hassoc] at hpair
    have hrest := sublist_of_not_mem hfront hpair
    exact h.not_mem_open (hr.subset (hrest.subset (by simp)))

/-- A part of a display name is no address. -/
theorem not_reads_word {name : Str} (hname : Atom name) : ¬Reads py name u d := by
  rintro ⟨username, domain, hsplit, -⟩
  obtain ⟨hcollapsed, -⟩ := splitCandidate_eq_some_iff.1 hsplit
  have hmem : '@' ∈ collapsed name := by
    rw [hcollapsed]
    simp
  exact hname.not_mem (by decide) (((collapsed_sublist _).trans List.filter_sublist).subset hmem)

theorem Atom.head {name : Str} (h : Atom name) (t : Str) :
    ∀ x, (name ++ t).head? = some x → x ∈ name := by
  intro x hx
  rw [List.head?_append_of_ne_nil _ h.ne_nil] at hx
  exact List.mem_of_mem_head? hx

theorem extracted_word {name t : Str} (hname : Atom name) (ht : ∀ x ∈ t, x = ' ') :
    extracted py (name ++ t) = name := by
  have hstrip : Chars.strip (name ++ t) = name := by
    refine strip_append hname.ne_nil (fun x hx => ?_) (fun x hx => ?_) fun x hx => ?_
    · exact (hname.chars x (List.mem_of_mem_head? hx)).1
    · exact (hname.chars x (List.mem_of_getLast? hx)).1
    · rw [ht x hx]
      decide
  have hcolon : ':' ∉ name := hname.not_mem (by decide)
  have hunprefixed : unprefixed py (name ++ []) = name ++ [] := unprefixed_word hcolon nofun
  have hparse : parseaddr name = name := by
    obtain ⟨x, rest, rfl⟩ := List.exists_cons_of_ne_nil hname.ne_nil
    exact parseaddr_word hname.isPlain hname.not_isStop
  have hclose : '>' ∉ name := hname.not_mem (by decide)
  have hopen : name.head? ≠ some '<' := fun hhead =>
    hname.not_mem (by decide) (List.mem_of_mem_head? hhead)
  rw [List.append_nil] at hunprefixed
  rw [extracted_eq, hstrip, hunprefixed, unwrapped_bare hclose hopen, hparse,
    if_neg fun h => h.2 rfl]

/-- Without the bracket at the end, the address is read like a route. -/
theorem extracted_open {name r : Str} (h : Mailbox py u d) (hname : Atom name)
    (hr : r.Sublist (u ++ '@' :: d)) :
    extracted py (name ++ ' ' :: '<' :: r) =
      if (getrouteaddr r).1.adlist ≠ [] ∧ (getrouteaddr r).1.adlist ≠ name ++ ' ' :: '<' :: r then
        (getrouteaddr r).1.adlist
      else name ++ ' ' :: '<' :: r := by
  have hstrip : Chars.strip (name ++ ' ' :: '<' :: r) = name ++ ' ' :: '<' :: r := by
    refine strip_eq_self (fun x hx => (hname.chars x (hname.head _ x hx)).1) fun x hx => ?_
    have hassoc : name ++ ' ' :: '<' :: r = name ++ [' '] ++ '<' :: r := List.append_cons ..
    rw [hassoc, List.getLast?_append_of_ne_nil _ (List.cons_ne_nil _ _)] at hx
    rcases List.mem_cons.1 (List.mem_of_getLast? hx) with rfl | hmem
    · decide
    · exact (h.char x (hr.subset hmem)).1
  have hcolon : ':' ∉ name := hname.not_mem (by decide)
  have hunprefixed : unprefixed py (name ++ ' ' :: '<' :: r) = name ++ ' ' :: '<' :: r :=
    unprefixed_word hcolon fun x hx => (Option.some.inj hx).symm
  have hparse : parseaddr (name ++ ' ' :: '<' :: r) = (getrouteaddr r).1.adlist := by
    obtain ⟨x, rest, rfl⟩ := List.exists_cons_of_ne_nil hname.ne_nil
    exact parseaddr_bracket hname.isPlain hname.not_isStop
  have hclose : '>' ∉ name ++ ' ' :: '<' :: r := by
    intro hmem
    rcases List.mem_append.1 hmem with hmem | hmem
    · exact hname.not_mem (by decide) hmem
    · have hmem' : '>' ∈ r := by simpa using hmem
      exact h.isPlain.not_mem (by decide) (hr.subset hmem')
  have hopen : (name ++ ' ' :: '<' :: r).head? ≠ some '<' := fun hhead =>
    hname.not_mem (by decide) (hname.head _ _ hhead)
  rw [extracted_eq, hstrip, hunprefixed, unwrapped_bare hclose hopen, hparse]

/-- **Behind a display name** whose bracket is cut off, the address is read back if it is whole, plain
and without colons. -/
theorem reads_open_iff {name r : Str} (h : Mailbox py u d) (hname : Atom name)
    (hr : r <+: u ++ '@' :: d) :
    Reads py (extracted py (name ++ ' ' :: '<' :: r)) u d ↔
      Plain (u ++ '@' :: d) ∧ r = u ++ '@' :: d ∧ ':' ∉ u ++ '@' :: d := by
  have hplain : IsPlain r := fun x hx => h.isPlain x (hr.subset hx)
  rw [extracted_open h hname hr.sublist]
  constructor
  · intro hreads
    split_ifs at hreads with hroute
    · obtain ⟨e, he, hnil | hspec⟩ := getrouteaddr_plain hplain
      · exact absurd hnil hroute.1
      have hpart : (getrouteaddr r).1.adlist.Sublist r := by
        rw [hspec]
        exact (specText_sublist e).trans he.sublist
      have hall := eq_of_reads h (hpart.trans hr.sublist) hreads
      rw [hall] at hreads hpart
      refine ⟨(reads_self_iff h).1 hreads, hr.sublist.eq_of_length_le hpart.length_le, ?_⟩
      rw [← hall, hspec]
      exact colon_not_mem_specText e
    · exact absurd hreads (not_reads_open h hname hr.sublist)
  · rintro ⟨hone, rfl, hcolon⟩
    have hroute : (getrouteaddr (u ++ '@' :: d)).1.adlist = u ++ '@' :: d := by
      obtain ⟨x, v, rfl⟩ := List.exists_cons_of_ne_nil h.username_ne_nil
      have hx : x ≠ '@' := fun heq => h.separator (heq ▸ List.mem_cons_self)
      have hx' : x ≠ ':' := fun heq => hcolon (heq ▸ List.mem_cons_self)
      have hspec := getrouteaddr_spec hplain (isStop_eq_false hx hx')
      exact hspec.trans (specText_self h hone hcolon)
    have hother : u ++ '@' :: d ≠ name ++ ' ' :: '<' :: (u ++ '@' :: d) := by
      intro heq
      refine h.not_mem_open ?_
      rw [heq]
      simp
    rw [hroute, if_pos ⟨by simp, hother⟩]
    exact (reads_self_iff h).2 hone

/-- The address in brackets behind a display name. -/
theorem normalize_display_iff {name : Str} (h : Mailbox py u d) (hname : Atom name) :
    IsMailbox (normalize py (name ++ ' ' :: '<' :: (u ++ '@' :: d ++ ['>']))) (u ++ '@' :: d) u d ↔
      Plain (u ++ '@' :: d) ∧
        (name.length + (u ++ '@' :: d).length + 3 ≤ maxNormalizationInputLength ∨
          name.length + (u ++ '@' :: d).length + 3 = maxNormalizationInputLength + 1 ∧
            ':' ∉ u ++ '@' :: d) := by
  have hlength : (name ++ ' ' :: '<' :: (u ++ '@' :: d ++ ['>'])).length =
      name.length + (u ++ '@' :: d).length + 3 := by
    simp only [List.length_append, List.length_cons, List.length_nil]
    omega
  by_cases hfits : name.length + (u ++ '@' :: d).length + 3 ≤ maxNormalizationInputLength
  · have hstrip : Chars.strip (name ++ ' ' :: '<' :: (u ++ '@' :: d ++ ['>'])) =
        name ++ ' ' :: '<' :: (u ++ '@' :: d ++ ['>']) := by
      refine strip_eq_self (fun x hx => (hname.chars x (hname.head _ x hx)).1) fun x hx => ?_
      have hassoc : name ++ ' ' :: '<' :: (u ++ '@' :: d ++ ['>']) =
          name ++ ' ' :: '<' :: (u ++ '@' :: d) ++ ['>'] :=
        (List.append_assoc name (' ' :: '<' :: (u ++ '@' :: d)) ['>']).symm
      rw [hassoc, List.getLast?_concat] at hx
      obtain rfl := Option.some.inj hx
      decide
    have hcolon : ':' ∉ name := hname.not_mem (by decide)
    have hunprefixed : unprefixed py (name ++ ' ' :: '<' :: (u ++ '@' :: d ++ ['>'])) =
        name ++ ' ' :: '<' :: (u ++ '@' :: d ++ ['>']) :=
      unprefixed_word hcolon fun x hx => (Option.some.inj hx).symm
    have hopen : '<' ∉ name ++ [' '] := by
      rw [List.mem_append, not_or]
      exact ⟨hname.not_mem (by decide), by decide⟩
    rw [isMailbox_iff (hlength.trans_le hfits) hstrip, and_iff_right rfl, hunprefixed, List.append_cons,
      unwrapped_brackets hopen, reads_self_iff h]
    exact (and_iff_left (Or.inl hfits)).symm
  · rw [normalize_isMailbox_iff, and_iff_right rfl, or_iff_right hfits, bounded, List.take_append]
    by_cases hlong : maxNormalizationInputLength ≤ name.length + 1
    · have hatom : Atom (name.take maxNormalizationInputLength) := by
        refine ⟨?_, fun x hx => hname.chars x (List.mem_of_mem_take hx)⟩
        rw [Ne, List.take_eq_nil_iff, not_or]
        exact ⟨by decide, hname.ne_nil⟩
      rw [extracted_word hatom]
      · refine iff_of_false (not_reads_word hatom) fun h' => ?_
        omega
      · intro x hx
        have hone : maxNormalizationInputLength - name.length ≤ 1 := by omega
        have hmem : x ∈ (' ' :: '<' :: (u ++ '@' :: d ++ ['>'])).take 1 :=
          (List.take_sublist_take_left hone).subset hx
        exact List.mem_singleton.1 hmem
    · have hroom : maxNormalizationInputLength - name.length =
          maxNormalizationInputLength - (name.length + 2) + 2 := by omega
      have hcut : maxNormalizationInputLength - (name.length + 2) ≤ (u ++ '@' :: d).length := by omega
      rw [List.take_of_length_le (by omega), hroom, List.take_succ_cons, List.take_succ_cons,
        List.take_append_of_le_length hcut, reads_open_iff h hname (List.take_prefix _ _),
        List.take_eq_self_iff]
      refine and_congr_right fun _ => and_congr_left fun _ => ?_
      omega

/-- **Which presentations give an address back.** -/
structure GivenBack (py : Tables) (c u d : Str) : Prop where
  /-- The address alone. -/
  alone : IsMailbox (normalize py c) c u d ↔
    Plain c ∧ (':' ∉ c ∨ d.head? = some ':') ∧ ¬mailtoPrefix <+: c
  /-- `<c>` -/
  brackets : IsMailbox (normalize py ('<' :: (c ++ ['>']))) c u d ↔ Plain c
  /-- `mailto:c` -/
  mailto : IsMailbox (normalize py (mailtoPrefix ++ c)) c u d ↔
    Plain c ∧ (':' ∉ c ∨ d.head? = some ':')
  /-- `name <c>` -/
  display : ∀ name, Atom name →
    (IsMailbox (normalize py (name ++ ' ' :: '<' :: (c ++ ['>']))) c u d ↔
      Plain c ∧ (name.length + c.length + 3 ≤ maxNormalizationInputLength ∨
        name.length + c.length + 3 = maxNormalizationInputLength + 1 ∧ ':' ∉ c))
  /-- `mailto:<c>` -/
  mailtoBrackets : IsMailbox (normalize py (mailtoPrefix ++ '<' :: (c ++ ['>']))) c u d ↔ Plain c
  /-- `<mailto:c>` -/
  bracketsMailto : ¬IsMailbox (normalize py ('<' :: (mailtoPrefix ++ c ++ ['>']))) c u d

/-- **Presentations**: of every valid address, exactly the plain ones are read back, alone and behind
`mailto:` only if no colon is in the way; behind `mailto:` in brackets, none is. -/
theorem normalize_presentations (py : Tables) (a : Str) (h : (normalize py a).isValid = true) :
    ∃ c u d, IsMailbox (normalize py a) c u d ∧ GivenBack py c u d := by
  obtain ⟨c, u, d, hmailbox⟩ := exists_isMailbox h
  obtain ⟨rfl, hreads⟩ := normalize_isMailbox_iff.1 hmailbox
  have hparts := mailbox_of_reads hreads
  refine ⟨_, u, d, hmailbox, ?_⟩
  exact {
    alone := normalize_canonical_iff hparts
    brackets := normalize_brackets_iff hparts
    mailto := normalize_mailto_iff hparts
    display := fun name hname => normalize_display_iff hparts hname
    mailtoBrackets := normalize_mailto_brackets_iff hparts
    bracketsMailto := normalize_brackets_mailto hparts
  }

/-! ### Colons in the way -/

/-- The labels of an ASCII name have 1 to 63 characters; the last may be empty. -/
def labelsFit (s : Str) : Bool :=
  ((s.splitOn '.').dropLast.all fun label => 0 < label.length ∧ label.length < 64) &&
    ((s.splitOn '.').getLastD []).length < 64

theorem ascii_toLower {c : Char} (h : c.toNat < 128) :
    c.toLower.toNat < 128 ∧ c.toLower.toLower = c.toLower ∧
      (c.toLower = '@' ∨ c.toLower = ':' → c.toLower = c) :=
  Chars.of_ascii_cases (P := fun c => c.toLower.toNat < 128 ∧ c.toLower.toLower = c.toLower ∧
    (c.toLower = '@' ∨ c.toLower = ':' → c.toLower = c)) (by decide +kernel) h

/-- The tables of Unicode, as far as ASCII goes. -/
def asciiTables : Tables where
  isprintable c := 32 ≤ c.toNat ∧ c.toNat < 127
  fold c := if c.toNat < 128 then [c.toLower] else [c]
  idna s := if s.all (fun c => c.toNat < 128) && labelsFit s then some s else none
  fold_fold c x hx := by
    split_ifs at hx with hc
    · obtain rfl := List.mem_singleton.1 hx
      rw [if_pos (ascii_toLower hc).1, (ascii_toLower hc).2.1]
    · obtain rfl := List.mem_singleton.1 hx
      rw [if_neg hc]
  fold_ne_nil c := by
    split_ifs
    · exact List.cons_ne_nil _ _
    · exact List.cons_ne_nil _ _
  fold_ascii c hc := if_pos hc
  fold_separator c x hx hsep := by
    split_ifs at hx with hc
    · obtain rfl := List.mem_singleton.1 hx
      exact (ascii_toLower hc).2.2 hsep
    · exact List.mem_singleton.1 hx
  idna_ascii s e h x hx := by
    split_ifs at h with hfits
    obtain rfl := Option.some.inj h
    rw [Bool.and_eq_true, List.all_eq_true] at hfits
    have hascii : x.toNat < 128 := by simpa using hfits.1 x hx
    obtain ⟨c, -, hfold⟩ := List.mem_flatMap.1 hx
    split_ifs at hfold with hc
    · obtain rfl := List.mem_singleton.1 hfold
      exact ⟨hascii, (ascii_toLower hc).2.1⟩
    · obtain rfl := List.mem_singleton.1 hfold
      exact absurd hascii hc
  idna_of_ascii s e _ h := by
    split_ifs at h
    exact (Option.some.inj h).symm
  idna_idna s e h _ _ := by
    have h' := h
    split_ifs at h'
    obtain rfl := Option.some.inj h'
    exact h
  idna_ne_nil s hne h := by
    split_ifs at h
    exact hne (Option.some.inj h)

theorem normalize_presentations_sample :
    ∃ c u d, IsMailbox (normalize asciiTables "Alice <ALICE@Example.COM>".toList) c u d ∧
      GivenBack asciiTables c u d :=
  normalize_presentations asciiTables _ (by decide +kernel)

/-- `<x:y@z>` gives `x:y@z`, which gives `y@z`; and in brackets, `mailto:` stays. -/
theorem colons_in_the_way :
    (IsMailbox (normalize asciiTables "<x:y@z>".toList) "x:y@z".toList "x:y".toList "z".toList ∧
      IsMailbox (normalize asciiTables "x:y@z".toList) "y@z".toList "y".toList "z".toList) ∧
      IsMailbox (normalize asciiTables "a@b.c".toList) "a@b.c".toList "a".toList "b.c".toList ∧
      IsMailbox (normalize asciiTables "<mailto:a@b.c>".toList) "mailto:a@b.c".toList
        "mailto:a".toList "b.c".toList :=
  ⟨⟨⟨by decide +kernel, by decide +kernel, by decide +kernel, by decide +kernel⟩,
      ⟨by decide +kernel, by decide +kernel, by decide +kernel, by decide +kernel⟩⟩,
    ⟨by decide +kernel, by decide +kernel, by decide +kernel, by decide +kernel⟩,
    ⟨by decide +kernel, by decide +kernel, by decide +kernel, by decide +kernel⟩⟩

end Normalization
end Sender
end ScamOn.Analyzers
