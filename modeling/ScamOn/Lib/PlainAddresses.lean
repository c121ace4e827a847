import ScamOn.Lib.AddressBrackets

/-!
# Addresses without quotes, comments and brackets

What the parser of `email.utils` reads of a text that holds only atoms, dots, colons and `@`.

* `specText` is what it takes for an address: a local part and a domain, up to the next colon or `@`.
* `getaddrspec_plain`: this is what `getaddrspec` reads.
* `firstAddress_getaddress`: in front of the first `@`, colons open groups, so that the address begins
  behind the last of them.
* `getrouteaddr_plain`: in brackets, too, the address is that of some end of the text.
-/

namespace ScamOn.EmailAddresses

open Readers

/-! ## Plain texts -/

/-- Where an address ends. -/
def isStop (c : Char) : Bool := c = '@' ∨ c = ':'

/-- A character of an atom, a dot, a colon or an `@`. -/
def IsPlainChar (c : Char) : Prop :=
  Text.isSpace c = false ∧ (isAtomEnd c = false ∨ c = '.' ∨ isStop c = true)

def IsPlain (s : Str) : Prop := ∀ c ∈ s, IsPlainChar c

/-- What stands before the next stop, and the rest. -/
def untilStop (s : Str) : Str := s.takeWhile fun c => !isStop c

def fromStop (s : Str) : Str := s.dropWhile fun c => !isStop c

/-- The address at the front of a text; it is empty if its domain is. -/
def specText (s : Str) : Str :=
  match fromStop s with
  | [] => untilStop s
  | c :: e =>
    if c = '@' then
      if untilStop e = [] ∨ (fromStop e).head? = some '@' then [] else untilStop s ++ '@' :: untilStop e
    else untilStop s

variable {c : Char} {s e v : Str}

theorem IsPlain.tail (h : IsPlain (c :: s)) : IsPlain s := fun d hd => h d (List.mem_cons_of_mem _ hd)

theorem IsPlain.of_suffix (h : IsPlain s) (hsuffix : e <:+ s) : IsPlain e :=
  fun d hd => h d (hsuffix.subset hd)

/-- A plain character is no white space, and opens no comment and no quote. -/
theorem IsPlainChar.ne {d : Char} (h : IsPlainChar c)
    (hd : isAtomEnd d = true ∧ d ≠ '.' ∧ isStop d = false) : c ≠ d := by
  rintro rfl
  rcases h.2 with h' | h' | h'
  · rw [h'] at hd
    exact nomatch hd.1
  · exact hd.2.1 h'
  · rw [h'] at hd
    exact nomatch hd.2.2

theorem IsPlain.not_mem {d : Char} (h : IsPlain s)
    (hd : isAtomEnd d = true ∧ d ≠ '.' ∧ isStop d = false) : d ∉ s := fun hmem =>
  (h d hmem).ne hd rfl

theorem isSpace_of_isFws (h : isFws c = true) : Text.isSpace c = true := by
  have hcases : c = ' ' ∨ c = '\t' ∨ c = '\r' ∨ c = '\n' := by
    simpa [isFws, isLws, isCr, or_assoc] using h
  rcases hcases with rfl | rfl | rfl | rfl
  · decide
  · decide
  · decide
  · decide

theorem IsPlainChar.isFws_eq (h : IsPlainChar c) : isFws c = false := by
  by_contra hfws
  rw [Bool.not_eq_false] at hfws
  have hspace := h.1
  rw [isSpace_of_isFws hfws] at hspace
  exact nomatch hspace

theorem isStop_of_isAtomEnd (h : IsPlainChar c) (hend : isAtomEnd c = true) (hdot : c ≠ '.') :
    isStop c = true := by
  rcases h.2 with h' | h' | h'
  · rw [hend] at h'
    exact nomatch h'
  · exact absurd h' hdot
  · exact h'

theorem isStop_eq_false (hat : c ≠ '@') (hcolon : c ≠ ':') : isStop c = false := by
  simp [isStop, hat, hcolon]

theorem isStop_of_not_mem (hat : '@' ∉ s) (hcolon : ':' ∉ s) : ∀ c ∈ s, isStop c = false :=
  fun _ hc => isStop_eq_false (fun h => hat (h ▸ hc)) fun h => hcolon (h ▸ hc)

theorem isAtomEnd_of_isStop (h : isStop c = true) : isAtomEnd c = true ∧ c ≠ '.' := by
  have hcases : c = '@' ∨ c = ':' := by simpa [isStop] using h
  rcases hcases with rfl | rfl
  · decide
  · decide

/-! ## Until the next stop -/

theorem untilStop_append_fromStop (s : Str) : untilStop s ++ fromStop s = s :=
  List.takeWhile_append_dropWhile

theorem fromStop_suffix (s : Str) : fromStop s <:+ s := List.dropWhile_suffix _

theorem untilStop_cons (h : isStop c = false) : untilStop (c :: s) = c :: untilStop s := by
  rw [untilStop, List.takeWhile_cons, h]
  rfl

theorem fromStop_cons (h : isStop c = false) : fromStop (c :: s) = fromStop s := by
  rw [fromStop, List.dropWhile_cons, h]
  rfl

theorem untilStop_stop (h : isStop c = true) : untilStop (c :: s) = [] := by
  rw [untilStop, List.takeWhile_cons, h]
  rfl

theorem fromStop_stop (h : isStop c = true) : fromStop (c :: s) = c :: s := by
  rw [fromStop, List.dropWhile_cons, h]
  rfl

theorem isStop_of_mem_untilStop (h : c ∈ untilStop s) : isStop c = false := by
  have hp := List.mem_takeWhile_imp h
  simpa using hp

theorem untilStop_append (h : ∀ c ∈ v, isStop c = false) :
    untilStop (v ++ s) = v ++ untilStop s := by
  induction v with
  | nil => rfl
  | cons c v ih =>
    rw [List.cons_append, untilStop_cons (h c List.mem_cons_self),
      ih fun d hd => h d (List.mem_cons_of_mem _ hd), List.cons_append]

theorem fromStop_append (h : ∀ c ∈ v, isStop c = false) : fromStop (v ++ s) = fromStop s := by
  induction v with
  | nil => rfl
  | cons c v ih =>
    rw [List.cons_append, fromStop_cons (h c List.mem_cons_self),
      ih fun d hd => h d (List.mem_cons_of_mem _ hd)]

/-- Atoms end before the next stop. -/
theorem untilStop_getatom (s : Str) :
    untilStop s = (getatom isAtomEnd s).1 ++ untilStop (getatom isAtomEnd s).2 ∧
      fromStop s = fromStop (getatom isAtomEnd s).2 := by
  have hatom : ∀ c ∈ (getatom isAtomEnd s).1, isStop c = false := by
    intro c hc
    have hend : isAtomEnd c = false := by simpa using List.mem_takeWhile_imp hc
    by_contra hstop
    rw [Bool.not_eq_false] at hstop
    rw [(isAtomEnd_of_isStop hstop).1] at hend
    exact nomatch hend
  have hsplit : (getatom isAtomEnd s).1 ++ (getatom isAtomEnd s).2 = s :=
    List.takeWhile_append_dropWhile
  have huntil := untilStop_append (s := (getatom isAtomEnd s).2) hatom
  have hfrom := fromStop_append (s := (getatom isAtomEnd s).2) hatom
  rw [hsplit] at huntil hfrom
  exact ⟨huntil, hfrom⟩

theorem getatom_suffix (ends : Char → Bool) (s : Str) : (getatom ends s).2 <:+ s :=
  List.dropWhile_suffix _

/-- What is read as an address is a part of the text, without colons. -/
theorem specText_sublist (s : Str) : (specText s).Sublist s := by
  have hsplit := untilStop_append_fromStop s
  unfold specText
  rcases hfrom : fromStop s with _ | ⟨c, e⟩
  · exact List.takeWhile_sublist _
  · dsimp only
    split_ifs with hat hempty
    · exact List.nil_sublist _
    · subst hat
      rw [hfrom] at hsplit
      have hpart : (untilStop s ++ '@' :: untilStop e).Sublist (untilStop s ++ '@' :: e) :=
        ((List.takeWhile_sublist _).cons_cons _).append_left _
      rwa [hsplit] at hpart
    · exact List.takeWhile_sublist _

theorem specText_at (hv : ∀ c ∈ v, isStop c = false) :
    specText (v ++ '@' :: e) =
      if untilStop e = [] ∨ (fromStop e).head? = some '@' then [] else v ++ '@' :: untilStop e := by
  have hstop : isStop '@' = true := by decide
  rw [specText, untilStop_append hv, fromStop_append hv, fromStop_stop hstop, untilStop_stop hstop]
  dsimp only
  rw [if_pos rfl, List.append_nil]

theorem colon_not_mem_specText (s : Str) : ':' ∉ specText s := by
  have huntil : ∀ s, ':' ∉ untilStop s := fun s h => nomatch isStop_of_mem_untilStop h
  unfold specText
  rcases fromStop s with _ | ⟨c, e⟩
  · exact huntil s
  · dsimp only
    split_ifs
    · exact List.not_mem_nil
    · rw [List.mem_append, List.mem_cons]
      rintro (h | h | h)
      · exact huntil s h
      · exact nomatch h
      · exact huntil e h
    · exact huntil s

/-! ## Reading -/

/-- There is no gap in front of a plain character. -/
theorem gotonext_cons (hc : IsPlainChar c) : gotonext (c :: s) = (⟨[], []⟩, c :: s) := by
  have hfws : ¬isLws c = true ∧ ¬isCr c = true := by
    simpa [isFws] using hc.isFws_eq
  have hopen : c ≠ '(' := hc.ne (by decide)
  have hstep : gotonextStep ⟨[], []⟩ c s = none := by
    rw [gotonextStep, if_neg hfws.1, if_neg hfws.2, if_neg hopen]
  exact readWhile_of_none gotonextStep_bounded.consuming hstep

theorem gotonext_plain (h : IsPlain s) : gotonext s = (⟨[], []⟩, s) := by
  rcases s with _ | ⟨c, s⟩
  · rfl
  · exact gotonext_cons (h c List.mem_cons_self)

theorem getdomainStep_plain (hc : IsPlainChar c) (domain : Part) :
    getdomainStep domain c s =
      if isStop c then none
      else if c = '.' then some ({ domain with text := domain.text ++ ['.'] }, s)
      else some ({ domain with text := domain.text ++ c :: (getatom isAtomEnd s).1 },
        (getatom isAtomEnd s).2) := by
  have hlws : ¬isLws c = true := by
    have hfws := hc.isFws_eq
    simp only [isFws, decide_eq_false_iff_not, not_or] at hfws
    exact hfws.1
  rw [getdomainStep, if_neg hlws, if_neg (hc.ne (by decide)), if_neg (hc.ne (by decide))]
  by_cases hstop : isStop c = true
  · obtain ⟨hend, hdot⟩ := isAtomEnd_of_isStop hstop
    rw [if_neg hdot, if_pos hend, if_pos hstop]
  · rw [if_neg hstop]
    by_cases hdot : c = '.'
    · rw [if_pos hdot, if_pos hdot]
    · rw [if_neg hdot, if_neg hdot, if_neg fun hend => hstop (isStop_of_isAtomEnd hc hend hdot)]

/-- **A plain text is read in steps**: up to a stop, past a dot, or past an atom. -/
theorem IsPlain.induction {motive : ∀ s, IsPlain s → Prop} (nil : ∀ h, motive [] h)
    (stop : ∀ c s h, isStop c = true → motive (c :: s) h)
    (dot : ∀ s h h', motive s h' → motive ('.' :: s) h)
    (atom : ∀ c s h h', isStop c = false → c ≠ '.' → motive (getatom isAtomEnd s).2 h' →
      motive (c :: s) h)
    (h : IsPlain s) : motive s h := by
  induction hlength : s.length using Nat.strong_induction_on generalizing s with
  | _ n ih =>
    rcases s with _ | ⟨c, s⟩
    · exact nil h
    have hlt : s.length < n := by
      rw [← hlength, List.length_cons]
      exact Nat.lt_succ_self _
    by_cases hstop : isStop c = true
    · exact stop c s h hstop
    by_cases hdot : c = '.'
    · subst hdot
      exact dot s h h.tail (ih _ hlt h.tail rfl)
    · rw [Bool.not_eq_true] at hstop
      have hle := length_getatom isAtomEnd s
      have hrest : IsPlain (getatom isAtomEnd s).2 := h.tail.of_suffix (getatom_suffix _ s)
      exact atom c s h hrest hstop hdot (ih _ (lt_of_le_of_lt hle hlt) hrest rfl)

theorem readWhile_getdomainStep (h : IsPlain s) (text : Str) :
    readWhile getdomainStep ⟨text, []⟩ s = (⟨text ++ untilStop s, []⟩, fromStop s) := by
  have hconsuming := getdomainStep_bounded.consuming
  induction h using IsPlain.induction generalizing text with
  | nil =>
    simp [untilStop, fromStop]
  | stop c s h hstop =>
    have hstep := getdomainStep_plain (s := s) (h c List.mem_cons_self) ⟨text, []⟩
    rw [if_pos hstop] at hstep
    rw [readWhile_of_none hconsuming hstep, untilStop_stop hstop, fromStop_stop hstop,
      List.append_nil]
  | dot s h _ ih =>
    have hstep := getdomainStep_plain (s := s) (h '.' List.mem_cons_self) ⟨text, []⟩
    rw [if_neg (by decide), if_pos rfl] at hstep
    rw [untilStop_cons (by decide), fromStop_cons (by decide), readWhile_of_some hconsuming hstep, ih,
      List.append_assoc, List.singleton_append]
  | atom c s h _ hstop hdot ih =>
    have hstep := getdomainStep_plain (s := s) (h c List.mem_cons_self) ⟨text, []⟩
    rw [if_neg (Bool.eq_false_iff.1 hstop), if_neg hdot] at hstep
    obtain ⟨huntil, hfrom⟩ := untilStop_getatom s
    rw [untilStop_cons hstop, fromStop_cons hstop, readWhile_of_some hconsuming hstep, ih, huntil, hfrom,
      List.append_assoc, List.cons_append]

/-- The domain at the front of a plain text. -/
theorem getdomain_plain (h : IsPlain s) :
    (getdomain s).1.text = if (fromStop s).head? = some '@' then [] else untilStop s := by
  unfold getdomain
  rw [readWhile_getdomainStep h]
  dsimp only
  split_ifs
  · rfl
  · exact List.nil_append _

/-- No piece of a local part is blank. -/
def NoBlank (aslist : List Str) : Prop := ∀ piece ∈ aslist, piece.all Text.isSpace = false

theorem popBlank_of_noBlank {aslist : List Str} (h : NoBlank aslist) : popBlank aslist = aslist := by
  unfold popBlank
  rcases hlast : aslist.getLast? with _ | last
  · rfl
  · have hnot := h last (List.mem_of_getLast? hlast)
    dsimp only
    rw [hnot]
    rfl

theorem NoBlank.append {aslist : List Str} (h : NoBlank aslist) (piece : Str)
    (hc : Text.isSpace c = false) (hmem : c ∈ piece) : NoBlank (aslist ++ [piece]) := by
  intro piece' hpiece'
  rcases List.mem_append.1 hpiece' with hpiece' | hpiece'
  · exact h piece' hpiece'
  · obtain rfl := List.mem_singleton.1 hpiece'
    rw [List.all_eq_false]
    exact ⟨c, hmem, by rw [hc]; exact Bool.false_ne_true⟩

theorem getaddrspecStep_plain (h : IsPlain (c :: s)) {aslist : List Str} (haslist : NoBlank aslist) :
    getaddrspecStep ⟨aslist, []⟩ c s =
      if isStop c then none
      else if c = '.' then some (⟨aslist ++ [['.']], []⟩, s)
      else some (⟨aslist ++ [c :: (getatom isAtomEnd s).1], []⟩, (getatom isAtomEnd s).2) := by
  have hc := h c List.mem_cons_self
  have hrest : IsPlain (getatom isAtomEnd s).2 := h.tail.of_suffix (getatom_suffix _ s)
  rw [getaddrspecStep]
  by_cases hstop : isStop c = true
  · obtain ⟨hend, hdot⟩ := isAtomEnd_of_isStop hstop
    rw [if_neg hdot, if_neg (hc.ne (by decide)), if_pos hend, if_pos hstop]
  · rw [if_neg hstop]
    by_cases hdot : c = '.'
    · rw [if_pos hdot, if_pos hdot, gotonext_plain h.tail, popBlank_of_noBlank haslist]
      rfl
    · rw [if_neg hdot, if_neg hdot, if_neg (hc.ne (by decide)),
        if_neg fun hend => hstop (isStop_of_isAtomEnd hc hend hdot), gotonext_plain hrest]
      simp [pushPiece]

theorem readWhile_getaddrspecStep (h : IsPlain s) (aslist : List Str) (haslist : NoBlank aslist) :
    ∃ aslist', readWhile getaddrspecStep ⟨aslist, []⟩ s = (⟨aslist', []⟩, fromStop s) ∧
      aslist'.flatten = aslist.flatten ++ untilStop s ∧ NoBlank aslist' := by
  have hconsuming := getaddrspecStep_bounded.consuming
  induction h using IsPlain.induction generalizing aslist with
  | nil =>
    exact ⟨aslist, rfl, (List.append_nil _).symm, haslist⟩
  | stop c s h hstop =>
    have hstep := getaddrspecStep_plain h haslist
    rw [if_pos hstop] at hstep
    rw [readWhile_of_none hconsuming hstep, untilStop_stop hstop, fromStop_stop hstop]
    exact ⟨aslist, rfl, (List.append_nil _).symm, haslist⟩
  | dot s h _ ih =>
    have hstep := getaddrspecStep_plain h haslist
    rw [if_neg (by decide), if_pos rfl] at hstep
    rw [untilStop_cons (by decide), fromStop_cons (by decide), readWhile_of_some hconsuming hstep]
    obtain ⟨aslist', hread, hflatten, hblank⟩ := ih _
      (haslist.append ['.'] (h '.' List.mem_cons_self).1 List.mem_cons_self)
    refine ⟨aslist', hread, ?_, hblank⟩
    rw [hflatten, List.flatten_append, List.append_assoc]
    rfl
  | atom c s h _ hstop hdot ih =>
    have hstep := getaddrspecStep_plain h haslist
    rw [if_neg (Bool.eq_false_iff.1 hstop), if_neg hdot] at hstep
    obtain ⟨huntil, hfrom⟩ := untilStop_getatom s
    rw [untilStop_cons hstop, fromStop_cons hstop, readWhile_of_some hconsuming hstep]
    obtain ⟨aslist', hread, hflatten, hblank⟩ := ih _
      (haslist.append (c :: (getatom isAtomEnd s).1) (h c List.mem_cons_self).1 List.mem_cons_self)
    refine ⟨aslist', hread.trans (by rw [hfrom]), ?_, hblank⟩
    rw [hflatten, huntil, List.flatten_append, List.append_assoc, List.flatten_singleton,
      List.cons_append]

/-- **The address at the front** of a plain text. -/
theorem getaddrspec_plain (h : IsPlain s) : (getaddrspec s).1.text = specText s := by
  obtain ⟨aslist, hread, hflatten, hblank⟩ :=
    readWhile_getaddrspecStep h [] fun _ hmem => absurd hmem List.not_mem_nil
  rw [List.flatten_nil, List.nil_append] at hflatten
  unfold getaddrspec specText
  rw [gotonext_plain h]
  dsimp only
  rw [hread]
  rcases hfrom : fromStop s with _ | ⟨c, e⟩
  · exact hflatten
  · have he : IsPlain e := (h.of_suffix (fromStop_suffix s)).of_suffix (hfrom ▸ List.suffix_cons c e)
    dsimp only
    rw [popBlank_of_noBlank hblank, hflatten, gotonext_plain he]
    by_cases hat : c = '@'
    · rw [if_pos hat, if_pos hat]
      dsimp only
      rw [getdomain_plain he]
      by_cases hspoiled : (fromStop e).head? = some '@'
      · rw [if_pos hspoiled, if_pos rfl, if_pos (Or.inr hspoiled)]
      · rw [if_neg hspoiled]
        by_cases hempty : untilStop e = []
        · rw [if_pos hempty, if_pos (Or.inl hempty)]
        · rw [if_neg hempty, if_neg (not_or.2 ⟨hempty, hspoiled⟩)]
    · rw [if_neg hat, if_neg hat]

/-! ## Phrases in front -/

theorem isPhraseEnd_plain (h : IsPlainChar c) : isPhraseEnd c = isStop c := by
  by_cases hstop : isStop c = true
  · obtain ⟨hend, hdot⟩ := isAtomEnd_of_isStop hstop
    simp [isPhraseEnd, hend, hdot, hstop]
  · have hnot : ¬(isAtomEnd c = true ∧ c ≠ '.') := fun h' => hstop (isStop_of_isAtomEnd h h'.1 h'.2)
    simp only [isPhraseEnd, hstop]
    simpa using hnot

theorem getatom_isPhraseEnd (h : IsPlain s) : getatom isPhraseEnd s = (untilStop s, fromStop s) := by
  induction s with
  | nil => rfl
  | cons c s ih =>
    have hc := isPhraseEnd_plain (h c List.mem_cons_self)
    have hrest := ih h.tail
    rw [getatom, Prod.mk.injEq] at hrest ⊢
    rw [List.takeWhile_cons, List.dropWhile_cons, hc]
    by_cases hstop : isStop c = true
    · rw [untilStop_stop hstop, fromStop_stop hstop, hstop]
      exact ⟨rfl, rfl⟩
    · rw [Bool.not_eq_true] at hstop
      rw [untilStop_cons hstop, fromStop_cons hstop, hstop]
      exact ⟨congrArg (c :: ·) hrest.1, hrest.2⟩

/-- The words in front of a plain text end at its first stop. -/
theorem opening_plain (h : IsPlain s) : (opening s).2 = fromStop s := by
  have hconsuming := getphraselistStep_bounded.consuming
  have hstopped : ∀ e, e <:+ s → (∀ d, e.head? = some d → isStop d = true) → ∀ phrase,
      (readWhile getphraselistStep phrase e).2 = e := by
    intro e he hhead phrase
    rcases e with _ | ⟨d, e⟩
    · rfl
    · have hd := h d (he.subset List.mem_cons_self)
      have hend := (isPhraseEnd_plain hd).trans (hhead d rfl)
      have hstep : getphraselistStep phrase d e = none := by
        rw [getphraselistStep, if_neg (by rw [hd.isFws_eq]; exact Bool.false_ne_true),
          if_neg (hd.ne (by decide)), if_neg (hd.ne (by decide)), if_pos hend]
      rw [readWhile_of_none hconsuming hstep]
  have hphrase : (getphraselist s).2 = fromStop s := by
    unfold getphraselist
    rcases s with _ | ⟨c, s⟩
    · rfl
    by_cases hstop : isStop c = true
    · rw [fromStop_stop hstop]
      refine hstopped _ List.suffix_rfl (fun d hd => ?_) _
      obtain rfl := Option.some.inj hd
      exact hstop
    · have hc := h c List.mem_cons_self
      have hstep : getphraselistStep ⟨[], []⟩ c s =
          some (⟨[c :: untilStop s], []⟩, fromStop s) := by
        rw [getphraselistStep, if_neg (by rw [hc.isFws_eq]; exact Bool.false_ne_true),
          if_neg (hc.ne (by decide)), if_neg (hc.ne (by decide)),
          if_neg (by rw [isPhraseEnd_plain hc]; exact hstop), getatom_isPhraseEnd h.tail]
        rfl
      rw [readWhile_of_some hconsuming hstep, fromStop_cons (by simpa using hstop)]
      refine hstopped _ ((fromStop_suffix s).trans (List.suffix_cons c s)) (fun d hd => ?_) _
      have hnot := List.head?_dropWhile_not (fun c => !isStop c) s
      have hd' : (s.dropWhile fun c => !isStop c).head? = some d := hd
      rw [hd'] at hnot
      simpa using hnot
  show (gotonext (getphraselist (gotonext s).2).2).2 = fromStop s
  rw [gotonext_plain h, hphrase, gotonext_plain (h.of_suffix (fromStop_suffix s))]

/-! ## Groups in front -/

theorem firstAddress_append {l l' : List (Str × Str)} {a : Str} (h : firstAddress l = some a) :
    firstAddress (l ++ l') = some a := by
  rcases l with _ | ⟨pair, l⟩
  · exact nomatch h
  · exact h

/-- The members of a group that is plain. -/
theorem getgroup_plain (h : IsPlain s) (hne : s ≠ []) {n : ℕ} {a : Str}
    (ha : firstAddress (getaddress n s).1 = some a) : firstAddress (getgroup (n + 1) s).1 = some a := by
  have hsemi : (gotonext s).2.head? ≠ some ';' := by
    rw [gotonext_plain h]
    intro hhead
    exact (h ';' (List.mem_of_mem_head? hhead)).ne (by decide) rfl
  rw [getgroup_succ hne hsemi, gotonext_plain h]
  exact firstAddress_append ha

/-- **In front of the first `@`**, an address begins behind the last colon. -/
theorem firstAddress_getaddress (h : IsPlain (v ++ '@' :: e)) (hv : '@' ∉ v) {n : ℕ}
    (hn : 2 * v.length < n) :
    ∃ v', v' <:+ v ∧ (':' ∉ v → v' = v) ∧ (∀ d ∈ v', isStop d = false) ∧
      firstAddress (getaddress n (v ++ '@' :: e)).1 = some (specText (v' ++ '@' :: e)) := by
  induction hlength : v.length using Nat.strong_induction_on generalizing v n with
  | _ m ih =>
    obtain ⟨n, rfl⟩ := Nat.exists_eq_add_one_of_ne_zero
      (Nat.ne_of_gt (Nat.lt_of_le_of_lt (Nat.zero_le _) hn))
    rw [getaddress]
    dsimp only
    unfold readAddress
    dsimp only
    rw [opening_plain h]
    by_cases hcolon : ':' ∈ v
    · obtain ⟨w, v', rfl, hw⟩ := List.eq_append_cons_of_mem hcolon
      rw [List.mem_append, not_or] at hv
      have hv' : '@' ∉ v' := fun hmem => hv.2 (List.mem_cons_of_mem _ hmem)
      rw [List.append_assoc, List.cons_append] at h ⊢
      have hplain : IsPlain (v' ++ '@' :: e) :=
        h.of_suffix ((List.suffix_cons _ _).trans (List.suffix_append w _))
      rw [List.length_append, List.length_cons] at hn hlength
      obtain ⟨n, rfl⟩ : ∃ k, n = k + 1 := Nat.exists_eq_add_one_of_ne_zero (by omega)
      obtain ⟨v'', hsuffix, -, hfree, hfirst⟩ :=
        ih v'.length (by omega) hplain hv' (n := n) (by omega) rfl
      refine ⟨v'', hsuffix.trans ((List.suffix_cons _ _).trans (List.suffix_append w _)),
        fun hno => absurd hcolon hno, hfree, ?_⟩
      rw [fromStop_append (isStop_of_not_mem hv.1 hw), fromStop_stop (by decide)]
      dsimp only
      rw [if_neg (by decide), if_pos rfl]
      exact getgroup_plain hplain (by simp) hfirst
    · refine ⟨v, List.suffix_rfl, fun _ => rfl, isStop_of_not_mem hv hcolon, ?_⟩
      rw [fromStop_append (isStop_of_not_mem hv hcolon), fromStop_stop (by decide)]
      dsimp only
      rw [if_pos (Or.inr rfl), gotonext_plain h]
      exact congrArg some (getaddrspec_plain h)

/-! ## Brackets -/

theorem getrouteaddr_left (h : IsPlain (c :: s)) (hat : c ≠ '@') (hcolon : c ≠ ':')
    {comments : List Str} :
    (readWhile getrouteaddrStep ⟨[], comments, false⟩ (c :: s)).1.adlist = specText (c :: s) := by
  have hclose : c ≠ '>' := (h c List.mem_cons_self).ne (by decide)
  have hstep : getrouteaddrStep ⟨[], comments, false⟩ c s =
      some (⟨(getaddrspec (c :: s)).1.text, comments ++ (getaddrspec (c :: s)).1.comments, true⟩,
        (getaddrspec (c :: s)).2.drop 1) := by
    rw [getrouteaddrStep, if_neg Bool.false_ne_true, if_neg hclose, if_neg hat, if_neg hcolon]
  rw [readWhile_of_some consuming_getrouteaddrStep hstep, readWhile_of_left rfl]
  exact getaddrspec_plain h

theorem readWhile_getrouteaddrStep (h : IsPlain s) (comments : List Str) :
    ∃ e, e <:+ s ∧
      ((readWhile getrouteaddrStep ⟨[], comments, false⟩ s).1.adlist = [] ∨
        (readWhile getrouteaddrStep ⟨[], comments, false⟩ s).1.adlist = specText e) := by
  induction hlength : s.length using Nat.strong_induction_on generalizing s comments with
  | _ n ih =>
    rcases s with _ | ⟨c, s⟩
    · exact ⟨[], List.suffix_rfl, Or.inl rfl⟩
    have hlt : s.length < n := by
      rw [← hlength, List.length_cons]
      exact Nat.lt_succ_self _
    have hclose : c ≠ '>' := (h c List.mem_cons_self).ne (by decide)
    have hdomain : (getdomain s).2 = fromStop s := by
      unfold getdomain
      rw [readWhile_getdomainStep h.tail]
      dsimp only
      split_ifs
      · rfl
      · rfl
    have hfrom : IsPlain (fromStop s) := h.tail.of_suffix (fromStop_suffix s)
    by_cases hat : c = '@'
    · have hstep : getrouteaddrStep ⟨[], comments, false⟩ c s =
          some (⟨[], comments ++ [] ++ (getdomain s).1.comments ++ [], false⟩, fromStop s) := by
        rw [getrouteaddrStep, if_neg Bool.false_ne_true, if_neg hclose, if_pos hat, gotonext_plain h.tail]
        dsimp only
        rw [hdomain, gotonext_plain hfrom]
      obtain ⟨e, he, hread⟩ := ih _ (lt_of_le_of_lt (fromStop_suffix s).length_le hlt) hfrom
        (comments ++ [] ++ (getdomain s).1.comments ++ []) rfl
      rw [readWhile_of_some consuming_getrouteaddrStep hstep]
      exact ⟨e, he.trans ((fromStop_suffix s).trans (List.suffix_cons c s)), hread⟩
    by_cases hcolon : c = ':'
    · have hstep : getrouteaddrStep ⟨[], comments, false⟩ c s =
          some (⟨[], comments ++ [], false⟩, s) := by
        rw [getrouteaddrStep, if_neg Bool.false_ne_true, if_neg hclose, if_neg hat, if_pos hcolon,
          gotonext_plain h.tail]
      obtain ⟨e, he, hread⟩ := ih _ hlt h.tail (comments ++ []) rfl
      rw [readWhile_of_some consuming_getrouteaddrStep hstep]
      exact ⟨e, he.trans (List.suffix_cons c s), hread⟩
    · exact ⟨c :: s, List.suffix_rfl, Or.inr (getrouteaddr_left h hat hcolon)⟩

/-- **In brackets**, the address is that of some end of the text. -/
theorem getrouteaddr_plain (h : IsPlain s) :
    ∃ e, e <:+ s ∧ ((getrouteaddr s).1.adlist = [] ∨ (getrouteaddr s).1.adlist = specText e) := by
  unfold getrouteaddr
  rw [gotonext_plain h]
  exact readWhile_getrouteaddrStep h []

/-- If no route is written in front, it is that of the whole text. -/
theorem getrouteaddr_spec (h : IsPlain (c :: s)) (hstop : isStop c = false) :
    (getrouteaddr (c :: s)).1.adlist = specText (c :: s) := by
  have hat : c ≠ '@' := by
    rintro rfl
    exact nomatch hstop
  have hcolon : c ≠ ':' := by
    rintro rfl
    exact nomatch hstop
  unfold getrouteaddr
  rw [gotonext_plain h]
  exact getrouteaddr_left h hat hcolon

/-! ## A text alone -/

/-- `parseaddr(s, strict=False)[1]`. -/
def parseaddr (s : Str) : Str := (firstAddress (getaddrlist s)).getD []

theorem parseaddr_of_firstAddress {a : Str} (hne : s ≠ [])
    (h : firstAddress (getaddress (nesting s) s).1 = some a) : parseaddr s = a := by
  obtain ⟨c, s, rfl⟩ := List.exists_cons_of_ne_nil hne
  have hfilled : (getaddress (nesting (c :: s)) (c :: s)).1 ≠ [] := by
    intro hnil
    rw [hnil] at h
    exact nomatch h
  have hlist : getaddrlist (c :: s) =
      (if (getaddress (nesting (c :: s)) (c :: s)).1 = [] then [([], [])]
        else (getaddress (nesting (c :: s)) (c :: s)).1) ++
      getaddrlistUpto s.length (getaddress (nesting (c :: s)) (c :: s)).2 := rfl
  rw [parseaddr, hlist, if_neg hfilled, firstAddress_append h]
  rfl

theorem parseaddr_plain (h : IsPlain (v ++ '@' :: e)) (hv : '@' ∉ v) :
    ∃ v', v' <:+ v ∧ (':' ∉ v → v' = v) ∧ (∀ d ∈ v', isStop d = false) ∧
      parseaddr (v ++ '@' :: e) = specText (v' ++ '@' :: e) := by
  have hn : 2 * v.length < nesting (v ++ '@' :: e) := by
    rw [nesting, List.length_append, List.length_cons]
    omega
  obtain ⟨v', hsuffix, hsame, hfree, hfirst⟩ := firstAddress_getaddress h hv hn
  exact ⟨v', hsuffix, hsame, hfree, parseaddr_of_firstAddress (by simp) hfirst⟩

/-- A word ends in front of what ends phrases. -/
theorem getphraselist_word {t : Str} (h : IsPlain (c :: s)) (hfree : ∀ d ∈ c :: s, isStop d = false)
    (ht : ∀ d, t.head? = some d → isPhraseEnd d = true) :
    getphraselist (c :: s ++ t) = readWhile getphraselistStep ⟨[c :: s], []⟩ t := by
  have hc := h c List.mem_cons_self
  have hends : ∀ d ∈ c :: s, isPhraseEnd d = false := fun d hd =>
    (isPhraseEnd_plain (h d hd)).trans (hfree d hd)
  have hatom : getatom isPhraseEnd (s ++ t) = (s, t) := by
    have hs : ∀ d ∈ s, (!isPhraseEnd d) = true := fun d hd => by
      rw [hends d (List.mem_cons_of_mem _ hd)]
      rfl
    rw [getatom, List.takeWhile_append_of_pos hs, List.dropWhile_append_of_pos hs]
    rcases t with _ | ⟨d, t⟩
    · rw [List.takeWhile_nil, List.append_nil, List.dropWhile_nil]
    · rw [List.takeWhile_cons, List.dropWhile_cons, ht d rfl]
      exact Prod.ext (List.append_nil s) rfl
  have hstep : getphraselistStep ⟨[], []⟩ c (s ++ t) = some (⟨[c :: s], []⟩, t) := by
    rw [getphraselistStep, if_neg (by rw [hc.isFws_eq]; exact Bool.false_ne_true),
      if_neg (hc.ne (by decide)), if_neg (hc.ne (by decide)),
      if_neg (by rw [hends c List.mem_cons_self]; exact Bool.false_ne_true), hatom]
    rfl
  exact readWhile_of_some getphraselistStep_bounded.consuming hstep

/-- A word alone is taken for an address. -/
theorem parseaddr_word (h : IsPlain (c :: s)) (hfree : ∀ d ∈ c :: s, isStop d = false) :
    parseaddr (c :: s) = c :: s := by
  have hphrase := getphraselist_word (t := []) h hfree nofun
  rw [List.append_nil, readWhile_nil] at hphrase
  have hopening : opening (c :: s) = (⟨[c :: s], []⟩, []) := by
    unfold opening
    rw [gotonext_plain h]
    dsimp only
    rw [hphrase]
    rfl
  refine parseaddr_of_firstAddress (List.cons_ne_nil _ _) ?_
  rw [nesting, getaddress]
  unfold readAddress
  rw [hopening]
  rfl

/-- An atom in front of a bracket. -/
theorem parseaddr_bracket {r : Str} (h : IsPlain (c :: s)) (hfree : ∀ d ∈ c :: s, isStop d = false) :
    parseaddr (c :: s ++ ' ' :: '<' :: r) = (getrouteaddr r).1.adlist := by
  have hgap : gotonext (c :: s ++ ' ' :: '<' :: r) = (⟨[], []⟩, c :: s ++ ' ' :: '<' :: r) :=
    gotonext_cons (h c List.mem_cons_self)
  have hphrase := getphraselist_word (t := ' ' :: '<' :: r) h hfree fun d hd => by
    obtain rfl := Option.some.inj hd
    decide
  have hbracket : readWhile getphraselistStep ⟨[c :: s], []⟩ (' ' :: '<' :: r) =
      (⟨[c :: s], []⟩, '<' :: r) := by
    have hblank : getphraselistStep ⟨[c :: s], []⟩ ' ' ('<' :: r) = some (⟨[c :: s], []⟩, '<' :: r) := rfl
    have hmark : getphraselistStep ⟨[c :: s], []⟩ '<' r = none := rfl
    rw [readWhile_of_some getphraselistStep_bounded.consuming hblank,
      readWhile_of_none getphraselistStep_bounded.consuming hmark]
  have hopening : (opening (c :: s ++ ' ' :: '<' :: r)).2 = '<' :: r := by
    unfold opening
    rw [hgap]
    dsimp only
    rw [hphrase, hbracket]
    rfl
  refine parseaddr_of_firstAddress (List.cons_ne_nil _ _) ?_
  rw [nesting, getaddress]
  unfold readAddress
  dsimp only
  rw [hopening]
  rfl

end ScamOn.EmailAddresses
