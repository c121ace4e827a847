import ScamOn.Lib.EmailAddresses

/-!
# The address parser in front of an angle bracket

What the methods of the parser read of a text that an angle bracket follows.

* Every method that skips or collects something is `Bounded` in front of the bracket.
* `getaddrspec_foreign`, `getrouteaddr_foreign`: an address that begins before the bracket does not
  depend on what the brackets hold, or holds a bracket itself.
* `opening_bounded`: so it is with the words that an address begins with, and
  `isSpecial_of_opening`: a special character follows them.
-/

namespace ScamOn.EmailAddresses

open Readers

/-- None of the characters that close a comment, a quoted string or a domain literal. -/
def Useless (w : Str) : Prop := ∀ c ∈ w, c ∉ [')', '"', ']', '\r']

theorem useless_nil : Useless [] := fun _ h => absurd h List.not_mem_nil

variable {s w : Str} {c : Char}

/-! ## Delimited texts -/

/-- Where a reader stops in a text, it stops behind one more character, too. -/
theorem exists_suffix_cons {P : Str → Str → Prop} (h : ∃ r q, q <:+ s ∧ P r q) :
    ∃ r q, q <:+ c :: s ∧ P r q := by
  obtain ⟨r, q, hq, hr⟩ := h
  exact ⟨r, q, hq.trans (List.suffix_cons c s), hr⟩

theorem getdelimited_of_free {endchars : Str} {escaped : Bool} (h : ∀ c ∈ w, c ∉ endchars) :
    (getdelimited endchars escaped w).2 = [] := by
  fun_induction getdelimited endchars escaped w with
  | case1 => rfl
  | case2 c w ih => exact ih fun e he => h e (List.mem_cons_of_mem _ he)
  | case3 c w hc => exact absurd hc (h c (List.mem_cons_self ..))
  | case4 w _ ih => exact ih fun e he => h e (List.mem_cons_of_mem _ he)
  | case5 c w _ _ ih => exact ih fun e he => h e (List.mem_cons_of_mem _ he)

/-- A delimited text ends in front of the bracket, or the bracket is in it. -/
theorem getdelimited_bounded {endchars : Str} (hmark : '<' ∉ endchars) (escaped : Bool) (s : Str) :
    (∃ r q, q <:+ s ∧ ∀ w, getdelimited endchars escaped (s ++ '<' :: w) = (r, q ++ '<' :: w)) ∨
      ∀ w, '<' ∈ (getdelimited endchars escaped (s ++ '<' :: w)).1 ∧
        ((∀ c ∈ w, c ∉ endchars) → (getdelimited endchars escaped (s ++ '<' :: w)).2 = []) := by
  fun_induction getdelimited endchars escaped s with
  | case1 escaped =>
    right
    intro w
    cases escaped with
    | true => exact ⟨List.mem_cons_self .., getdelimited_of_free⟩
    | false =>
      rw [List.nil_append, getdelimited, if_neg hmark, if_neg (by decide)]
      exact ⟨List.mem_cons_self .., getdelimited_of_free⟩
  | case2 c s ih =>
    rcases ih with ⟨r, q, hq, hr⟩ | hin
    · refine .inl ⟨c :: r, q, hq.trans (List.suffix_cons c s), fun w => ?_⟩
      rw [List.cons_append, getdelimited, hr]
    · exact .inr fun w => ⟨List.mem_cons_of_mem _ (hin w).1, (hin w).2⟩
  | case3 c s hc =>
    left
    refine ⟨[], s, List.suffix_cons c s, fun w => ?_⟩
    rw [List.cons_append, getdelimited, if_pos hc]
  | case4 s hc ih =>
    have hread : ∀ w, getdelimited endchars false ('\\' :: s ++ '<' :: w) =
        getdelimited endchars true (s ++ '<' :: w) := by
      intro w
      rw [List.cons_append, getdelimited, if_neg hc, if_pos rfl]
    simp only [hread]
    exact ih.imp_left exists_suffix_cons
  | case5 c s hc hslash ih =>
    have hread : ∀ w, getdelimited endchars false (c :: s ++ '<' :: w) =
        (c :: (getdelimited endchars false (s ++ '<' :: w)).1,
          (getdelimited endchars false (s ++ '<' :: w)).2) := by
      intro w
      rw [List.cons_append, getdelimited, if_neg hc, if_neg hslash]
    simp only [hread]
    rcases ih with ⟨r, q, hq, hr⟩ | hin
    · refine .inl ⟨c :: r, q, hq.trans (List.suffix_cons c s), fun w => ?_⟩
      rw [hr]
    · exact .inr fun w => ⟨List.mem_cons_of_mem _ (hin w).1, (hin w).2⟩

theorem getcomment_of_free {depth : ℕ} {escaped : Bool} (h : ∀ c ∈ w, c ≠ ')' ∧ c ≠ '\r') :
    (getcomment depth escaped w).2 = [] := by
  fun_induction getcomment depth escaped w with
  | case1 => rfl
  | case2 depth c w ih => exact ih fun e he => h e (List.mem_cons_of_mem _ he)
  | case3 c w hc => exact absurd hc (not_or.2 (h c (List.mem_cons_self ..)))
  | case4 c w hc => exact absurd hc (not_or.2 (h c (List.mem_cons_self ..)))
  | case5 depth w _ ih => exact ih fun e he => h e (List.mem_cons_of_mem _ he)
  | case6 depth w _ _ ih => exact ih fun e he => h e (List.mem_cons_of_mem _ he)
  | case7 depth c w _ _ _ ih => exact ih fun e he => h e (List.mem_cons_of_mem _ he)

theorem getcomment_cons (depth : ℕ) (c : Char) (s : Str) :
    getcomment depth false (c :: s) =
      if c = ')' ∨ c = '\r' then if depth = 0 then ([], s) else getcomment (depth - 1) false s
      else if c = '(' then getcomment (depth + 1) false s
      else if c = '\\' then getcomment depth true s
      else (c :: (getcomment depth false s).1, (getcomment depth false s).2) := by
  cases depth with
  | zero => rfl
  | succ depth => rfl

/-- A comment ends in front of the bracket, or does not end at all. -/
theorem getcomment_bounded (depth : ℕ) (escaped : Bool) (s : Str) :
    (∃ r q, q <:+ s ∧ ∀ w, getcomment depth escaped (s ++ '<' :: w) = (r, q ++ '<' :: w)) ∨
      ∀ w, (∀ c ∈ w, c ≠ ')' ∧ c ≠ '\r') →
        (getcomment depth escaped (s ++ '<' :: w)).2 = [] := by
  fun_induction getcomment depth escaped s with
  | case1 depth escaped =>
    right
    intro w hw
    cases escaped with
    | true =>
      show (getcomment depth false w).2 = []
      exact getcomment_of_free hw
    | false =>
      rw [List.nil_append, getcomment_cons, if_neg (by decide), if_neg (by decide), if_neg (by decide)]
      exact getcomment_of_free hw
  | case2 depth c s ih =>
    rcases ih with ⟨r, q, hq, hr⟩ | hin
    · refine .inl ⟨c :: r, q, hq.trans (List.suffix_cons c s), fun w => ?_⟩
      rw [List.cons_append, getcomment, hr]
    · exact .inr fun w => hin w
  | case3 c s hc =>
    left
    refine ⟨[], s, List.suffix_cons c s, fun w => ?_⟩
    rw [List.cons_append, getcomment, if_pos hc]
  | case4 c s hc depth ih =>
    have hread : ∀ w, getcomment (depth + 1) false (c :: s ++ '<' :: w) =
        getcomment depth false (s ++ '<' :: w) := by
      intro w
      rw [List.cons_append, getcomment, if_pos hc]
    simp only [hread]
    exact ih.imp_left exists_suffix_cons
  | case5 depth s hc ih =>
    have hread : ∀ w, getcomment depth false ('(' :: s ++ '<' :: w) =
        getcomment (depth + 1) false (s ++ '<' :: w) := by
      intro w
      rw [List.cons_append, getcomment_cons, if_neg hc, if_pos rfl]
    simp only [hread]
    exact ih.imp_left exists_suffix_cons
  | case6 depth s hc hopen ih =>
    have hread : ∀ w, getcomment depth false ('\\' :: s ++ '<' :: w) =
        getcomment depth true (s ++ '<' :: w) := by
      intro w
      rw [List.cons_append, getcomment_cons, if_neg hc, if_neg hopen, if_pos rfl]
    simp only [hread]
    exact ih.imp_left exists_suffix_cons
  | case7 depth c s hc hopen hslash ih =>
    have hread : ∀ w, getcomment depth false (c :: s ++ '<' :: w) =
        (c :: (getcomment depth false (s ++ '<' :: w)).1,
          (getcomment depth false (s ++ '<' :: w)).2) := by
      intro w
      rw [List.cons_append, getcomment_cons, if_neg hc, if_neg hopen, if_neg hslash]
    simp only [hread]
    rcases ih with ⟨r, q, hq, hr⟩ | hin
    · refine .inl ⟨c :: r, q, hq.trans (List.suffix_cons c s), fun w => ?_⟩
      rw [hr]
    · exact .inr hin

theorem comment_bounded (s : Str) :
    Bounded '<' Useless (fun _ _ => True) (getcomment 0 false) s := by
  rcases getcomment_bounded 0 false s with hstop | hall
  · exact .inl hstop
  · refine .inr ⟨[], fun w hw => ⟨_, Prod.ext rfl (hall w fun c hc => ?_), trivial⟩⟩
    have hfree := hw c hc
    constructor
    · rintro rfl
      exact hfree (by decide)
    · rintro rfl
      exact hfree (by decide)

theorem delimited_bounded {endchars : Str} (hmark : '<' ∉ endchars)
    (hends : endchars ⊆ [')', '"', ']', '\r']) (s : Str) :
    Bounded '<' Useless (fun _ r => '<' ∈ r) (getdelimited endchars false) s := by
  rcases getdelimited_bounded hmark false s with hstop | hall
  · exact .inl hstop
  · refine .inr ⟨[], fun w hw => ⟨_, Prod.ext rfl ((hall w).2 fun c hc hmem => ?_), (hall w).1⟩⟩
    exact hw c hc (hends hmem)

theorem quote_bounded (s : Str) : Bounded '<' Useless (fun _ r => '<' ∈ r) getquote s :=
  delimited_bounded (by decide) (by decide) s

theorem domainliteral_bounded (s : Str) :
    Bounded '<' Useless (fun _ r => '<' ∈ r) getdomainliteral s :=
  (delimited_bounded (by decide) (by decide) s).map (fun text => '[' :: text ++ [']'])
    fun k => ⟨k, fun _ hr => List.mem_append_left _ (List.mem_cons_of_mem _ hr)⟩

theorem isAtomEnd_mark : isAtomEnd '<' = true := by decide

theorem isPhraseEnd_mark : isPhraseEnd '<' = true := by decide

theorem atom_bounded {ends : Char → Bool} (hmark : ends '<' = true) (s : Str) :
    Bounded '<' Useless (fun _ _ => False) (getatom ends) s := by
  refine .inl ⟨s.takeWhile fun c => !ends c, s.dropWhile fun c => !ends c,
    List.dropWhile_suffix _, fun w => ?_⟩
  unfold getatom
  induction s with
  | nil => simp [hmark]
  | cons c s ih =>
    rw [Prod.mk.injEq] at ih
    by_cases hc : ends c = true
    · simp [hc]
    · simp [hc, ih.1, ih.2]

/-! ## The loops -/

/-- What a gap is, up to its comments. -/
def SameWs (k gap : Gap) : Prop := gap.ws = k.ws

theorem gotonextStep_bounded : BoundedStep '<' Useless SameWs gotonextStep where
  consuming gap c s gap' s' h := by
    unfold gotonextStep at h
    split_ifs at h
    · cases h
      exact le_rfl
    · cases h
      exact le_rfl
    · cases h
      exact length_getcomment 0 false s
  stops _ _ := rfl
  bounded gap c s := by
    unfold gotonextStep
    by_cases hlws : isLws c = true
    · simp only [if_pos hlws]
      exact .inl ⟨_, s, List.suffix_rfl, fun _ => rfl⟩
    by_cases hcr : isCr c = true
    · simp only [if_neg hlws, if_pos hcr]
      exact .inl ⟨_, s, List.suffix_rfl, fun _ => rfl⟩
    by_cases hopen : c = '('
    · simp only [if_neg hlws, if_neg hcr, if_pos hopen]
      refine Bounded.goesOn ((comment_bounded s).map (fun comment =>
        { gap with comments := gap.comments ++ [comment] }) fun _ => ⟨gap, fun _ _ => ?_⟩)
      exact rfl
    · simp only [if_neg hlws, if_neg hcr, if_neg hopen]
      exact .inr (.inl fun _ => trivial)

theorem gotonext_bounded (s : Str) : Bounded '<' Useless SameWs gotonext s :=
  readWhile_bounded gotonextStep_bounded _ s

/-- The phrase may have one more word, which holds the bracket. -/
def OneMoreWord (k phrase : Phrase) : Prop :=
  phrase.words = k.words ∨ ∃ word, '<' ∈ word ∧ phrase.words = k.words ++ [word]

theorem getphraselistStep_bounded : BoundedStep '<' Useless OneMoreWord getphraselistStep where
  consuming phrase c s phrase' s' h := by
    unfold getphraselistStep at h
    split_ifs at h
    · cases h
      exact le_rfl
    · cases h
      exact length_getdelimited _ false s
    · cases h
      exact length_getcomment 0 false s
    · cases h
      exact length_getatom isPhraseEnd s
  stops _ _ := rfl
  bounded phrase c s := by
    unfold getphraselistStep
    by_cases hfws : isFws c = true
    · simp only [if_pos hfws]
      exact .inl ⟨_, s, List.suffix_rfl, fun _ => rfl⟩
    by_cases hquote : c = '"'
    · simp only [if_neg hfws, if_pos hquote]
      refine Bounded.goesOn ((quote_bounded s).map (fun word =>
        { phrase with words := phrase.words ++ [word] }) fun _ => ⟨phrase, fun word hword => ?_⟩)
      exact .inr ⟨word, hword, rfl⟩
    by_cases hopen : c = '('
    · simp only [if_neg hfws, if_neg hquote, if_pos hopen]
      refine Bounded.goesOn ((comment_bounded s).map (fun comment =>
        { phrase with comments := phrase.comments ++ [comment] }) fun _ => ⟨phrase, fun _ _ => ?_⟩)
      exact .inl rfl
    by_cases hend : isPhraseEnd c = true
    · simp only [if_neg hfws, if_neg hquote, if_neg hopen, if_pos hend]
      exact .inr (.inl fun _ => trivial)
    · simp only [if_neg hfws, if_neg hquote, if_neg hopen, if_neg hend]
      refine Bounded.goesOn ((atom_bounded isPhraseEnd_mark s).map (fun atom =>
        { phrase with words := phrase.words ++ [c :: atom] }) fun _ => ⟨phrase, fun _ h => ?_⟩)
      exact h.elim

theorem getphraselist_bounded (s : Str) : Bounded '<' Useless OneMoreWord getphraselist s :=
  readWhile_bounded getphraselistStep_bounded _ s

/-- The text is the given one, or holds the bracket. -/
def HoldsMark (k part : Part) : Prop := part.text = k.text ∨ '<' ∈ part.text

theorem getdomainStep_bounded : BoundedStep '<' Useless HoldsMark getdomainStep where
  consuming domain c s domain' s' h := by
    unfold getdomainStep at h
    split_ifs at h
    · cases h
      exact le_rfl
    · cases h
      exact length_getcomment 0 false s
    · cases h
      exact length_getdelimited _ false s
    · cases h
      exact le_rfl
    · cases h
      exact length_getatom isAtomEnd s
  stops _ _ := rfl
  bounded domain c s := by
    unfold getdomainStep
    by_cases hlws : isLws c = true
    · simp only [if_pos hlws]
      exact .inl ⟨_, s, List.suffix_rfl, fun _ => rfl⟩
    by_cases hopen : c = '('
    · simp only [if_neg hlws, if_pos hopen]
      refine Bounded.goesOn ((comment_bounded s).map (fun comment =>
        { domain with comments := domain.comments ++ [comment] }) fun _ => ⟨domain, fun _ _ => ?_⟩)
      exact .inl rfl
    by_cases hliteral : c = '['
    · simp only [if_neg hlws, if_neg hopen, if_pos hliteral]
      refine Bounded.goesOn ((domainliteral_bounded s).map (fun literal =>
        { domain with text := domain.text ++ literal }) fun _ => ⟨domain, fun _ hmem => ?_⟩)
      exact .inr (List.mem_append_right _ hmem)
    by_cases hdot : c = '.'
    · simp only [if_neg hlws, if_neg hopen, if_neg hliteral, if_pos hdot]
      exact .inl ⟨_, s, List.suffix_rfl, fun _ => rfl⟩
    by_cases hend : isAtomEnd c = true
    · simp only [if_neg hlws, if_neg hopen, if_neg hliteral, if_neg hdot, if_pos hend]
      exact .inr (.inl fun _ => trivial)
    · simp only [if_neg hlws, if_neg hopen, if_neg hliteral, if_neg hdot, if_neg hend]
      refine Bounded.goesOn ((atom_bounded isAtomEnd_mark s).map (fun atom =>
        { domain with text := domain.text ++ c :: atom }) fun _ => ⟨domain, fun _ h => ?_⟩)
      exact h.elim

theorem getdomain_bounded (s : Str) : Bounded '<' Useless HoldsMark getdomain s := by
  unfold getdomain
  rcases readWhile_bounded getdomainStep_bounded ⟨[], []⟩ s with ⟨r, q, hq, hread⟩ | ⟨k, hread⟩
  · refine .inl ⟨if q.head? = some '@' then { r with text := [] } else r, q, hq, fun w => ?_⟩
    have hhead : (q ++ '<' :: w).head? = some '@' ↔ q.head? = some '@' := by
      rcases q with _ | ⟨c, q⟩
      · simp
      · exact Iff.rfl
    dsimp only
    rw [hread]
    simp only [hhead]
    split_ifs
    · rfl
    · rfl
  · refine .inr ⟨k, fun w hw => ?_⟩
    obtain ⟨r, hr, hspoils⟩ := hread w hw
    refine ⟨r, ?_, hspoils⟩
    dsimp only
    rw [hr]
    rfl

theorem mem_requote {text : Str} (h : '<' ∈ text) : '<' ∈ requote text := by
  unfold requote
  refine List.mem_cons_of_mem _ (List.mem_append_left _ (List.mem_flatMap.2 ⟨'<', h, ?_⟩))
  decide

/-- The pieces are the given ones, or hold the bracket. -/
def PiecesHoldMark (k pieces : Pieces) : Prop :=
  pieces.aslist = k.aslist ∨ '<' ∈ pieces.aslist.flatten

theorem pushPiece_of_sameWs (pieces : Pieces) (piece : Str) {k gap : Gap} (h : SameWs k gap) :
    PiecesHoldMark (pushPiece pieces piece k) (pushPiece pieces piece gap) := by
  unfold SameWs at h
  left
  unfold pushPiece
  rw [h]

theorem mem_pushPiece (pieces : Pieces) {piece : Str} (h : '<' ∈ piece) (gap : Gap) :
    '<' ∈ (pushPiece pieces piece gap).aslist.flatten := by
  unfold pushPiece
  simp [h]

theorem length_gotonext (s : Str) : (gotonext s).2.length ≤ s.length :=
  length_readWhile gotonextStep_bounded.consuming _ s

theorem getaddrspecStep_bounded : BoundedStep '<' Useless PiecesHoldMark getaddrspecStep where
  consuming pieces c s pieces' s' h := by
    unfold getaddrspecStep at h
    split_ifs at h
    · cases h
      exact length_gotonext s
    · cases h
      exact (length_gotonext _).trans (length_getdelimited _ false s)
    · cases h
      exact (length_gotonext _).trans (length_getatom isAtomEnd s)
  stops _ _ := rfl
  bounded pieces c s := by
    unfold getaddrspecStep
    by_cases hdot : c = '.'
    · simp only [if_pos hdot]
      refine Bounded.goesOn ((gotonext_bounded s).map (fun gap =>
        Pieces.mk (popBlank pieces.aslist ++ [['.']]) (pieces.comments ++ gap.comments))
          fun _ => ⟨⟨popBlank pieces.aslist ++ [['.']], []⟩, fun _ _ => ?_⟩)
      exact .inl rfl
    by_cases hquote : c = '"'
    · simp only [if_neg hdot, if_pos hquote]
      refine Bounded.goesOn ((quote_bounded s).andThen (fun q _ => gotonext_bounded q) rfl
        (fun text gap => pushPiece pieces (requote text) gap)
        (fun _ => ⟨pieces, fun text hmem => ?_⟩)
        fun text k => ⟨pushPiece pieces (requote text) k, fun gap hws => ?_⟩)
      · exact .inr (mem_pushPiece pieces (mem_requote hmem) _)
      · exact pushPiece_of_sameWs pieces (requote text) hws
    by_cases hend : isAtomEnd c = true
    · simp only [if_neg hdot, if_neg hquote, if_pos hend]
      exact .inr (.inl fun _ => trivial)
    · simp only [if_neg hdot, if_neg hquote, if_neg hend]
      refine Bounded.goesOn ((atom_bounded isAtomEnd_mark s).andThen (fun q _ => gotonext_bounded q)
        rfl (fun atom gap => pushPiece pieces (c :: atom) gap) (fun _ => ⟨pieces, fun _ h => ?_⟩)
        fun atom k => ⟨pushPiece pieces (c :: atom) k, fun gap hws => ?_⟩)
      · exact h.elim
      · exact pushPiece_of_sameWs pieces (c :: atom) hws

/-! ## What is read across the bracket -/

/-- The text is the same whatever the brackets hold, or holds a bracket. -/
def Foreign (f : Str → Str) : Prop := ∃ k, ∀ w, Useless w → f w = k ∨ '<' ∈ f w

/-- How `getaddrspec` begins. -/
theorem getaddrspec_foreign (s : Str) : Foreign fun w => (getaddrspec (s ++ '<' :: w)).1.text := by
  unfold getaddrspec
  rcases gotonext_bounded s with ⟨gap, q, -, hgap⟩ | ⟨k, hgap⟩
  swap
  · refine ⟨[], fun w hw => .inl ?_⟩
    obtain ⟨gap, hgap, -⟩ := hgap w hw
    dsimp only
    rw [hgap]
    rfl
  simp only [hgap]
  rcases readWhile_bounded getaddrspecStep_bounded ⟨[], gap.comments⟩ q with
    ⟨pieces, q, -, hpieces⟩ | ⟨k, hpieces⟩
  swap
  · refine ⟨k.aslist.flatten, fun w hw => ?_⟩
    obtain ⟨pieces, hpieces, hmark⟩ := hpieces w hw
    dsimp only
    rw [hpieces]
    exact hmark.imp_left (congrArg List.flatten)
  simp only [hpieces]
  rcases q with _ | ⟨c, q⟩
  · exact ⟨(popBlank pieces.aslist).flatten, fun w _ => .inl rfl⟩
  simp only [List.cons_append]
  by_cases hat : c = '@'
  swap
  · simp only [if_neg hat]
    exact ⟨(popBlank pieces.aslist).flatten, fun w _ => .inl rfl⟩
  simp only [if_pos hat]
  rcases gotonext_bounded q with ⟨gap, q, -, hgap⟩ | ⟨k, hgap⟩
  swap
  · refine ⟨[], fun w hw => .inl ?_⟩
    obtain ⟨gap, hgap, -⟩ := hgap w hw
    dsimp only
    rw [hgap]
    rfl
  simp only [hgap]
  -- what is read for a domain may hold the bracket
  have hdomain : ∃ k : Part, ∀ w, Useless w → HoldsMark k (getdomain (q ++ '<' :: w)).1 := by
    rcases getdomain_bounded q with ⟨domain, q, -, hdomain⟩ | ⟨k, hdomain⟩
    · refine ⟨domain, fun w _ => .inl ?_⟩
      rw [hdomain]
    · refine ⟨k, fun w hw => ?_⟩
      obtain ⟨domain, hdomain, hmark⟩ := hdomain w hw
      rwa [hdomain]
  obtain ⟨k, hk⟩ := hdomain
  refine ⟨if k.text = [] then [] else (popBlank pieces.aslist).flatten ++ '@' :: k.text,
    fun w hw => ?_⟩
  dsimp only
  rcases hk w hw with heq | hmem
  · rw [heq]
    exact .inl rfl
  · right
    rw [if_neg (List.ne_nil_of_mem hmem)]
    exact List.mem_append_right _ (List.mem_cons_of_mem _ hmem)

theorem length_getdomain (s : Str) : (getdomain s).2.length ≤ s.length := by
  have hle := length_readWhile getdomainStep_bounded.consuming ⟨[], []⟩ s
  unfold getdomain
  dsimp only
  split_ifs
  · exact hle
  · exact hle

theorem length_getaddrspec (s : Str) : (getaddrspec s).2.length ≤ s.length := by
  have hle := (length_readWhile getaddrspecStep_bounded.consuming
    ⟨[], (gotonext s).1.comments⟩ (gotonext s).2).trans (length_gotonext s)
  unfold getaddrspec
  dsimp only
  split
  · exact Nat.zero_le _
  · rename_i c rest hrest
    rw [hrest, List.length_cons] at hle
    by_cases hat : c = '@'
    · rw [if_pos hat]
      exact (length_getdomain _).trans ((length_gotonext _).trans ((Nat.le_succ _).trans hle))
    · rw [if_neg hat]
      exact hle

theorem consuming_getrouteaddrStep : Consuming getrouteaddrStep := by
  intro route c s route' s' h
  unfold getrouteaddrStep at h
  split_ifs at h
  · cases h
    exact le_rfl
  · cases h
    exact (length_gotonext _).trans ((length_getdomain _).trans (length_gotonext s))
  · cases h
    exact length_gotonext s
  · cases h
    have hle := length_getaddrspec (c :: s)
    rw [List.length_cons] at hle
    rw [List.length_drop]
    exact Nat.sub_le_of_le_add hle

theorem readWhile_of_left {route : Route} (h : route.left = true) (s : Str) :
    readWhile getrouteaddrStep route s = (route, s) := by
  rcases s with _ | ⟨c, s⟩
  · rfl
  · exact readWhile_of_none consuming_getrouteaddrStep (if_pos h)

/-- What `getrouteaddr` skips behind an `@`. -/
def skipDomain (comments : List Str) (s : Str) : List Str × Str :=
  let gap := gotonext s
  let domain := getdomain gap.2
  let next := gotonext domain.2
  (comments ++ gap.1.comments ++ domain.1.comments ++ next.1.comments, next.2)

theorem skipDomain_bounded (comments : List Str) (s : Str) :
    Bounded '<' Useless (fun _ _ => True) (skipDomain comments) s := by
  have hdomain : ∀ q, Bounded '<' Useless (fun _ _ => True) (fun t =>
      ((getdomain t).1.comments ++ (gotonext (getdomain t).2).1.comments,
        (gotonext (getdomain t).2).2)) q := fun q =>
    (getdomain_bounded q).andThen (fun q' _ => gotonext_bounded q') rfl
      (fun domain gap => domain.comments ++ gap.comments) (fun _ => ⟨[], fun _ _ => trivial⟩)
      fun _ _ => ⟨[], fun _ _ => trivial⟩
  have hboth : Bounded '<' Useless (fun _ _ => True) (fun t =>
      (comments ++ (gotonext t).1.comments ++ ((getdomain (gotonext t).2).1.comments ++
        (gotonext (getdomain (gotonext t).2).2).1.comments),
        (gotonext (getdomain (gotonext t).2).2).2)) s :=
    (gotonext_bounded s).andThen (fun q _ => hdomain q) rfl
      (fun gap rest => comments ++ gap.comments ++ rest) (fun _ => ⟨[], fun _ _ => trivial⟩)
      fun _ _ => ⟨[], fun _ _ => trivial⟩
  have hskip : skipDomain comments = fun t =>
      (comments ++ (gotonext t).1.comments ++ ((getdomain (gotonext t).2).1.comments ++
        (gotonext (getdomain (gotonext t).2).2).1.comments),
        (gotonext (getdomain (gotonext t).2).2).2) := by
    funext t
    simp only [skipDomain, List.append_assoc]
  rw [hskip]
  exact hboth

/-- Inside of an earlier bracket. -/
theorem route_foreign (comments : List Str) (s : Str) :
    Foreign fun w => (readWhile getrouteaddrStep ⟨[], comments, false⟩ (s ++ '<' :: w)).1.adlist := by
  induction hlength : s.length using Nat.strong_induction_on generalizing comments s with
  | _ n ih =>
    -- the loop goes on, or all is read and nothing comes of it
    have hgoesOn : ∀ {c : Char} {s : Str}, s.length < n → ∀ {f : Str → List Str × Str},
        Bounded '<' Useless (fun _ _ => True) f s →
        (∀ t, getrouteaddrStep ⟨[], comments, false⟩ c t = some (⟨[], (f t).1, false⟩, (f t).2)) →
        Foreign fun w => (readWhile getrouteaddrStep ⟨[], comments, false⟩
          (c :: s ++ '<' :: w)).1.adlist := by
      intro c s hlt f hf hstep
      have hread : ∀ t, readWhile getrouteaddrStep ⟨[], comments, false⟩ (c :: t) =
          readWhile getrouteaddrStep ⟨[], (f t).1, false⟩ (f t).2 := fun t =>
        readWhile_of_some consuming_getrouteaddrStep (hstep t)
      simp only [List.cons_append, hread]
      rcases hf with ⟨r, q, hq, hr⟩ | ⟨_, hr⟩
      · simp only [hr]
        exact ih _ (lt_of_le_of_lt hq.length_le hlt) r q rfl
      · refine ⟨[], fun w hw => .inl ?_⟩
        obtain ⟨r, hr, -⟩ := hr w hw
        dsimp only
        rw [hr]
        rfl
    -- an address is read, and the loop is left
    have hleaves : ∀ {t : Str → Str}, (∀ w, ∃ c u, t w = c :: u ∧ c ≠ '>' ∧ c ≠ '@' ∧ c ≠ ':') →
        ∀ w, (readWhile getrouteaddrStep ⟨[], comments, false⟩ (t w)).1.adlist =
          (getaddrspec (t w)).1.text := by
      intro t ht w
      obtain ⟨c, u, heq, hclose, hat, hcolon⟩ := ht w
      rw [heq]
      have hstep : getrouteaddrStep ⟨[], comments, false⟩ c u =
          some (⟨(getaddrspec (c :: u)).1.text, comments ++ (getaddrspec (c :: u)).1.comments, true⟩,
            (getaddrspec (c :: u)).2.drop 1) := by
        unfold getrouteaddrStep
        rw [if_neg Bool.false_ne_true, if_neg hclose, if_neg hat, if_neg hcolon]
      rw [readWhile_of_some consuming_getrouteaddrStep hstep, readWhile_of_left rfl]
    rcases s with _ | ⟨c, s⟩
    · have hread := hleaves (t := fun w => [] ++ '<' :: w) fun w =>
        ⟨'<', w, rfl, by decide, by decide, by decide⟩
      simp only [hread]
      exact getaddrspec_foreign []
    have hlt : s.length < n := by
      rw [← hlength, List.length_cons]
      exact Nat.lt_succ_self _
    by_cases hclose : c = '>'
    · refine ⟨[], fun w _ => .inl ?_⟩
      have hstep : getrouteaddrStep ⟨[], comments, false⟩ c (s ++ '<' :: w) =
          some (⟨[], comments, true⟩, s ++ '<' :: w) := by
        unfold getrouteaddrStep
        rw [if_neg Bool.false_ne_true, if_pos hclose]
      dsimp only
      rw [List.cons_append, readWhile_of_some consuming_getrouteaddrStep hstep,
        readWhile_of_left rfl]
    by_cases hat : c = '@'
    · refine hgoesOn hlt (skipDomain_bounded comments s) fun t => ?_
      unfold getrouteaddrStep skipDomain
      rw [if_neg Bool.false_ne_true, if_neg hclose, if_pos hat]
    by_cases hcolon : c = ':'
    · refine hgoesOn hlt ((gotonext_bounded s).map (fun gap => comments ++ gap.comments)
        fun _ => ⟨[], fun _ _ => trivial⟩) fun t => ?_
      unfold getrouteaddrStep
      rw [if_neg Bool.false_ne_true, if_neg hclose, if_neg hat, if_pos hcolon]
    · have hread := hleaves (t := fun w => c :: s ++ '<' :: w) fun w =>
        ⟨c, s ++ '<' :: w, rfl, hclose, hat, hcolon⟩
      simp only [hread]
      exact getaddrspec_foreign (c :: s)

theorem getrouteaddr_foreign (s : Str) : Foreign fun w => (getrouteaddr (s ++ '<' :: w)).1.adlist := by
  unfold getrouteaddr
  rcases gotonext_bounded s with ⟨gap, q, -, hgap⟩ | ⟨_, hgap⟩
  · simp only [hgap]
    exact route_foreign gap.comments q
  · refine ⟨[], fun w hw => .inl ?_⟩
    obtain ⟨gap, hgap, -⟩ := hgap w hw
    dsimp only
    rw [hgap]
    rfl

/-! ## How an address begins -/

theorem opening_bounded (s : Str) : Bounded '<' Useless OneMoreWord opening s := by
  have hphrase : ∀ q, Bounded '<' Useless OneMoreWord (fun t =>
      (Phrase.mk (getphraselist t).1.words
        ((getphraselist t).1.comments ++ (gotonext (getphraselist t).2).1.comments),
        (gotonext (getphraselist t).2).2)) q := fun q =>
    (getphraselist_bounded q).andThen (fun q' _ => gotonext_bounded q') rfl
      (fun phrase gap => Phrase.mk phrase.words (phrase.comments ++ gap.comments))
      (fun k => ⟨k, fun _ h => h⟩) fun phrase _ => ⟨phrase, fun _ _ => .inl rfl⟩
  have hboth : Bounded '<' Useless OneMoreWord (fun t =>
      (Phrase.mk (getphraselist (gotonext t).2).1.words ((gotonext t).1.comments ++
        ((getphraselist (gotonext t).2).1.comments ++
          (gotonext (getphraselist (gotonext t).2).2).1.comments)),
        (gotonext (getphraselist (gotonext t).2).2).2)) s :=
    (gotonext_bounded s).andThen (fun q _ => hphrase q) rfl
      (fun gap phrase => Phrase.mk phrase.words (gap.comments ++ phrase.comments))
      (fun _ => ⟨⟨[], []⟩, fun _ _ => .inl rfl⟩) fun _ k => ⟨k, fun _ h => h⟩
  have hopening : opening = fun t =>
      (Phrase.mk (getphraselist (gotonext t).2).1.words ((gotonext t).1.comments ++
        ((getphraselist (gotonext t).2).1.comments ++
          (gotonext (getphraselist (gotonext t).2).2).1.comments)),
        (gotonext (getphraselist (gotonext t).2).2).2) := by
    funext t
    simp only [opening, List.append_assoc]
  rw [hopening]
  exact hboth

/-- Behind the words of a phrase stands a special character. -/
theorem isSpecial_of_opening {rest : Str} (h : (opening s).2 = c :: rest) :
    isSpecial c = true := by
  unfold opening at h
  dsimp only at h
  rcases hphrase : getphraselist (gotonext s).2 with ⟨phrase, _ | ⟨d, tail⟩⟩
  · rw [hphrase] at h
    cases h
  have hstep := step_of_readWhile getphraselistStep_bounded.consuming hphrase
  have hd : isFws d = false ∧ d ≠ '(' ∧ isPhraseEnd d = true := by
    unfold getphraselistStep at hstep
    split_ifs at hstep with hfws hquote hopen hend
    exact ⟨by simpa using hfws, hopen, hend⟩
  obtain ⟨hfws, hopen, hend⟩ := hd
  -- there is no gap here
  have hgap : gotonext (d :: tail) = (⟨[], []⟩, d :: tail) := by
    have hlws : ¬isLws d = true := fun hlws => by simp [isFws, hlws] at hfws
    have hcr : ¬isCr d = true := fun hcr => by simp [isFws, hcr] at hfws
    refine readWhile_of_none gotonextStep_bounded.consuming ?_
    unfold gotonextStep
    rw [if_neg hlws, if_neg hcr, if_neg hopen]
  rw [hphrase, hgap] at h
  obtain rfl : d = c := (List.cons.inj h).1
  have hspecial : isSpecial d = true ∧ ¬d = '.' := by simpa [isPhraseEnd, isAtomEnd, hfws] using hend
  exact hspecial.1

end ScamOn.EmailAddresses
