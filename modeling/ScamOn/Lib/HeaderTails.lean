import ScamOn.Lib.EncodedWords
import ScamOn.Lib.Loop

/-!
# How a header ends

What `decode_header` makes of a header that ends in an angle bracket and a text without encoded
words.

* `Regular`: a text of encoded words and of characters that begin none.
* `headerWords_append`: the bracket and what follows it stay together, at the end of the last word.
* `decodeHeader_append`: so they do in what is decoded, and nothing else depends on them.
-/

namespace ScamOn.EncodedWords

open Chars

variable {c : Char} {s t w : Str} {word : EncodedWord}

/-- ASCII characters that end no line, with no beginning of an encoded word. -/
structure Quiet (w : Str) : Prop where
  ascii : allAscii w = true
  line : ∀ c ∈ w, isLineBreak c = false
  free : ¬['=', '?'] <:+: w

/-- The text is made of encoded words, and of characters that begin none. -/
inductive Regular : Str → Prop
  | nil : Regular []
  | char {c : Char} {s : Str} : isAscii c = true → (c = '=' → s.head? ≠ some '?') → Regular s →
      Regular (c :: s)
  | word {word : EncodedWord} {s : Str} : word.WellFormed → allAscii word.text = true →
      (∀ c ∈ word.text, isLineBreak c = false) → Regular s → Regular (word.text ++ s)

/-! ## Cutting -/

/-- A line that ends in a text: the text alone, or behind parts that end in an encoded word. -/
def closed (front : Option ((Str × List (EncodedWord × Str)) × EncodedWord)) (tail : Str) :
    Str × List (EncodedWord × Str) :=
  match front with
  | none => (tail, [])
  | some ((first, parts), word) => (first, parts ++ [(word, tail)])

theorem take_two_ne {c : Char} {s : Str} (h : c = '=' → s.head? ≠ some '?') :
    (c :: s).take 2 ≠ ['=', '?'] := by
  rcases s with _ | ⟨d, s⟩
  · simp
  · intro htake
    obtain ⟨hc, hd⟩ : c = '=' ∧ d = '?' := by simpa using htake
    exact h hc (congrArg some hd)

theorem head?_append_bracket (h : s.head? ≠ some '?') (w : Str) : (s ++ '<' :: w).head? ≠ some '?' := by
  rcases s with _ | ⟨c, s⟩
  · simp
  · exact h

theorem quiet_bracket (h : Quiet w) : ¬['=', '?'] <:+: '<' :: w := by
  rw [List.infix_cons_iff, not_or]
  refine ⟨fun hprefix => ?_, h.free⟩
  obtain ⟨u, hu⟩ := hprefix
  cases hu

/-- A character in front of a line. -/
def pushChar (c : Char) (line : Str × List (EncodedWord × Str)) : Str × List (EncodedWord × Str) :=
  (c :: line.1, line.2)

/-- An encoded word in front of a line. -/
def pushWord (word : EncodedWord) (line : Str × List (EncodedWord × Str)) :
    Str × List (EncodedWord × Str) :=
  ([], (word, line.1) :: line.2)

theorem closed_char (c : Char) (front : Option ((Str × List (EncodedWord × Str)) × EncodedWord))
    (tail : Str) : ∃ front' tail', ∀ rest,
      pushChar c (closed front (tail ++ rest)) = closed front' (tail' ++ rest) := by
  rcases front with _ | ⟨⟨first, parts⟩, word⟩
  · exact ⟨none, c :: tail, fun _ => rfl⟩
  · exact ⟨some ((c :: first, parts), word), tail, fun _ => rfl⟩

theorem closed_word (word : EncodedWord)
    (front : Option ((Str × List (EncodedWord × Str)) × EncodedWord)) (tail : Str) :
    ∃ front' tail', ∀ rest,
      pushWord word (closed front (tail ++ rest)) = closed front' (tail' ++ rest) := by
  rcases front with _ | ⟨⟨first, parts⟩, last⟩
  · exact ⟨some (([], []), word), tail, fun _ => rfl⟩
  · exact ⟨some (([], (word, first) :: parts), last), tail, fun _ => rfl⟩

/-- The whole header, cut at once. -/
theorem ecreSplit_append (h : Regular s) :
    ∃ front tail, ∀ w, Quiet w → ecreSplit 0 (s ++ '<' :: w) = closed front (tail ++ '<' :: w) := by
  induction h with
  | nil => exact ⟨none, [], fun w hw => ecreSplit_of_free (quiet_bracket hw)⟩
  | @char c s _ hc _ ih =>
    obtain ⟨front, tail, hcut⟩ := ih
    obtain ⟨front', tail', hpush⟩ := closed_char c front tail
    refine ⟨front', tail', fun w hw => ?_⟩
    rw [← hpush, ← hcut w hw]
    exact ecreSplit_cons (take_two_ne fun heq => head?_append_bracket (hc heq) w)
  | @word word s hword _ _ _ ih =>
    obtain ⟨front, tail, hcut⟩ := ih
    obtain ⟨front', tail', hpush⟩ := closed_word word front tail
    refine ⟨front', tail', fun w hw => ?_⟩
    rw [← hpush, ← hcut w hw, List.append_assoc]
    exact ecreSplit_text hword _

/-! ## Lines -/

theorem splitlines_ne_nil (h : s ≠ []) : splitlines s ≠ [] := by
  fun_induction splitlines s with
  | case1 => exact absurd rfl h
  | case2 c s hc ih =>
    refine ih ?_
    rintro rfl
    cases hc.2
  | case3 => exact List.cons_ne_nil _ _
  | case4 => exact List.cons_ne_nil _ _
  | case5 => exact List.cons_ne_nil _ _

theorem splitlines_cons (h : isLineBreak c = false) {line : Str} {lines : List Str}
    (hs : splitlines s = line :: lines) : splitlines (c :: s) = (c :: line) :: lines := by
  have hreturn : ¬(c = '\r' ∧ s.head? = some '\n') := by
    rintro ⟨rfl, -⟩
    exact absurd h (by decide)
  rw [splitlines, if_neg hreturn, if_neg (Bool.eq_false_iff.1 h), hs]

theorem splitlines_append (h : ∀ c ∈ t, isLineBreak c = false) {line : Str} {lines : List Str}
    (hs : splitlines s = line :: lines) : splitlines (t ++ s) = (t ++ line) :: lines := by
  induction t with
  | nil => exact hs
  | cons c t ih =>
    exact splitlines_cons (h c (List.mem_cons_self ..))
      (ih fun d hd => h d (List.mem_cons_of_mem _ hd))

/-- A line ends where it begins, or begins as the text does. -/
theorem head?_splitlines {line : Str} {lines : List Str} (h : splitlines s = line :: lines) :
    line = [] ∨ line.head? = s.head? := by
  rcases s with _ | ⟨c, s⟩
  · cases h
  by_cases hreturn : c = '\r' ∧ s.head? = some '\n'
  · obtain ⟨rest, rfl⟩ := List.head?_eq_some_iff.1 hreturn.2
    have hline : splitlines (c :: '\n' :: rest) = [] :: splitlines rest := by
      rw [splitlines, if_pos hreturn]
      rfl
    rw [hline] at h
    exact .inl (List.cons.inj h).1.symm
  by_cases hbreak : isLineBreak c = true
  · rw [splitlines, if_neg hreturn, if_pos hbreak] at h
    exact .inl (List.cons.inj h).1.symm
  · right
    rw [splitlines, if_neg hreturn, if_neg hbreak] at h
    rcases hs : splitlines s with _ | ⟨first, rest⟩
    · rw [hs] at h
      rw [← (List.cons.inj h).1]
      rfl
    · rw [hs] at h
      rw [← (List.cons.inj h).1]
      rfl

theorem splitlines_of_line (h : ∀ c ∈ s, isLineBreak c = false) (hne : s ≠ []) :
    splitlines s = [s] := by
  induction s with
  | nil => exact absurd rfl hne
  | cons c s ih =>
    have hc := h c (List.mem_cons_self ..)
    rcases s with _ | ⟨d, s⟩
    · have hreturn : ¬(c = '\r' ∧ ([] : Str).head? = some '\n') := fun hboth => by cases hboth.2
      rw [splitlines, if_neg hreturn, if_neg (Bool.eq_false_iff.1 hc)]
      rfl
    · exact splitlines_cons hc (ih (fun e he => h e (List.mem_cons_of_mem _ he)) (List.cons_ne_nil _ _))

theorem head?_append_newline (s w : Str) :
    (s ++ '<' :: w).head? = some '\n' ↔ s.head? = some '\n' := by
  rcases s with _ | ⟨c, s⟩
  · simp
  · exact Iff.rfl

/-- A change to the first line leaves the end of the last as it is. -/
theorem exists_pushed {push : Str × List (EncodedWord × Str) → Str × List (EncodedWord × Str)}
    {front : Option ((Str × List (EncodedWord × Str)) × EncodedWord)} {tail : Str}
    (hclosed : ∃ front' tail', ∀ rest,
      push (closed front (tail ++ rest)) = closed front' (tail' ++ rest))
    (lines : List (Str × List (EncodedWord × Str))) :
    ∃ lines' front' tail', ∀ rest first others,
      first :: others = lines ++ [closed front (tail ++ rest)] →
      push first :: others = lines' ++ [closed front' (tail' ++ rest)] := by
  rcases lines with _ | ⟨line, lines⟩
  · obtain ⟨front', tail', hpush⟩ := hclosed
    refine ⟨[], front', tail', fun rest first others h => ?_⟩
    obtain ⟨rfl, rfl⟩ := List.cons.inj h
    rw [hpush]
    rfl
  · refine ⟨push line :: lines, front, tail, fun rest first others h => ?_⟩
    obtain ⟨rfl, rfl⟩ := List.cons.inj h
    rfl

/-- The lines of the header, cut one by one. -/
theorem cutLines_append (h : Regular s) :
    ∃ lines front tail, ∀ w, Quiet w →
      (splitlines (s ++ '<' :: w)).map (ecreSplit 0) = lines ++ [closed front (tail ++ '<' :: w)] := by
  have hsplit : ∀ s w, ∃ line lines, splitlines (s ++ '<' :: w) = line :: lines := fun s w =>
    List.exists_cons_of_ne_nil (splitlines_ne_nil (by simp))
  induction h with
  | nil =>
    refine ⟨[], none, [], fun w hw => ?_⟩
    have hline : splitlines ('<' :: w) = ['<' :: w] :=
      splitlines_of_line (List.forall_mem_cons.2 ⟨by decide, hw.line⟩) (List.cons_ne_nil _ _)
    rw [List.nil_append, hline]
    exact congrArg (fun line => [line]) (ecreSplit_of_free (quiet_bracket hw))
  | @char c s _ hc _ ih =>
    obtain ⟨lines, front, tail, hcut⟩ := ih
    by_cases hreturn : c = '\r' ∧ s.head? = some '\n'
    · -- the next character ends the line
      refine ⟨lines, front, tail, fun w hw => ?_⟩
      rw [List.cons_append, splitlines, if_pos (by rwa [head?_append_newline]), hcut w hw]
    by_cases hbreak : isLineBreak c = true
    · refine ⟨([], []) :: lines, front, tail, fun w hw => ?_⟩
      rw [List.cons_append, splitlines, if_neg (by rwa [head?_append_newline]), if_pos hbreak,
        List.map_cons, hcut w hw]
      rfl
    · obtain ⟨lines', front', tail', hpush⟩ := exists_pushed (closed_char c front tail) lines
      refine ⟨lines', front', tail', fun w hw => ?_⟩
      obtain ⟨line, rest, hline⟩ := hsplit s w
      have hhead : c = '=' → line.head? ≠ some '?' := by
        intro heq
        rcases head?_splitlines hline with rfl | hhead
        · simp
        · rw [hhead]
          exact head?_append_bracket (hc heq) w
      have hcut' := hcut w hw
      rw [hline] at hcut'
      rw [List.cons_append, splitlines_cons (Bool.eq_false_iff.2 hbreak) hline, List.map_cons,
        ecreSplit_cons (take_two_ne hhead)]
      exact hpush _ _ _ hcut'
  | @word word s hword _ hbreak _ ih =>
    obtain ⟨lines, front, tail, hcut⟩ := ih
    obtain ⟨lines', front', tail', hpush⟩ := exists_pushed (closed_word word front tail) lines
    refine ⟨lines', front', tail', fun w hw => ?_⟩
    obtain ⟨line, rest, hline⟩ := hsplit s w
    have hcut' := hcut w hw
    rw [hline] at hcut'
    rw [List.append_assoc, splitlines_append hbreak hline, List.map_cons, ecreSplit_text hword]
    exact hpush _ _ _ hcut'

/-! ## Words -/

theorem dropWhile_append_bracket (s w : Str) :
    (s ++ '<' :: w).dropWhile Text.isSpace = s.dropWhile Text.isSpace ++ '<' :: w := by
  induction s with
  | nil => rfl
  | cons c s ih =>
    rw [List.cons_append, List.dropWhile_cons, List.dropWhile_cons]
    split_ifs
    · exact ih
    · rfl

theorem plainWord_append (s w : Str) : plainWord (s ++ '<' :: w) = [.plain (s ++ '<' :: w)] :=
  if_neg (by simp)

/-- **The bracket stays with what follows it**, at the end of the last word. -/
theorem headerWords_append (lower : Str → Str) (h : Regular s) :
    ∃ init tail, ∀ w, Quiet w →
      headerWords lower (s ++ '<' :: w) = init ++ [.plain (tail ++ '<' :: w)] := by
  obtain ⟨lines, front, tail, hcut⟩ := cutLines_append h
  rcases front with _ | ⟨⟨first, parts⟩, word⟩
  · refine ⟨lines.flatMap (lineWords lower), tail.dropWhile Text.isSpace, fun w hw => ?_⟩
    unfold headerWords
    rw [hcut w hw, List.flatMap_append, List.flatMap_singleton]
    unfold closed lineWords
    rw [dropWhile_append_bracket, plainWord_append]
    rfl
  · refine ⟨lines.flatMap (lineWords lower) ++ (plainWord (first.dropWhile Text.isSpace) ++
      (parts.flatMap (partWords lower) ++
        [.coded word.encoded word.encoding.toLower (lower word.charset)])), tail, fun w hw => ?_⟩
    unfold headerWords
    rw [hcut w hw, List.flatMap_append, List.flatMap_singleton]
    unfold closed lineWords
    dsimp only
    rw [List.flatMap_append, List.flatMap_singleton, partWords, plainWord_append]
    simp

/-- A last word that is not encoded stays, and nothing else depends on it. -/
theorem dropBlank_append (afterCoded : Bool) (init : List HeaderWord) :
    ∃ init', init' ⊆ init ∧ ∀ last : HeaderWord, last.isCoded = false →
      dropBlank afterCoded (init ++ [last]) = init' ++ [last] := by
  induction init generalizing afterCoded with
  | nil => exact ⟨[], List.nil_subset _, fun last _ => rfl⟩
  | cons word init ih =>
    obtain ⟨init', hsub, hdrop⟩ := ih word.isCoded
    rcases init with _ | ⟨next, words⟩
    · refine ⟨[word], List.Subset.refl _, fun last hlast => ?_⟩
      rw [List.singleton_append, dropBlank, if_neg (by simp [hlast])]
      rfl
    · by_cases hblank : afterCoded = true ∧ next.isCoded = true ∧ isBlank word.text = true
      · refine ⟨init', fun d hd => List.mem_cons_of_mem _ (hsub hd), fun last hlast => ?_⟩
        rw [List.cons_append, List.cons_append, dropBlank, if_pos hblank]
        exact hdrop last hlast
      · refine ⟨word :: init', List.cons_subset_cons word hsub, fun last hlast => ?_⟩
        rw [List.cons_append, List.cons_append, dropBlank, if_neg hblank]
        exact congrArg (word :: ·) (hdrop last hlast)

/-! ## Decoding -/

/-- A word that was not encoded is an ASCII text. -/
def IsText (word : List UInt8 × Option Str) : Prop :=
  word.2 = none → ∃ text, allAscii text = true ∧ word.1 = rawUnicodeEscape text

theorem rawUnicodeEscape_append (s t : Str) :
    rawUnicodeEscape (s ++ t) = rawUnicodeEscape s ++ rawUnicodeEscape t :=
  List.flatMap_append

theorem allAscii_append : allAscii (s ++ t) = true ↔ allAscii s = true ∧ allAscii t = true := by
  unfold allAscii
  rw [List.all_append, Bool.and_eq_true]

/-- The text at the end, behind what is collapsed with it. -/
theorem collapse_append (last : Option (List UInt8 × Option Str))
    (words : List (List UInt8 × Option Str)) (hlast : ∀ word, last = some word → IsText word)
    (hwords : ∀ word ∈ words, IsText word) :
    ∃ parts front, allAscii front = true ∧ ∀ text,
      collapse last (words ++ [(rawUnicodeEscape text, none)]) =
        parts ++ [(rawUnicodeEscape (front ++ text), none)] := by
  have hspace : ∀ s t, rawUnicodeEscape s ++ 32 :: rawUnicodeEscape t =
      rawUnicodeEscape (s ++ [' '] ++ t) := by
    intro s t
    rw [rawUnicodeEscape_append, rawUnicodeEscape_append, List.append_assoc]
    rfl
  induction words generalizing last with
  | nil =>
    rcases last with _ | ⟨bytes, charset⟩
    · exact ⟨[], [], rfl, fun text => rfl⟩
    rcases charset with _ | charset
    · obtain ⟨front, hfront, rfl⟩ := hlast _ rfl rfl
      refine ⟨[], front ++ [' '], allAscii_append.2 ⟨hfront, rfl⟩, fun text => ?_⟩
      rw [← hspace]
      rfl
    · exact ⟨[(bytes, some charset)], [], rfl, fun text => rfl⟩
  | cons word words ih =>
    have hrest : ∀ word ∈ words, IsText word := fun word hmem =>
      hwords word (List.mem_cons_of_mem _ hmem)
    have hword := hwords word (List.mem_cons_self ..)
    have hgo : ∀ {w : List UInt8 × Option Str}, IsText w → ∀ w', some w = some w' → IsText w' :=
      fun hw w' heq => Option.some.inj heq ▸ hw
    rcases last with _ | ⟨bytes, charset⟩
    · exact ih (some word) (hgo hword) hrest
    by_cases hcharset : word.2 = charset
    swap
    · obtain ⟨parts, front, hfront, hcollapse⟩ := ih (some word) (hgo hword) hrest
      refine ⟨(bytes, charset) :: parts, front, hfront, fun text => ?_⟩
      rw [List.cons_append, collapse, if_pos hcharset, hcollapse]
      rfl
    by_cases hnone : charset = none
    · subst hnone
      obtain ⟨front, hfront, rfl⟩ := hlast _ rfl rfl
      obtain ⟨text, htext, heq⟩ := hword hcharset
      have hboth : IsText (rawUnicodeEscape front ++ 32 :: word.1, none) := fun _ =>
        ⟨front ++ [' '] ++ text, allAscii_append.2 ⟨allAscii_append.2 ⟨hfront, rfl⟩, htext⟩, by
          rw [heq, hspace]⟩
      obtain ⟨parts, front', hfront', hcollapse⟩ := ih _ (hgo hboth) hrest
      refine ⟨parts, front', hfront', fun text => ?_⟩
      rw [List.cons_append, collapse, if_neg (not_not.2 hcharset), if_pos rfl, hcollapse]
    · have hboth : IsText (bytes ++ word.1, charset) := fun h => absurd h hnone
      obtain ⟨parts, front', hfront', hcollapse⟩ := ih _ (hgo hboth) hrest
      refine ⟨parts, front', hfront', fun text => ?_⟩
      rw [List.cons_append, collapse, if_neg (not_not.2 hcharset), if_neg hnone, hcollapse]

theorem mapM_append_singleton {α β : Type*} {f : α → Option β} {a : α} {b : β} (h : f a = some b)
    (as : List α) : (as ++ [a]).mapM f = (as.mapM f).map (· ++ [b]) := by
  rw [List.mapM_append, List.mapM_cons, List.mapM_nil, h]
  cases as.mapM f with
  | none => rfl
  | some bs => rfl

theorem Regular.ascii (h : Regular s) : allAscii s = true := by
  induction h with
  | nil => rfl
  | @char c s hc _ _ ih =>
    unfold allAscii at ih ⊢
    rw [List.all_cons, hc, ih]
    rfl
  | word _ hword _ _ ih => exact allAscii_append.2 ⟨hword, ih⟩

theorem allAscii_of_subset (h : s ⊆ t) (ht : allAscii t = true) : allAscii s = true :=
  List.all_eq_true.2 fun c hc => List.all_eq_true.1 ht c (h hc)

theorem quiet_nil : Quiet [] := ⟨rfl, by simp, by simp⟩

/-- **The bracket and what follows it** come out as they are, at the end of the last part; or the
header is not decoded, whatever follows the bracket. -/
theorem decodeHeader_append (lower : Str → Str) (h : Regular s) :
    (∀ w, Quiet w → decodeHeader lower (s ++ '<' :: w) = some [(.str (s ++ '<' :: w), none)]) ∨
    (∀ w, Quiet w → decodeHeader lower (s ++ '<' :: w) = none) ∨
    ∃ parts front, allAscii front = true ∧ ∀ w, Quiet w → decodeHeader lower (s ++ '<' :: w) =
      some (parts ++ [(.bytes (rawUnicodeEscape (front ++ '<' :: w)), none)]) := by
  obtain ⟨front, tail, hcut⟩ := ecreSplit_append h
  rcases front with _ | ⟨⟨first, parts⟩, word⟩
  · refine .inl fun w hw => ?_
    have hsearch : ecreSearch (s ++ '<' :: w) = false := by
      unfold ecreSearch
      rw [hcut w hw]
      rfl
    exact if_pos hsearch
  right
  have hsearch : ∀ w, Quiet w → decodeHeader lower (s ++ '<' :: w) =
      ((dropBlank false (headerWords lower (s ++ '<' :: w))).mapM decodeWord).map fun words =>
        (collapse none words).map fun part => (.bytes part.1, part.2) := by
    intro w hw
    have hsearch : ecreSearch (s ++ '<' :: w) = true := by
      unfold ecreSearch
      rw [hcut w hw]
      simp [closed]
    exact if_neg (by simp [hsearch])
  obtain ⟨init, tail, hwords⟩ := headerWords_append lower h
  obtain ⟨init', hsub, hdrop⟩ := dropBlank_append false init
  -- unencoded words are ASCII
  have hascii : ∀ text, HeaderWord.plain text ∈ init ++ [.plain (tail ++ ['<'])] →
      allAscii text = true := by
    intro text hmem
    rw [← hwords [] quiet_nil] at hmem
    exact allAscii_of_subset (plain_subset hmem) (allAscii_append.2 ⟨h.ascii, rfl⟩)
  have hdecode : ∀ w, Quiet w →
      (dropBlank false (headerWords lower (s ++ '<' :: w))).mapM decodeWord =
        (init'.mapM decodeWord).map (· ++ [(rawUnicodeEscape (tail ++ '<' :: w), none)]) := by
    intro w hw
    have hlast : decodeWord (.plain (tail ++ '<' :: w)) =
        some (rawUnicodeEscape (tail ++ '<' :: w), none) := rfl
    rw [hwords w hw, hdrop _ rfl]
    exact mapM_append_singleton hlast init'
  rcases hmap : init'.mapM decodeWord with _ | words
  · refine .inl fun w hw => ?_
    rw [hsearch w hw, hdecode w hw, hmap]
    rfl
  · have htexts : ∀ word ∈ words, IsText word := by
      intro word hmem hnone
      have hsome : some word ∈ init'.map decodeWord := by
        rw [Loop.mapM_eq_some_iff.1 hmap]
        exact List.mem_map_of_mem hmem
      obtain ⟨source, hsource, heq⟩ := List.mem_map.1 hsome
      cases source with
      | plain text =>
        cases heq
        exact ⟨text, hascii text (List.mem_append_left _ (hsub hsource)), rfl⟩
      | coded text encoding charset =>
        by_cases hq : encoding = 'q'
        · rw [decodeWord, if_pos hq] at heq
          cases heq
          cases hnone
        · rw [decodeWord, if_neg hq] at heq
          obtain ⟨bytes, -, rfl⟩ := Option.map_eq_some_iff.1 heq
          cases hnone
    obtain ⟨parts, front, hfront, hcollapse⟩ := collapse_append none words (by simp) htexts
    have htail : allAscii tail = true :=
      (allAscii_append.1 (hascii (tail ++ ['<']) (by simp))).1
    refine .inr ⟨parts.map fun part => (.bytes part.1, part.2), front ++ tail,
      allAscii_append.2 ⟨hfront, htail⟩, fun w hw => ?_⟩
    rw [hsearch w hw, hdecode w hw, hmap, Option.map_some, Option.map_some, hcollapse,
      List.map_append, List.append_assoc]
    rfl

end ScamOn.EncodedWords
