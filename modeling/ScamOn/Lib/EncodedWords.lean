import ScamOn.Lib.Percent
import ScamOn.Lib.Text

/-!
# Encoded words in headers

`email.header.decode_header`, for a header that is a text.

* `ecreSplit` cuts a line at its encoded words, as `ecre.split` does.
* `headerWords` are the words of a header, `dropBlank` drops those of white space between two
  encoded ones, `decodeWord` decodes one and `collapse` puts runs of one charset together.
* `decodeHeader` answers `none` where Python raises `HeaderParseError`.
-/

namespace ScamOn.EncodedWords

open Chars

/-! ## Lines and words -/

/-- A character that ends a line. -/
def isLineBreak (c : Char) : Bool :=
  [0xa, 0xb, 0xc, 0xd, 0x1c, 0x1d, 0x1e, 0x85, 0x2028, 0x2029].contains c.toNat

/-- `s.splitlines()`. -/
def splitlines : Str → List Str
  | [] => []
  | c :: s =>
    if c = '\r' ∧ s.head? = some '\n' then splitlines s
    else if isLineBreak c then [] :: splitlines s
    else
      match splitlines s with
      | [] => [[c]]
      | line :: lines => (c :: line) :: lines

/-- An encoded word, as it is written. -/
structure EncodedWord where
  charset : Str
  encoding : Char
  encoded : Str

/-- `.*?` in front of `?=`. -/
def untilEnd : Str → Option Str
  | [] => none
  | c :: s =>
    if c = '?' ∧ s.head? = some '=' then some []
    else if c = '\n' then none
    else (untilEnd s).map (c :: ·)

/-- `ecre`, at the beginning of a text. -/
def ecreMatch (s : Str) : Option EncodedWord :=
  if s.take 2 ≠ ['=', '?'] then none
  else
    match partition '?' (s.drop 2) with
    | (charset, some (encoding :: '?' :: rest)) =>
      if encoding ∈ "qQbB".toList then (untilEnd rest).map fun encoded => ⟨charset, encoding, encoded⟩
      else none
    | _ => none

/-- `=?charset?encoding?encoded?=`. -/
def EncodedWord.text (word : EncodedWord) : Str :=
  '=' :: '?' :: (word.charset ++ '?' :: word.encoding :: '?' :: (word.encoded ++ ['?', '=']))

/-- `ecre.split`, behind so many characters that belong to a match: the text in front of the first
encoded word, and the encoded words with the text behind each. -/
def ecreSplit : ℕ → Str → Str × List (EncodedWord × Str)
  | _, [] => ([], [])
  | skip + 1, _ :: s => ecreSplit skip s
  | 0, c :: s =>
    match ecreMatch (c :: s) with
    | some word =>
      let rest := ecreSplit (word.text.length - 1) s
      ([], (word, rest.1) :: rest.2)
    | none => (c :: (ecreSplit 0 s).1, (ecreSplit 0 s).2)

/-- `ecre.search`. -/
def ecreSearch (s : Str) : Bool := (ecreSplit 0 s).2 ≠ []

/-- A word of a header: with its encoding in lower case and its charset, or as it is written. -/
inductive HeaderWord
  | plain (text : Str)
  | coded (text : Str) (encoding : Char) (charset : Str)

namespace HeaderWord

def text : HeaderWord → Str
  | plain text => text
  | coded text _ _ => text

def isCoded : HeaderWord → Bool
  | plain _ => false
  | coded _ _ _ => true

end HeaderWord

/-- An unencoded word, unless it is empty. -/
def plainWord (text : Str) : List HeaderWord := if text = [] then [] else [.plain text]

/-- An encoded word and the text behind it. -/
def partWords (lower : Str → Str) (part : EncodedWord × Str) : List HeaderWord :=
  .coded part.1.encoded part.1.encoding.toLower (lower part.1.charset) :: plainWord part.2

/-- The words of a line that is cut. -/
def lineWords (lower : Str → Str) (line : Str × List (EncodedWord × Str)) : List HeaderWord :=
  plainWord (line.1.dropWhile Text.isSpace) ++ line.2.flatMap (partWords lower)

/-- The words of a header. -/
def headerWords (lower : Str → Str) (header : Str) : List HeaderWord :=
  ((splitlines header).map (ecreSplit 0)).flatMap (lineWords lower)

/-- `s.isspace()`. -/
def isBlank (s : Str) : Bool := s ≠ [] ∧ s.all Text.isSpace

/-- The words without those of white space between two encoded words; the flag says that an encoded
word stands before. -/
def dropBlank : Bool → List HeaderWord → List HeaderWord
  | afterCoded, word :: next :: words =>
    if afterCoded ∧ next.isCoded ∧ isBlank word.text then dropBlank word.isCoded (next :: words)
    else word :: dropBlank word.isCoded (next :: words)
  | _, words => words

/-! ## Decoding -/

/-- `bytes(s, "raw-unicode-escape")`. -/
def rawUnicodeEscape (s : Str) : List UInt8 :=
  s.flatMap fun c =>
    if c.toNat < 0x100 then [UInt8.ofNat c.toNat]
    else
      let digits := Nat.toDigits 16 c.toNat
      let width := if c.toNat < 0x10000 then 4 else 8
      ('\\' :: (if width = 4 then 'u' else 'U') :: (List.replicate (width - digits.length) '0' ++
        digits)).map fun d => UInt8.ofNat d.toNat

/-- `email.quoprimime.header_decode`. -/
def headerDecode : Str → Str
  | [] => []
  | c :: rest =>
    if c = '=' then
      match rest with
      | a :: b :: rest' =>
        match Percent.hexValue? a, Percent.hexValue? b with
        | some m, some n => Char.ofNat (16 * m + n) :: headerDecode rest'
        | _, _ => '=' :: headerDecode (a :: b :: rest')
      | rest => '=' :: headerDecode rest
    else (if c = '_' then ' ' else c) :: headerDecode rest

/-- The value of a character of the base64 alphabet. -/
def base64Value? (b : UInt8) : Option ℕ :=
  let n := b.toNat
  if 65 ≤ n ∧ n ≤ 90 then some (n - 65)
  else if 97 ≤ n ∧ n ≤ 122 then some (n - 71)
  else if 48 ≤ n ∧ n ≤ 57 then some (n + 4)
  else if n = 43 then some 62
  else if n = 47 then some 63
  else none

/-- The loop of `binascii.a2b_base64`, at a position in a group of four, with the bits that are left
over and the padding so far; `none` is `binascii.Error`. -/
def a2bBase64Loop : ℕ → ℕ → ℕ → List UInt8 → Option (List UInt8)
  | quad, _, _, [] => if quad = 0 then some [] else none
  | quad, left, pads, b :: bytes =>
    if b = 61 then
      if 2 ≤ quad ∧ 4 ≤ quad + (pads + 1) then some []
      else a2bBase64Loop quad left (if 2 ≤ quad then pads + 1 else pads) bytes
    else
      match base64Value? b with
      | none => a2bBase64Loop quad left pads bytes
      | some v =>
        match quad with
        | 0 => a2bBase64Loop 1 v 0 bytes
        | 1 => (a2bBase64Loop 2 (v % 16) 0 bytes).map (UInt8.ofNat (4 * left + v / 16) :: ·)
        | 2 => (a2bBase64Loop 3 (v % 4) 0 bytes).map (UInt8.ofNat (16 * left + v / 4) :: ·)
        | _ => (a2bBase64Loop 0 0 0 bytes).map (UInt8.ofNat (64 * left + v) :: ·)

/-- `binascii.a2b_base64`. -/
def a2bBase64 (bytes : List UInt8) : Option (List UInt8) := a2bBase64Loop 0 0 0 bytes

/-- The missing padding. -/
def pad (encoded : Str) : Str :=
  if encoded.length % 4 = 0 then encoded
  else encoded ++ List.replicate (min 3 (4 - encoded.length % 4)) '='

/-- A word as bytes, with its charset. -/
def decodeWord : HeaderWord → Option (List UInt8 × Option Str)
  | .plain text => some (rawUnicodeEscape text, none)
  | .coded text encoding charset =>
    if encoding = 'q' then some (rawUnicodeEscape (headerDecode text), some charset)
    else (a2bBase64 (rawUnicodeEscape (pad text))).map fun word => (word, some charset)

/-- Runs of one charset, behind one that has begun; unencoded words are set apart by a blank. -/
def collapse : Option (List UInt8 × Option Str) → List (List UInt8 × Option Str) →
    List (List UInt8 × Option Str)
  | last, [] => last.toList
  | none, word :: words => collapse (some word) words
  | some last, word :: words =>
    if word.2 ≠ last.2 then last :: collapse (some word) words
    else if last.2 = none then collapse (some (last.1 ++ 32 :: word.1, none)) words
    else collapse (some (last.1 ++ word.1, last.2)) words

/-- What `decode_header` gives for a part: a text if there is nothing to decode. -/
inductive Content
  | str (text : Str)
  | bytes (content : List UInt8)

/-- `decode_header`; `none` is `HeaderParseError`. -/
def decodeHeader (lower : Str → Str) (header : Str) : Option (List (Content × Option Str)) :=
  if ecreSearch header = false then some [(.str header, none)]
  else
    ((dropBlank false (headerWords lower header)).mapM decodeWord).map fun words =>
      (collapse none words).map fun part => (.bytes part.1, part.2)

/-! ## Cutting at encoded words -/

variable {c : Char} {s t : Str} {word : EncodedWord}

theorem ecreMatch_eq_none (h : s.take 2 ≠ ['=', '?']) : ecreMatch s = none := if_pos h

theorem ecreSplit_cons (h : (c :: s).take 2 ≠ ['=', '?']) :
    ecreSplit 0 (c :: s) = (c :: (ecreSplit 0 s).1, (ecreSplit 0 s).2) := by
  rw [ecreSplit, ecreMatch_eq_none h]

/-- The parts of an encoded word do not run into what is around them. -/
structure EncodedWord.WellFormed (word : EncodedWord) : Prop where
  charset : '?' ∉ word.charset
  encoding : word.encoding ∈ "qQbB".toList
  encoded : '?' ∉ word.encoded
  line : '\n' ∉ word.encoded

theorem untilEnd_append (h : '?' ∉ s) (hline : '\n' ∉ s) (t : Str) :
    untilEnd (s ++ '?' :: '=' :: t) = some s := by
  induction s with
  | nil => rfl
  | cons c s ih =>
    rw [List.mem_cons, not_or] at h hline
    rw [List.cons_append, untilEnd, if_neg fun hc => h.1 hc.1.symm, if_neg (Ne.symm hline.1),
      ih h.2 hline.2]
    rfl

theorem ecreMatch_text (h : word.WellFormed) (t : Str) : ecreMatch (word.text ++ t) = some word := by
  have htext : word.text ++ t = '=' :: '?' :: (word.charset ++ '?' ::
      (word.encoding :: '?' :: (word.encoded ++ '?' :: '=' :: t))) := by
    simp [EncodedWord.text]
  have hcut : partition '?' ((word.text ++ t).drop 2) =
      (word.charset, some (word.encoding :: '?' :: (word.encoded ++ '?' :: '=' :: t))) := by
    rw [htext]
    exact partition_append h.charset _
  have htake : (word.text ++ t).take 2 = ['=', '?'] := by
    rw [htext]
    rfl
  unfold ecreMatch
  rw [if_neg (not_not.2 htake), hcut]
  show (if word.encoding ∈ "qQbB".toList then (untilEnd _).map _ else none) = _
  rw [if_pos h.encoding, untilEnd_append h.encoded h.line]
  rfl

theorem ecreSplit_length (t : Str) : ecreSplit s.length (s ++ t) = ecreSplit 0 t := by
  induction s with
  | nil => rfl
  | cons c s ih => exact ih

/-- **An encoded word** is cut out. -/
theorem ecreSplit_text (h : word.WellFormed) (t : Str) :
    ecreSplit 0 (word.text ++ t) = ([], (word, (ecreSplit 0 t).1) :: (ecreSplit 0 t).2) := by
  have hmatch := ecreMatch_text h t
  obtain ⟨c, rest, hrest⟩ : ∃ c rest, word.text = c :: rest := ⟨'=', _, rfl⟩
  rw [hrest] at hmatch ⊢
  rw [List.cons_append] at hmatch ⊢
  rw [ecreSplit, hmatch]
  dsimp only
  rw [hrest, List.length_cons, Nat.add_sub_cancel, ecreSplit_length]

theorem ecreSplit_of_free (h : ¬['=', '?'] <:+: s) : ecreSplit 0 s = (s, []) := by
  induction s with
  | nil => rfl
  | cons c s ih =>
    have hhead : (c :: s).take 2 ≠ ['=', '?'] := fun htake =>
      h (htake ▸ (List.take_prefix 2 (c :: s)).isInfix)
    rw [ecreSplit_cons hhead, ih fun hin => h (hin.trans (List.suffix_cons c s).isInfix)]

/-- What is cut is in the text. -/
theorem ecreSplit_subset (skip : ℕ) (s : Str) :
    (ecreSplit skip s).1 ⊆ s ∧ ∀ part ∈ (ecreSplit skip s).2, part.2 ⊆ s := by
  fun_induction ecreSplit skip s with
  | case1 => simp
  | case2 skip c s ih =>
    exact ⟨fun d hd => List.mem_cons_of_mem _ (ih.1 hd),
      fun part hpart d hd => List.mem_cons_of_mem _ (ih.2 part hpart hd)⟩
  | case3 c s word _ _ ih =>
    refine ⟨List.nil_subset _, fun part hpart => ?_⟩
    rcases List.mem_cons.1 hpart with rfl | hpart
    · exact fun d hd => List.mem_cons_of_mem _ (ih.1 hd)
    · exact fun d hd => List.mem_cons_of_mem _ (ih.2 part hpart hd)
  | case4 c s _ ih =>
    exact ⟨List.cons_subset_cons c ih.1,
      fun part hpart d hd => List.mem_cons_of_mem _ (ih.2 part hpart hd)⟩

theorem splitlines_subset (s : Str) : ∀ line ∈ splitlines s, line ⊆ s := by
  fun_induction splitlines s with
  | case1 => simp
  | case2 c s _ ih => exact fun line hline d hd => List.mem_cons_of_mem _ (ih line hline hd)
  | case3 c s _ _ ih =>
    intro line hline
    rcases List.mem_cons.1 hline with rfl | hline
    · exact List.nil_subset _
    · exact fun d hd => List.mem_cons_of_mem _ (ih line hline hd)
  | case4 c s _ _ _ ih =>
    intro line hline
    rw [List.mem_singleton.1 hline]
    exact List.cons_subset_cons c (List.nil_subset _)
  | case5 c s _ _ line lines hlines ih =>
    rw [hlines] at ih
    intro line' hline'
    rcases List.mem_cons.1 hline' with rfl | hline'
    · exact List.cons_subset_cons c (ih line (List.mem_cons_self ..))
    · exact fun d hd => List.mem_cons_of_mem _ (ih line' (List.mem_cons_of_mem _ hline') hd)

theorem mem_plainWord {text : Str} (h : HeaderWord.plain text ∈ plainWord s) : text = s := by
  unfold plainWord at h
  split_ifs at h
  · cases h
  · exact HeaderWord.plain.inj (List.mem_singleton.1 h)

/-- An unencoded word is in the header. -/
theorem plain_subset {lower : Str → Str} {text : Str}
    (h : HeaderWord.plain text ∈ headerWords lower s) : text ⊆ s := by
  obtain ⟨parts, hparts, hmem⟩ := List.mem_flatMap.1 h
  obtain ⟨line, hline, rfl⟩ := List.mem_map.1 hparts
  have hsub := splitlines_subset s line hline
  obtain ⟨hfirst, hrest⟩ := ecreSplit_subset 0 line
  rcases List.mem_append.1 hmem with hmem | hmem
  · rw [mem_plainWord hmem]
    exact fun d hd => hsub (hfirst ((List.dropWhile_suffix _).subset hd))
  · obtain ⟨part, hpart, hmem⟩ := List.mem_flatMap.1 hmem
    rcases List.mem_cons.1 hmem with heq | hmem
    · cases heq
    · rw [mem_plainWord hmem]
      exact fun d hd => hsub (hrest part hpart hd)

end ScamOn.EncodedWords
