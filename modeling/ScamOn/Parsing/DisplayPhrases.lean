import ScamOn.Lib.AddressBrackets
import ScamOn.Lib.HeaderTails
import ScamOn.Parsing.HeaderParser
import Mathlib.Data.List.Infix

/-!
# Display phrases

A sender is a phrase of encoded words and atoms, and an address in angle brackets behind it.

* `DisplayPhrase`: such a phrase, as it is written.
* `decodeRfc2047Header_bracket`: decoding leaves the bracket and the address alone.
* `sender_kept_iff`: behind a phrase, every address is read as the sender exactly if what is decoded
  of the phrase reads as a phrase.
-/

namespace ScamOn.Parsing

open Chars EmailAddresses EncodedWords UrlParse

/-! ## Phrases as they are written -/

/-- A character of an atom. -/
def isAtext (c : Char) : Bool :=
  33 ≤ c.toNat ∧ c.toNat < 127 ∧ c ∉ "()<>[]:;@\\,.\"".toList

/-- A character of the name of a charset. -/
def isTokenChar (c : Char) : Bool :=
  33 ≤ c.toNat ∧ c.toNat < 127 ∧ c ∉ "()<>@,;:\"/[]?.=".toList

/-- A character of an encoded text, where it stands in a phrase. -/
def isEncodedChar (c : Char) : Bool := isAscii c ∧ (c.isAlphanum ∨ c ∈ "!*+-/=_".toList)

/-- A word of a phrase. -/
inductive PhraseWord
  | encoded (word : EncodedWord)
  | atom (text : Str)

namespace PhraseWord

def text : PhraseWord → Str
  | encoded word => word.text
  | atom text => text

/-- A plain atom does not hold the beginning of an encoded word. -/
def Valid : PhraseWord → Prop
  | encoded word =>
    (∀ c ∈ word.charset, isTokenChar c = true) ∧ word.encoding ∈ "qQbB".toList ∧
      ∀ c ∈ word.encoded, isEncodedChar c = true
  | atom text => (∀ c ∈ text, isAtext c = true) ∧ ¬['=', '?'] <:+: text

instance (word : PhraseWord) : Decidable word.Valid :=
  match word with
  | encoded _ => inferInstanceAs (Decidable (_ ∧ _ ∧ _))
  | atom _ => inferInstanceAs (Decidable (_ ∧ _))

end PhraseWord

/-- Words with the white space behind each, as they are written. -/
def wordsText (words : List (PhraseWord × Str)) : Str := words.flatMap fun word => word.1.text ++ word.2

/-- **A display phrase**: encoded words and atoms, with white space between them. -/
structure DisplayPhrase where
  words : List (PhraseWord × Str)
  valid : ∀ word ∈ words, word.1.Valid
  blank : ∀ word ∈ words, ∀ c ∈ word.2, isFws c = true
  apart : ∀ word ∈ words.dropLast, word.2 ≠ []

namespace DisplayPhrase

def text (phrase : DisplayPhrase) : Str := wordsText phrase.words

/-- The phrase, and an address in angle brackets. -/
def header (phrase : DisplayPhrase) (a : Str) : Str := phrase.text ++ '<' :: (a ++ ['>'])

end DisplayPhrase

variable {c : Char} {s t w a : Str}

/-! ## Characters of words -/

/-- An ASCII character that ends neither an atom nor a line. -/
def isWordChar (c : Char) : Bool := isAscii c ∧ isPhraseEnd c = false ∧ isLineBreak c = false

theorem wordChar_of_atext (h : isAtext c = true) : isWordChar c = true := by
  have hascii : c.toNat < 128 := by
    simp only [isAtext, decide_eq_true_eq] at h
    omega
  revert h
  refine of_ascii_cases (P := fun c => isAtext c = true → isWordChar c = true) ?_ hascii
  decide +kernel

theorem wordChar_of_tokenChar (h : isTokenChar c = true) : isWordChar c = true ∧ c ≠ '?' := by
  have hascii : c.toNat < 128 := by
    simp only [isTokenChar, decide_eq_true_eq] at h
    omega
  revert h
  refine of_ascii_cases (P := fun c => isTokenChar c = true → isWordChar c = true ∧ c ≠ '?') ?_ hascii
  decide +kernel

theorem wordChar_of_encodedChar (h : isEncodedChar c = true) : isWordChar c = true ∧ c ≠ '?' := by
  have hascii : c.toNat < 128 := by
    simp only [isEncodedChar, isAscii, decide_eq_true_eq] at h
    exact h.1
  revert h
  refine of_ascii_cases (P := fun c => isEncodedChar c = true → isWordChar c = true ∧ c ≠ '?') ?_ hascii
  decide +kernel

theorem wordChar_of_encoding (h : c ∈ "qQbB".toList) : isWordChar c = true := by
  revert c
  decide +kernel

theorem wordChar_text {word : PhraseWord} (h : word.Valid) : ∀ c ∈ word.text, isWordChar c = true := by
  cases word with
  | atom text => exact fun c hc => wordChar_of_atext (h.1 c hc)
  | encoded word =>
    obtain ⟨hcharset, hencoding, hencoded⟩ := h
    have hmark : ∀ c ∈ ['=', '?'], isWordChar c = true := by decide +kernel
    intro c hc
    have hc' : c ∈ ['=', '?'] ∨ c ∈ word.charset ∨ c = '?' ∨ c = word.encoding ∨ c ∈ word.encoded := by
      simp only [PhraseWord.text, EncodedWord.text, List.mem_cons, List.mem_append,
        List.not_mem_nil, or_false] at hc ⊢
      tauto
    rcases hc' with hc | hc | rfl | rfl | hc
    · exact hmark c hc
    · exact (wordChar_of_tokenChar (hcharset c hc)).1
    · decide +kernel
    · exact wordChar_of_encoding hencoding
    · exact (wordChar_of_encodedChar (hencoded c hc)).1

theorem wellFormed_of_valid {word : EncodedWord} (h : (PhraseWord.encoded word).Valid) :
    word.WellFormed := by
  obtain ⟨hcharset, hencoding, hencoded⟩ := h
  refine ⟨fun hmem => ?_, hencoding, fun hmem => ?_, fun hmem => ?_⟩
  · exact (wordChar_of_tokenChar (hcharset _ hmem)).2 rfl
  · exact (wordChar_of_encodedChar (hencoded _ hmem)).2 rfl
  · exact absurd (hencoded _ hmem) (by decide +kernel)

/-! ## The text of a phrase -/

theorem wordChar_spec (h : isWordChar c = true) :
    isAscii c = true ∧ isPhraseEnd c = false ∧ isLineBreak c = false := by
  simpa [isWordChar] using h

theorem phraseChar_text (phrase : DisplayPhrase) : ∀ c ∈ phrase.text, IsPhraseChar c := by
  intro c hc
  obtain ⟨word, hword, hc⟩ := List.mem_flatMap.1 hc
  rcases List.mem_append.1 hc with hc | hc
  · exact .inr (wordChar_spec (wordChar_text (phrase.valid word hword) c hc)).2.1
  · exact .inl (phrase.blank word hword c hc)

theorem fws_spec (h : isFws c = true) : isAscii c = true ∧ c ≠ '=' ∧ c ≠ '?' := by
  have hc : c ∈ [' ', '\t', '\r', '\n'] := by
    simpa [isFws, isLws, isCr, or_assoc] using h
  clear h
  revert c
  decide +kernel

theorem regular_blank (h : ∀ c ∈ t, isFws c = true) (hs : Regular s) : Regular (t ++ s) := by
  induction t with
  | nil => exact hs
  | cons c t ih =>
    obtain ⟨hascii, hequal, -⟩ := fws_spec (h c (List.mem_cons_self ..))
    exact .char hascii (fun heq => absurd heq hequal)
      (ih fun d hd => h d (List.mem_cons_of_mem _ hd))

theorem regular_atom (h : ∀ c ∈ t, isAscii c = true) (hfree : ¬['=', '?'] <:+: t)
    (hhead : s.head? ≠ some '?') (hs : Regular s) : Regular (t ++ s) := by
  induction t with
  | nil => exact hs
  | cons c t ih =>
    rw [List.infix_cons_iff, not_or] at hfree
    refine .char (h c (List.mem_cons_self ..)) ?_
      (ih (fun d hd => h d (List.mem_cons_of_mem _ hd)) hfree.2)
    rintro rfl
    rcases t with _ | ⟨d, t⟩
    · exact hhead
    · intro hmark
      obtain rfl : d = '?' := Option.some.inj hmark
      exact hfree.1 ⟨t, rfl⟩

theorem regular_word {word : PhraseWord} (h : word.Valid) (hhead : s.head? ≠ some '?')
    (hs : Regular s) : Regular (word.text ++ s) := by
  have hchars : ∀ c ∈ word.text, isAscii c = true ∧ isLineBreak c = false := by
    intro c hc
    obtain ⟨hascii, -, hline⟩ := wordChar_spec (wordChar_text h c hc)
    exact ⟨hascii, hline⟩
  cases word with
  | atom text => exact regular_atom (fun c hc => (hchars c hc).1) h.2 hhead hs
  | encoded word =>
    refine .word (wellFormed_of_valid h) ?_ (fun c hc => (hchars c hc).2) hs
    exact List.all_eq_true.2 fun c hc => (hchars c hc).1

theorem regular_wordsText {words : List (PhraseWord × Str)} (hvalid : ∀ word ∈ words, word.1.Valid)
    (hblank : ∀ word ∈ words, ∀ c ∈ word.2, isFws c = true)
    (hapart : ∀ word ∈ words.dropLast, word.2 ≠ []) : Regular (wordsText words) := by
  induction words with
  | nil => exact .nil
  | cons word words ih =>
    obtain ⟨hword, hvalid⟩ := List.forall_mem_cons.1 hvalid
    obtain ⟨hgap, hblank⟩ := List.forall_mem_cons.1 hblank
    have hrest : Regular (wordsText words) := by
      refine ih hvalid hblank fun w hw => hapart w ?_
      rcases words with _ | ⟨next, words⟩
      · cases hw
      · exact List.mem_cons_of_mem _ hw
    -- white space stands between two words
    have hhead : (word.2 ++ wordsText words).head? ≠ some '?' := by
      rcases hsep : word.2 with _ | ⟨c, sep⟩
      · rcases words with _ | ⟨next, words⟩
        · simp [wordsText]
        · exact absurd hsep (hapart word (List.mem_cons_self ..))
      · intro hmark
        obtain rfl : c = '?' := Option.some.inj hmark
        exact (fws_spec (hgap '?' (by simp [hsep]))).2.2 rfl
    have htext : wordsText (word :: words) = word.1.text ++ (word.2 ++ wordsText words) := by
      unfold wordsText
      rw [List.flatMap_cons, List.append_assoc]
    rw [htext]
    exact regular_word hword hhead (regular_blank hgap hrest)

theorem DisplayPhrase.regular (phrase : DisplayPhrase) : Regular phrase.text :=
  regular_wordsText phrase.valid phrase.blank phrase.apart

/-! ## Decoding in front of a bracket -/

theorem decodeUtf8_rawUnicodeEscape (h : allAscii s = true) :
    Percent.decodeUtf8 (rawUnicodeEscape s) = s := by
  have hbytes : rawUnicodeEscape s = Percent.encodeUtf8 s := by
    refine List.flatMap_congr fun c hc => ?_
    have hascii : c.toNat < 128 := of_decide_eq_true (List.all_eq_true.1 h c hc)
    rw [if_pos (by omega), String.utf8EncodeChar_eq_singleton]
    · rfl
    · exact Char.utf8Size_eq_one_iff.2 (Nat.le_of_lt_succ hascii)
  rw [hbytes, Percent.decodeUtf8_encodeUtf8]

/-- **Decoding leaves the bracket and what follows it alone**, and nothing else depends on them. -/
theorem decodeRfc2047Header_bracket (x : Unicode) (codec : Codec) (h : Regular s) :
    ∃ front, ∀ w, Quiet w →
      decodeRfc2047Header x codec (s ++ '<' :: w) = front ++ '<' :: w := by
  have hne : ∀ w, s ++ '<' :: w ≠ [] := fun w => by simp
  rcases decodeHeader_append x.lower h with htext | hfail | ⟨parts, front, hfront, hparts⟩
  · refine ⟨s, fun w hw => ?_⟩
    unfold decodeRfc2047Header
    rw [if_neg (hne w), htext w hw]
    simp [decodePart]
  · refine ⟨s, fun w hw => ?_⟩
    unfold decodeRfc2047Header
    rw [if_neg (hne w), hfail w hw]
    rfl
  · have hlast : ∀ w, Quiet w →
        decodePart codec (.bytes (rawUnicodeEscape (front ++ '<' :: w)), none) =
          some (front ++ '<' :: w) := by
      intro w hw
      have hascii : allAscii (front ++ '<' :: w) = true :=
        allAscii_append.2 ⟨hfront, List.all_eq_true.2
          (List.forall_mem_cons.2 ⟨rfl, List.all_eq_true.1 hw.ascii⟩)⟩
      rw [decodePart, if_pos (if_pos (.inl rfl)), decodeUtf8_rawUnicodeEscape hascii]
    rcases htexts : parts.mapM (decodePart codec) with _ | texts
    · refine ⟨s, fun w hw => ?_⟩
      unfold decodeRfc2047Header
      rw [if_neg (hne w), hparts w hw, Option.bind_some, mapM_append_singleton (hlast w hw), htexts]
      rfl
    · refine ⟨texts.flatten ++ front, fun w hw => ?_⟩
      unfold decodeRfc2047Header
      rw [if_neg (hne w), hparts w hw, Option.bind_some, mapM_append_singleton (hlast w hw), htexts]
      simp

/-! ## The sender -/

/-- The address in angle brackets: it is read as it is, and holds no beginning of an encoded word. -/
structure IsAddress (a : Str) : Prop where
  bracketed : IsBracketed a
  chars : ∀ c ∈ a, 32 ≤ c.toNat ∧ c.toNat < 127
  free : ¬['=', '?'] <:+: a
  stripped : strip a = a

theorem IsAddress.quiet (h : IsAddress a) : Quiet (a ++ ['>']) := by
  have hprintable : ∀ n < 128, 32 ≤ n → isLineBreak (Char.ofNat n) = false := by decide +kernel
  refine ⟨?_, ?_, ?_⟩
  · refine allAscii_append.2 ⟨List.all_eq_true.2 fun c hc => ?_, rfl⟩
    have hlt := (h.chars c hc).2
    exact decide_eq_true (by omega)
  · intro c hc
    rcases List.mem_append.1 hc with hc | hc
    · obtain ⟨hle, hlt⟩ := h.chars c hc
      have hline := hprintable c.toNat (by omega) hle
      rwa [Char.ofNat_toNat] at hline
    · rw [List.mem_singleton.1 hc]
      decide +kernel
  · rw [List.infix_concat_iff, not_or]
    refine ⟨fun hsuffix => ?_, h.free⟩
    have hlast := hsuffix.getLast (by simp)
    simp at hlast

/-- Lower-casing keeps the characters that are in lower case. -/
def KeepsLowered (x : Unicode) : Prop := ∀ s, ∀ c ∈ s, x.lower [c] = [c] → c ∈ x.lower s

/-- **The sender is kept**: it is read as the address, and the addresses are those that the header
has before it is decoded. -/
structure SenderKept (x : Unicode) (codec : Codec) (header a : Str) : Prop where
  address : (parseAddressHeader x codec header).address = x.lower a
  addresses : (parseAddressesList x codec header).map HeaderAddress.address =
    ((getaddresses header).filter fun pair => pair.2 ≠ []).map fun pair =>
      x.lower (strip pair.2)

variable {x : Unicode} {codec : Codec} {phrase : DisplayPhrase}

theorem header_ne_nil (phrase : DisplayPhrase) (a : Str) : phrase.header a ≠ [] := by
  simp [DisplayPhrase.header]

/-- Before it is decoded, the header has one address. -/
theorem getaddresses_header (phrase : DisplayPhrase) (ha : IsAddress a) :
    ∃ name, getaddresses (phrase.header a) = [(name, a)] :=
  getaddresses_of_readsAsPhrase (readsAsPhrase_of_phraseChars (phraseChar_text phrase)) ha.bracketed

theorem parseAddressHeader_address (hs : s ≠ []) {b : Str}
    (h : firstAddress (getaddresses (decodeRfc2047Header x codec s)) = some b) :
    (parseAddressHeader x codec s).address = x.lower (strip b) := by
  unfold parseAddressHeader
  rw [if_neg hs]
  rcases hread : getaddresses (decodeRfc2047Header x codec s) with _ | ⟨pair, pairs⟩
  · rw [hread] at h
    cases h
  · rw [hread] at h
    obtain rfl : pair.2 = b := Option.some.inj h
    dsimp only
    rw [hread]
    rfl

/-- What is decoded of the phrase reads as a phrase: every address is kept. -/
theorem senderKept_of_readsAsPhrase
    (h : ReadsAsPhrase (decodeRfc2047Header x codec (phrase.text ++ ['<']))) (ha : IsAddress a) :
    SenderKept x codec (phrase.header a) a := by
  obtain ⟨front, hfront⟩ := decodeRfc2047Header_bracket x codec phrase.regular
  have hheader : decodeRfc2047Header x codec (phrase.header a) = front ++ '<' :: (a ++ ['>']) :=
    hfront _ ha.quiet
  rw [hfront [] quiet_nil] at h
  obtain ⟨name, hdecoded⟩ := getaddresses_of_readsAsPhrase h ha.bracketed
  obtain ⟨name', hraw⟩ := getaddresses_header phrase ha
  have hpair : ∀ name : Str, [(name, a)].filter (fun pair => pair.2 ≠ []) = [(name, a)] :=
    fun name => List.filter_cons_of_pos (decide_eq_true ha.bracketed.1)
  refine ⟨?_, ?_⟩
  · rw [parseAddressHeader_address (header_ne_nil phrase a) (b := a), ha.stripped]
    rw [hheader, hdecoded]
    rfl
  · unfold parseAddressesList
    rw [if_neg (header_ne_nil phrase a), hheader, hdecoded, hraw, hpair, hpair]
    rfl

theorem mem_dropWhile {p : Char → Bool} (h : c ∈ s) (hc : p c = false) : c ∈ s.dropWhile p := by
  rw [← List.takeWhile_append_dropWhile (p := p) (l := s)] at h
  rcases List.mem_append.1 h with h | h
  · rw [List.mem_takeWhile_imp h] at hc
    cases hc
  · exact h

theorem mem_strip (h : c ∈ s) (hc : Text.isSpace c = false) : c ∈ strip s :=
  List.mem_reverse.2 (mem_dropWhile (List.mem_reverse.2 (mem_dropWhile h hc)) hc)

theorem isAddress_probes : IsAddress plainProbe ∧ IsAddress otherProbe ∧ IsAddress quotedProbe :=
  ⟨⟨isBracketed_plainProbe, by decide +kernel, by decide +kernel, by decide +kernel⟩,
    ⟨isBracketed_otherProbe, by decide +kernel, by decide +kernel, by decide +kernel⟩,
    ⟨isBracketed_quotedProbe, by decide +kernel, by decide +kernel, by decide +kernel⟩⟩

theorem lower_probes (hx : Lawful x) : x.lower plainProbe = plainProbe ∧
    x.lower otherProbe = otherProbe ∧ x.lower quotedProbe = quotedProbe := by
  have hlower : ∀ a, (∀ c ∈ a, isAscii c = true ∧ c.toLower = c) → x.lower a = a := by
    intro a ha
    refine hx.lower_eq_self a fun c hc => ?_
    rw [hx.lower_ascii c (ha c hc).1, (ha c hc).2]
  exact ⟨hlower _ (by decide +kernel), hlower _ (by decide +kernel), hlower _ (by decide +kernel)⟩

/-- An address from elsewhere is not, in lower case, two addresses. -/
theorem elsewhere_probes (hx : Lawful x) (hkeeps : KeepsLowered x) {k b b' : Str}
    (hb : b = [] ∨ b = k ∨ '<' ∈ b) (hb' : b' = [] ∨ b' = k ∨ '<' ∈ b')
    (h : x.lower (strip b) = plainProbe) (h' : x.lower (strip b') = otherProbe) : False := by
  have hbracket : ∀ b, '<' ∈ b → '<' ∈ x.lower (strip b) := fun b hmem =>
    hkeeps _ _ (mem_strip hmem (by decide +kernel)) (hx.lower_ascii '<' (by decide +kernel))
  have hnil : x.lower (strip []) = [] := hx.lower_eq_self [] (by simp)
  have hk : b = k := by
    rcases hb with rfl | hb | hmem
    · rw [hnil] at h
      cases h
    · exact hb
    · exact absurd (h ▸ hbracket b hmem) (by decide +kernel)
  have hk' : b' = k := by
    rcases hb' with rfl | hb' | hmem
    · rw [hnil] at h'
      cases h'
    · exact hb'
    · exact absurd (h' ▸ hbracket b' hmem) (by decide +kernel)
  rw [hk] at h
  rw [hk', h] at h'
  exact absurd h' (by decide +kernel)

/-- **Who sent the mail.**  Behind a phrase, every address is kept exactly if what is decoded of the
phrase reads as a phrase. -/
theorem sender_kept_iff (hx : Lawful x) (hkeeps : KeepsLowered x) (codec : Codec)
    (phrase : DisplayPhrase) :
    (∀ a, IsAddress a → SenderKept x codec (phrase.header a) a) ↔
      ReadsAsPhrase (decodeRfc2047Header x codec (phrase.text ++ ['<'])) := by
  refine ⟨fun hkept => ?_, fun h a ha => senderKept_of_readsAsPhrase h ha⟩
  by_contra hphrase
  obtain ⟨front, hfront⟩ := decodeRfc2047Header_bracket x codec phrase.regular
  rw [hfront [] quiet_nil] at hphrase
  obtain ⟨hplain, hother, hquoted⟩ := isAddress_probes
  obtain ⟨hlower, hlower', hlower''⟩ := lower_probes hx
  -- what is read of the decoded header, against what it should be
  have hread : ∀ {a b}, IsAddress a →
      firstAddress (getaddresses (front ++ '<' :: (a ++ ['>']))) = some b →
      x.lower (strip b) = x.lower a := by
    intro a b ha hfirst
    rw [← (hkept a ha).address]
    refine (parseAddressHeader_address (header_ne_nil phrase a) ?_).symm
    rw [← hfirst]
    exact congrArg (firstAddress ∘ getaddresses) (hfront _ ha.quiet)
  rcases firstAddress_of_not_readsAsPhrase hphrase with ⟨k, helsewhere⟩ | hquote
  · obtain ⟨b, hb, hwhere⟩ := helsewhere plainProbe (by simp)
    obtain ⟨b', hb', hwhere'⟩ := helsewhere otherProbe (by simp)
    exact elsewhere_probes hx hkeeps hwhere hwhere' ((hread hplain hb).trans hlower)
      ((hread hother hb').trans hlower')
  · have hnil : x.lower (strip []) = [] := hx.lower_eq_self [] (by simp)
    have heq := (hread hquoted hquote).trans hlower''
    rw [hnil] at heq
    cases heq

theorem keepsLowered_asciiUnicode : KeepsLowered asciiUnicode := by
  intro s c hc hlower
  exact List.mem_map.2 ⟨c, hc, (List.cons.inj hlower).1⟩

/-- No codecs but UTF-8. -/
def noCodec : Codec := fun _ _ => .unknown

/-- `=?utf-8?q?J=C3=BCrgen?= Smith`. -/
def smithPhrase : DisplayPhrase where
  words := [(.encoded ⟨"utf-8".toList, 'q', "J=C3=BCrgen".toList⟩, [' ']), (.atom "Smith".toList, [' '])]
  valid := by decide +kernel
  blank := by decide +kernel
  apart := by decide +kernel

/-- The address of the examples. -/
def goodAddress : Str := "good@y.org".toList

theorem isAddress_goodAddress : IsAddress goodAddress :=
  ⟨⟨by decide +kernel, by decide +kernel⟩, by decide +kernel, by decide +kernel, by decide +kernel⟩

theorem sender_kept_smith :
    SenderKept asciiUnicode noCodec (smithPhrase.header goodAddress) goodAddress := by
  have hdecoded : decodeRfc2047Header asciiUnicode noCodec (smithPhrase.text ++ ['<']) =
      "J\u00fcrgen Smith ".toList ++ ['<'] := by decide +kernel
  refine (sender_kept_iff lawful_asciiUnicode keepsLowered_asciiUnicode noCodec smithPhrase).2 ?_ _
    isAddress_goodAddress
  rw [hdecoded]
  refine readsAsPhrase_of_phraseChars ?_
  unfold IsPhraseChar
  decide +kernel

/-- `=?utf-8?q?evil=40x=2Eorg=2C?=`. -/
def evilPhrase : DisplayPhrase where
  words := [(.encoded ⟨"utf-8".toList, 'q', "evil=40x=2Eorg=2C".toList⟩, [' '])]
  valid := by decide +kernel
  blank := by decide +kernel
  apart := by decide +kernel

/-- An encoded word brings its own address. -/
theorem sender_not_kept :
    evilPhrase.header goodAddress = "=?utf-8?q?evil=40x=2Eorg=2C?= <good@y.org>".toList ∧
      IsAddress goodAddress ∧
      (parseAddressHeader asciiUnicode noCodec (evilPhrase.header goodAddress)).address =
        "evil@x.org".toList ∧
      (parseAddressesList asciiUnicode noCodec (evilPhrase.header goodAddress)).map
        HeaderAddress.address = ["evil@x.org".toList, "good@y.org".toList] ∧
      ¬SenderKept asciiUnicode noCodec (evilPhrase.header goodAddress) goodAddress := by
  have haddress : (parseAddressHeader asciiUnicode noCodec
      (evilPhrase.header goodAddress)).address = "evil@x.org".toList := by decide +kernel
  refine ⟨by decide +kernel, isAddress_goodAddress, haddress, by decide +kernel, fun h => ?_⟩
  exact absurd (haddress.symm.trans h.address) (by decide +kernel)

end ScamOn.Parsing
