import Mathlib.Data.List.SplitBy
import ScamOn.Lib.Chars

/-!
# Percent-encoding

`urllib.parse.quote` and `urllib.parse.unquote`, over UTF-8 with `errors="replace"`.

* `decodeUtf8` is `bytes.decode("utf-8", "replace")`: a malformed sequence becomes one
  replacement character for its longest part that could have begun a character.
* `decodeUtf8_encodeUtf8`: what is encoded is decoded again.
* `unquote_quote`: quoting loses nothing, whatever the safe characters are.
* `Quoted` is the set of quoted texts, which is closed under the operations on paths.
-/

namespace ScamOn.Percent

open Chars

/-! ## UTF-8 -/

/-- `s.encode("utf-8")`. -/
def encodeUtf8 (s : Str) : List UInt8 := s.flatMap String.utf8EncodeChar

def isContinuation (b : UInt8) : Bool := 0x80 ≤ b ∧ b ≤ 0xBF

/-- The second byte that may follow a first byte of three or four. -/
def secondAllowed (first second : UInt8) : Bool :=
  if first = 0xE0 then 0xA0 ≤ second ∧ second ≤ 0xBF
  else if first = 0xED then 0x80 ≤ second ∧ second ≤ 0x9F
  else if first = 0xF0 then 0x90 ≤ second ∧ second ≤ 0xBF
  else if first = 0xF4 then 0x80 ≤ second ∧ second ≤ 0x8F
  else isContinuation second

/-- How many bytes one replacement character stands for. -/
def malformedLength : List UInt8 → ℕ
  | first :: second :: rest =>
    if 0xE0 ≤ first ∧ first ≤ 0xF4 ∧ secondAllowed first second then
      match rest with
      | third :: _ => if 0xF0 ≤ first ∧ isContinuation third then 3 else 2
      | [] => 2
    else 1
  | _ => 1

/-- Decode with at most so many characters. -/
def decodeUtf8Upto : ℕ → List UInt8 → Str
  | 0, _ => []
  | _ + 1, [] => []
  | n + 1, b :: bytes =>
    match (b :: bytes).toByteArray.utf8DecodeChar? 0 with
    | some c => c :: decodeUtf8Upto n ((b :: bytes).drop c.utf8Size)
    | none => '\uFFFD' :: decodeUtf8Upto n ((b :: bytes).drop (malformedLength (b :: bytes)))

/-- `b.decode("utf-8", "replace")`. -/
def decodeUtf8 (bytes : List UInt8) : Str := decodeUtf8Upto bytes.length bytes

/-- `b.decode("utf-8")` of at most so many characters; `none` is `UnicodeDecodeError`. -/
def decodeStrictUpto : ℕ → List UInt8 → Option Str
  | 0, _ => some []
  | _ + 1, [] => some []
  | n + 1, b :: bytes =>
    match (b :: bytes).toByteArray.utf8DecodeChar? 0 with
    | some c => (decodeStrictUpto n ((b :: bytes).drop c.utf8Size)).map (c :: ·)
    | none => none

theorem decodeUtf8Upto_encodeChar (n : ℕ) (c : Char) (bytes : List UInt8) :
    decodeUtf8Upto (n + 1) (String.utf8EncodeChar c ++ bytes) = c :: decodeUtf8Upto n bytes := by
  have hfirst : (String.utf8EncodeChar c ++ bytes).toByteArray.utf8DecodeChar? 0 = some c := by
    rw [List.toByteArray_append]
    exact ByteArray.utf8DecodeChar?_utf8EncodeChar_append
  have hdrop : (String.utf8EncodeChar c ++ bytes).drop c.utf8Size = bytes := by
    rw [← String.length_utf8EncodeChar c]
    exact List.drop_left
  rcases hbytes : String.utf8EncodeChar c ++ bytes with _ | ⟨b, rest⟩
  · exact absurd (List.append_eq_nil_iff.1 hbytes).1 String.utf8EncodeChar_ne_nil
  · rw [hbytes] at hfirst hdrop
    rw [decodeUtf8Upto, hfirst]
    simp only [hdrop]

theorem decodeUtf8Upto_encodeUtf8 {s : Str} {n : ℕ} (h : s.length ≤ n) :
    decodeUtf8Upto n (encodeUtf8 s) = s := by
  induction s generalizing n with
  | nil => cases n <;> rfl
  | cons c s ih =>
    rw [List.length_cons] at h
    obtain ⟨n, rfl⟩ : ∃ m, n = m + 1 := ⟨n - 1, by omega⟩
    rw [encodeUtf8, List.flatMap_cons, decodeUtf8Upto_encodeChar, ← encodeUtf8, ih (by omega)]

theorem length_le_encodeUtf8 (s : Str) : s.length ≤ (encodeUtf8 s).length := by
  induction s with
  | nil => exact Nat.zero_le _
  | cons c s ih =>
    have hpos : 0 < (String.utf8EncodeChar c).length := by
      rw [String.length_utf8EncodeChar]
      exact c.utf8Size_pos
    rw [encodeUtf8, List.flatMap_cons, List.length_append, List.length_cons, ← encodeUtf8]
    omega

/-- **What is encoded is decoded again.** -/
theorem decodeUtf8_encodeUtf8 (s : Str) : decodeUtf8 (encodeUtf8 s) = s :=
  decodeUtf8Upto_encodeUtf8 (length_le_encodeUtf8 s)

/-! ## Quoting -/

/-- An upper-case hexadecimal digit. -/
def hexDigit (n : ℕ) : Char := if n < 10 then Char.ofNat (48 + n) else Char.ofNat (55 + n)

/-- The characters `quote` never encodes. -/
def alwaysSafe (c : Char) : Bool :=
  c.isAlphanum ∨ c = '_' ∨ c = '.' ∨ c = '-' ∨ c = '~'

/-- A byte as itself, if it is a safe ASCII character, else as an escape. -/
def quoteByte (safe : Char → Bool) (b : UInt8) : Str :=
  let c := Char.ofNat b.toNat
  if b < 128 ∧ (alwaysSafe c ∨ safe c) then [c]
  else ['%', hexDigit (b.toNat / 16), hexDigit (b.toNat % 16)]

/-- `quote(s, safe=safe, encoding="utf-8")`. -/
def quote (safe : Char → Bool) (s : Str) : Str := (encodeUtf8 s).flatMap (quoteByte safe)

/-- The value of a hexadecimal digit of either case. -/
def hexValue? (c : Char) : Option ℕ :=
  if '0' ≤ c ∧ c ≤ '9' then some (c.toNat - 48)
  else if 'A' ≤ c ∧ c ≤ 'F' then some (c.toNat - 55)
  else if 'a' ≤ c ∧ c ≤ 'f' then some (c.toNat - 87)
  else none

/-- `unquote_to_bytes`: a percent sign that no two hexadecimal digits follow stands for
itself. -/
def unquoteToBytes : Str → List UInt8
  | [] => []
  | c :: rest =>
    if c = '%' then
      match rest with
      | a :: b :: rest' =>
        match hexValue? a, hexValue? b with
        | some x, some y => UInt8.ofNat (16 * x + y) :: unquoteToBytes rest'
        | _, _ => String.utf8EncodeChar c ++ unquoteToBytes (a :: b :: rest')
      | rest => String.utf8EncodeChar c ++ unquoteToBytes rest
    else String.utf8EncodeChar c ++ unquoteToBytes rest

/-- `unquote(s, encoding="utf-8", errors="replace")`: runs of ASCII characters are decoded,
the other characters stay. -/
def unquote (s : Str) : Str :=
  if '%' ∈ s then
    (s.splitBy fun c d => isAscii c = isAscii d).flatMap fun run =>
      if allAscii run then decodeUtf8 (unquoteToBytes run) else run
  else s

/-! ## The round trip -/

theorem hexValue?_hexDigit : ∀ n < 16, hexValue? (hexDigit n) = some n := by
  decide

theorem isAscii_hexDigit : ∀ n < 16, isAscii (hexDigit n) = true := by
  decide

variable {safe : Char → Bool}

theorem byte_div_mod (b : UInt8) :
    UInt8.ofNat (16 * (b.toNat / 16) + b.toNat % 16) = b := by
  rw [Nat.div_add_mod, UInt8.ofNat_toNat]

theorem utf8EncodeChar_ofNat : ∀ n < 128,
    String.utf8EncodeChar (Char.ofNat n) = [UInt8.ofNat n] := by
  decide +kernel

/-- An escaped byte is read back. -/
theorem unquoteToBytes_quoteByte (hsafe : safe '%' = false) (b : UInt8) (rest : Str) :
    unquoteToBytes (quoteByte safe b ++ rest) = b :: unquoteToBytes rest := by
  have hb : b.toNat < 256 := b.toNat_lt
  unfold quoteByte
  dsimp only
  split_ifs with h
  · have hne : Char.ofNat b.toNat ≠ '%' := by
      intro heq
      rw [heq, hsafe] at h
      exact absurd h.2 (by decide)
    have hlt : b.toNat < 128 := h.1
    rw [List.singleton_append, unquoteToBytes.eq_def]
    simp only [if_neg hne, utf8EncodeChar_ofNat _ hlt, UInt8.ofNat_toNat]
    rfl
  · show unquoteToBytes ('%' :: hexDigit (b.toNat / 16) :: hexDigit (b.toNat % 16) :: rest) = _
    rw [unquoteToBytes, if_pos rfl]
    simp only [hexValue?_hexDigit _ (show b.toNat / 16 < 16 by omega),
      hexValue?_hexDigit _ (show b.toNat % 16 < 16 by omega), byte_div_mod]

theorem unquoteToBytes_flatMap_append (hsafe : safe '%' = false) (bytes : List UInt8) (rest : Str) :
    unquoteToBytes (bytes.flatMap (quoteByte safe) ++ rest) = bytes ++ unquoteToBytes rest := by
  induction bytes with
  | nil => rfl
  | cons b bytes ih =>
    rw [List.flatMap_cons, List.append_assoc, unquoteToBytes_quoteByte hsafe, ih]
    rfl

theorem unquoteToBytes_flatMap (hsafe : safe '%' = false) (bytes : List UInt8) :
    unquoteToBytes (bytes.flatMap (quoteByte safe)) = bytes := by
  have happend := unquoteToBytes_flatMap_append hsafe bytes []
  rwa [List.append_nil, show unquoteToBytes [] = [] from rfl, List.append_nil] at happend

theorem unquoteToBytes_of_not_mem {s : Str} (h : '%' ∉ s) : unquoteToBytes s = encodeUtf8 s := by
  induction s with
  | nil => rfl
  | cons c s ih =>
    rw [List.mem_cons, not_or] at h
    rw [unquoteToBytes.eq_def]
    simp only [if_neg (Ne.symm h.1), ih h.2]
    rfl

/-- A character of a quoted text. -/
theorem mem_quoteByte {b : UInt8} {c : Char} (h : c ∈ quoteByte safe b) :
    isAscii c = true ∧ (c = '%' ∨ alwaysSafe c = true ∨ safe c = true) := by
  have hb : b.toNat < 256 := b.toNat_lt
  have hdigit : ∀ n < 16, alwaysSafe (hexDigit n) = true := by decide
  unfold quoteByte at h
  dsimp only at h
  split_ifs at h with hsafe
  · rw [List.mem_singleton.1 h]
    have hlt : b.toNat < 128 := hsafe.1
    have hascii : ∀ n < 128, isAscii (Char.ofNat n) = true := by decide
    exact ⟨hascii _ hlt, .inr hsafe.2⟩
  · simp only [List.mem_cons, List.not_mem_nil, or_false] at h
    rcases h with rfl | rfl | rfl
    · exact ⟨by decide, .inl rfl⟩
    · exact ⟨isAscii_hexDigit _ (by omega), .inr (.inl (hdigit _ (by omega)))⟩
    · exact ⟨isAscii_hexDigit _ (by omega), .inr (.inl (hdigit _ (by omega)))⟩

theorem mem_quote {s : Str} {c : Char} (h : c ∈ quote safe s) :
    isAscii c = true ∧ (c = '%' ∨ alwaysSafe c = true ∨ safe c = true) := by
  obtain ⟨b, -, hc⟩ := List.mem_flatMap.1 h
  exact mem_quoteByte hc

/-- **Quoting loses nothing.** -/
theorem unquote_quote (hsafe : safe '%' = false) (s : Str) : unquote (quote safe s) = s := by
  have hbytes : unquoteToBytes (quote safe s) = encodeUtf8 s := unquoteToBytes_flatMap hsafe _
  have hascii : allAscii (quote safe s) = true := by
    rw [allAscii, List.all_eq_true]
    exact fun c hc => (mem_quote hc).1
  unfold unquote
  split_ifs with h
  · have hne : quote safe s ≠ [] := List.ne_nil_of_mem h
    -- one run of ASCII characters
    have hrun : (quote safe s).splitBy (fun c d => isAscii c = isAscii d) = [quote safe s] := by
      refine List.splitBy_of_isChain hne (List.Pairwise.isChain ?_)
      refine List.pairwise_of_forall_mem_list fun c hc d hd => ?_
      simp [(mem_quote hc).1, (mem_quote hd).1]
    rw [hrun, List.flatMap_singleton, if_pos hascii, hbytes, decodeUtf8_encodeUtf8]
  · rw [unquoteToBytes_of_not_mem h] at hbytes
    rw [← decodeUtf8_encodeUtf8 (quote safe s), hbytes, decodeUtf8_encodeUtf8]

/-! ## Quoted texts -/

/-- The text is the quotation of some text. -/
def Quoted (safe : Char → Bool) (s : Str) : Prop := ∃ d, s = quote safe d

@[simp] theorem quote_nil : quote safe [] = [] := rfl

theorem quote_append (s t : Str) : quote safe (s ++ t) = quote safe s ++ quote safe t := by
  simp [quote, encodeUtf8]

theorem quote_cons (c : Char) (s : Str) : quote safe (c :: s) = quote safe [c] ++ quote safe s :=
  quote_append [c] s

/-- A text that is quoted already is quoted as itself. -/
theorem Quoted.requote (hsafe : safe '%' = false) {s : Str} (h : Quoted safe s) :
    quote safe (unquote s) = s := by
  obtain ⟨d, rfl⟩ := h
  rw [unquote_quote hsafe]

theorem Quoted.append {s t : Str} (hs : Quoted safe s) (ht : Quoted safe t) :
    Quoted safe (s ++ t) := by
  obtain ⟨d, rfl⟩ := hs
  obtain ⟨e, rfl⟩ := ht
  exact ⟨d ++ e, (quote_append d e).symm⟩

theorem quoted_singleton {c : Char} (h : isAscii c = true) (hc : safe c = true) :
    Quoted safe [c] := by
  have hlt : c.toNat < 128 := by simpa [isAscii] using h
  have hbyte := utf8EncodeChar_ofNat c.toNat hlt
  rw [Char.ofNat_toNat] at hbyte
  have hnat : (UInt8.ofNat c.toNat).toNat = c.toNat := by
    rw [UInt8.toNat_ofNat']
    omega
  refine ⟨[c], ?_⟩
  have hquote : quoteByte safe (UInt8.ofNat c.toNat) = [c] := by
    unfold quoteByte
    simp only [hnat, Char.ofNat_toNat]
    refine if_pos ⟨?_, .inr hc⟩
    rw [UInt8.lt_iff_toNat_lt, hnat]
    exact hlt
  simp [quote, encodeUtf8, hbyte, hquote]

theorem Quoted.intercalate {sep : Char} (hsep : Quoted safe [sep]) {segments : List Str}
    (h : ∀ s ∈ segments, Quoted safe s) : Quoted safe ([sep].intercalate segments) := by
  induction segments with
  | nil => exact ⟨[], rfl⟩
  | cons s rest ih =>
    rcases rest with _ | ⟨t, rest⟩
    · rw [List.intercalate_singleton]
      exact h s (List.mem_cons_self ..)
    · rw [List.intercalate_cons_cons]
      refine (Quoted.append (h s (List.mem_cons_self ..)) hsep).append (ih fun s' hs' => ?_)
      exact h s' (List.mem_cons_of_mem _ hs')

/-- A byte that stands for an ASCII character stands alone. -/
theorem eq_of_ascii_mem_utf8EncodeChar {c : Char} {b : UInt8} (h : b ∈ String.utf8EncodeChar c)
    (hb : b.toNat < 128) : c = Char.ofNat b.toNat := by
  unfold String.utf8EncodeChar at h
  dsimp only at h
  split_ifs at h with h₁ h₂ h₃
  · rw [List.mem_singleton.1 h, UInt8.toNat_ofNat', Nat.mod_eq_of_lt (by omega)]
    exact (Char.ofNat_toNat c).symm
  -- a byte of a longer sequence has its first bit set
  all_goals
    simp only [List.mem_cons, List.not_mem_nil, or_false] at h
    exfalso
  · rcases h with rfl | rfl <;> rw [UInt8.toNat_ofNat'] at hb <;> omega
  · rcases h with rfl | rfl | rfl <;> rw [UInt8.toNat_ofNat'] at hb <;> omega
  · rcases h with rfl | rfl | rfl | rfl <;> rw [UInt8.toNat_ofNat'] at hb <;> omega

/-- A character that is no hexadecimal digit stands in a quotation only for itself. -/
theorem mem_quote_singleton {c d : Char} (h : d ∈ quote safe [c])
    (hd : d ≠ '%' ∧ ∀ n < 16, hexDigit n ≠ d) : c = d := by
  rw [quote, List.mem_flatMap] at h
  obtain ⟨b, hb, hmem⟩ := h
  have hlt : b.toNat < 256 := b.toNat_lt
  unfold quoteByte at hmem
  dsimp only at hmem
  split_ifs at hmem with hsafe
  · rw [List.mem_singleton.1 hmem]
    refine eq_of_ascii_mem_utf8EncodeChar ?_ hsafe.1
    simpa [encodeUtf8] using hb
  · simp only [List.mem_cons, List.not_mem_nil, or_false] at hmem
    rcases hmem with rfl | rfl | rfl
    · exact absurd rfl hd.1
    · exact absurd rfl (hd.2 _ (by omega))
    · exact absurd rfl (hd.2 _ (by omega))

/-- What is no percent sign is decoded to itself at the head of a text. -/
theorem head?_unquote {c : Char} (h : c ≠ '%') (s : Str) : (unquote (c :: s)).head? = some c := by
  unfold unquote
  split_ifs with hpercent
  · -- the first run begins with the character
    rcases hruns : (c :: s).splitBy (fun c d => isAscii c = isAscii d) with _ | ⟨run, runs⟩
    · exact absurd hruns (List.splitBy_ne_nil.2 (List.cons_ne_nil _ _))
    have hflat := List.flatten_splitBy (fun c d => decide (isAscii c = isAscii d)) (c :: s)
    have hrun : run ≠ [] := List.ne_nil_of_mem_splitBy (hruns ▸ List.mem_cons_self ..)
    rcases run with _ | ⟨d, run⟩
    · exact absurd rfl hrun
    rw [hruns, List.flatten_cons, List.cons_append] at hflat
    cases (List.cons.inj hflat).1
    rw [List.flatMap_cons]
    split_ifs with hascii
    · have hbytes : unquoteToBytes (c :: run) = String.utf8EncodeChar c ++ unquoteToBytes run := by
        rw [unquoteToBytes.eq_def]
        simp only [if_neg h]
      have hlength : (unquoteToBytes (c :: run)).length =
          (c.utf8Size - 1 + (unquoteToBytes run).length) + 1 := by
        rw [hbytes, List.length_append, String.length_utf8EncodeChar]
        have := c.utf8Size_pos
        omega
      rw [decodeUtf8, hlength, hbytes, decodeUtf8Upto_encodeChar]
      rfl
    · rfl
  · rfl

/-- The parts of a quoted text are the quotations of the parts. -/
theorem splitOn_quote {sep : Char} (hsep : quote safe [sep] = [sep])
    (hother : ∀ c, c ≠ sep → sep ∉ quote safe [c]) (s : Str) :
    (quote safe s).splitOn sep = (s.splitOn sep).map (quote safe) := by
  induction s with
  | nil => rfl
  | cons c s ih =>
    rw [quote_cons, List.splitOn_cons_eq_if_modifyHead]
    by_cases hc : c = sep
    · rw [hc, hsep, if_pos (by simp), List.map_cons, ← ih]
      exact List.splitOn_append_cons_self_of_not_mem (List.not_mem_nil) _
    · rw [if_neg (by simpa using hc), splitOn_append_of_not_mem (hother c hc), ih]
      rcases s.splitOn sep with _ | ⟨head, tail⟩
      · rfl
      · exact congrArg (· :: _) (quote_cons c head).symm

end ScamOn.Percent
