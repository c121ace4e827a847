import ScamOn.Analyzers.Url.Normalizer
import ScamOn.Lib.PercentTokens

/-!
# What percent-encoding normalisation keeps

`_normalize_percent_encoding` is documented to decode the unreserved characters and to write the
other escapes in upper case.  It decodes everything and encodes again.

* `normalizedEncoding` is the documented result, token by token.
* `encoding_iff`: the code gives it exactly if the escapes of every run of ASCII characters are
  UTF-8 and none of them stands for a reserved character that the path may hold.
-/

namespace ScamOn.Analyzers
namespace Url

open Chars Percent

/-! ## The documented result -/

/-- The octet is an unreserved character. -/
def isUnreserved (byte : UInt8) : Bool := byte < 128 ∧ alwaysSafe (Char.ofNat byte.toNat)

/-- The octet is a character that may stand in a path and is not unreserved. -/
def isReservedSafe (byte : UInt8) : Bool :=
  byte < 128 ∧ pathSafe (Char.ofNat byte.toNat) ∧ ¬alwaysSafe (Char.ofNat byte.toNat)

/-- An escape of an unreserved character is decoded, another one is written in upper case; a
character outside the safe set is escaped. -/
def normalizedToken : Token → Str
  | .escape a b byte =>
    if isUnreserved byte then [Char.ofNat byte.toNat] else ['%', a.toUpper, b.toUpper]
  | .char c => quote pathSafe [c]

def normalizedEncoding (path : Str) : Str := (tokens path).flatMap normalizedToken

/-- No escape stands for a reserved character that may stand in a path. -/
def ReservedKept (path : Str) : Prop :=
  ∀ a b byte, .escape a b byte ∈ tokens path → isReservedSafe byte = false

/-! ## Upper-case digits -/

theorem hexDigit_of_hexValue? {c : Char} {n : ℕ} (h : hexValue? c = some n) :
    n < 16 ∧ hexDigit n = c.toUpper := by
  have hascii : isAscii c = true := by
    by_contra hascii
    rw [hexValue?_of_not_ascii (by simpa using hascii)] at h
    cases h
  have hlt : c.toNat < 128 := by simpa [isAscii] using hascii
  have hdigits : ∀ n < 128, ∀ m ∈ hexValue? (Char.ofNat n),
      m < 16 ∧ hexDigit m = (Char.ofNat n).toUpper := by
    decide +kernel
  have hdigit := hdigits c.toNat hlt n
  rw [Char.ofNat_toNat] at hdigit
  exact hdigit h

theorem escape_mem_tokens {s : Str} {a b : Char} {byte : UInt8}
    (h : .escape a b byte ∈ tokens s) :
    ∃ x y, hexValue? a = some x ∧ hexValue? b = some y ∧ byte = UInt8.ofNat (16 * x + y) := by
  induction s using tokens_induction with
  | nil => exact absurd h List.not_mem_nil
  | escape a' b' x y rest hx hy ih =>
    rw [tokens_escape hx hy, List.mem_cons] at h
    rcases h with heq | h
    · cases heq
      exact ⟨x, y, hx, hy, rfl⟩
    · exact ih h
  | char c rest hnone ih =>
    rw [tokens_of_none hnone, List.mem_cons] at h
    rcases h with heq | h
    · cases heq
    · exact ih h

/-- An escape that is no unreserved character is written as `quote` writes its octet. -/
theorem normalizedToken_escape {s : Str} {a b : Char} {byte : UInt8}
    (h : .escape a b byte ∈ tokens s) :
    normalizedToken (.escape a b byte) = quoteByte (fun _ => false) byte := by
  obtain ⟨x, y, hx, hy, rfl⟩ := escape_mem_tokens h
  obtain ⟨hx16, hxdigit⟩ := hexDigit_of_hexValue? hx
  obtain ⟨hy16, hydigit⟩ := hexDigit_of_hexValue? hy
  have hbyte : (UInt8.ofNat (16 * x + y)).toNat = 16 * x + y := by
    rw [UInt8.toNat_ofNat', Nat.mod_eq_of_lt (by omega)]
  have hhigh : (16 * x + y) / 16 = x := by omega
  have hlow : (16 * x + y) % 16 = y := by omega
  unfold normalizedToken quoteByte isUnreserved
  simp only [hbyte, hhigh, hlow, hxdigit, hydigit, Bool.false_eq_true, or_false, decide_eq_true_eq]

/-! ## The octets -/

/-- Each token keeps its octets. -/
theorem unquoteToBytes_normalizedToken {s : Str} {token : Token} (h : token ∈ tokens s)
    (rest : Str) :
    unquoteToBytes (normalizedToken token ++ rest) = token.bytes ++ unquoteToBytes rest := by
  cases token with
  | escape a b byte =>
    rw [normalizedToken_escape h]
    exact unquoteToBytes_quoteByte rfl byte rest
  | char c =>
    have hbytes : encodeUtf8 [c] = String.utf8EncodeChar c := by simp [encodeUtf8]
    show unquoteToBytes ((encodeUtf8 [c]).flatMap (quoteByte pathSafe) ++ rest) = _
    rw [hbytes, unquoteToBytes_flatMap_append pathSafe_percent]
    rfl

/-- **The documented result denotes the octets of the path.** -/
theorem unquoteToBytes_normalizedEncoding (path : Str) :
    unquoteToBytes (normalizedEncoding path) = unquoteToBytes path := by
  have hpart : ∀ l : List Token, (∀ token ∈ l, token ∈ tokens path) →
      unquoteToBytes (l.flatMap normalizedToken) = l.flatMap Token.bytes := by
    intro l hl
    induction l with
    | nil => rfl
    | cons token l ih =>
      rw [List.flatMap_cons, List.flatMap_cons,
        unquoteToBytes_normalizedToken (hl token (List.mem_cons_self ..)),
        ih fun t ht => hl t (List.mem_cons_of_mem _ ht)]
  rw [normalizedEncoding, hpart _ fun _ h => h, unquoteToBytes_eq_flatMap]

/-- What the code makes of a path denotes the octets of what `unquote` makes of it. -/
theorem unquoteToBytes_normalizePercentEncoding (path : Str) :
    unquoteToBytes (normalizePercentEncoding path).1 = encodeUtf8 (unquote path) :=
  unquoteToBytes_flatMap pathSafe_percent _

/-! ## Token by token -/

theorem length_quoteByte_le (safe : Char → Bool) (byte : UInt8) :
    (quoteByte safe byte).length ≤ (quoteByte (fun _ => false) byte).length := by
  unfold quoteByte
  dsimp only
  split_ifs with hsafe halone
  · rfl
  · simp
  · next halone =>
    exact absurd ⟨halone.1, .inl (halone.2.resolve_right (by simp))⟩ hsafe
  · rfl

/-- Only a reserved character that may stand in a path is decoded against the documentation. -/
theorem quoteByte_pathSafe_iff (byte : UInt8) :
    quoteByte pathSafe byte = quoteByte (fun _ => false) byte ↔ isReservedSafe byte = false := by
  unfold quoteByte isReservedSafe
  dsimp only
  by_cases hlt : byte < 128
  · by_cases halways : alwaysSafe (Char.ofNat byte.toNat) = true
    · simp [hlt, halways]
    · by_cases hsafe : pathSafe (Char.ofNat byte.toNat) = true
      · simp [hlt, halways, hsafe]
      · simp [hlt, halways, hsafe]
  · simp [hlt]

/-- A token as the code writes it, where the octets are kept. -/
theorem token_eq_iff {s : Str} {token : Token} (h : token ∈ tokens s) :
    token.bytes.flatMap (quoteByte pathSafe) = normalizedToken token ↔
      ∀ a b byte, token = .escape a b byte → isReservedSafe byte = false := by
  cases token with
  | escape a b byte =>
    rw [normalizedToken_escape h, Token.bytes, List.flatMap_singleton, quoteByte_pathSafe_iff]
    constructor
    · intro hreserved a' b' byte' heq
      cases heq
      exact hreserved
    · exact fun hreserved => hreserved a b byte rfl
  | char c =>
    refine ⟨fun _ a b byte heq => absurd heq (by simp), fun _ => ?_⟩
    simp [Token.bytes, normalizedToken, quote, encodeUtf8]

theorem length_token_le {s : Str} {token : Token} (h : token ∈ tokens s) :
    (token.bytes.flatMap (quoteByte pathSafe)).length ≤ (normalizedToken token).length := by
  cases token with
  | escape a b byte =>
    rw [normalizedToken_escape h, Token.bytes, List.flatMap_singleton]
    exact length_quoteByte_le pathSafe byte
  | char c => exact le_of_eq (congrArg List.length ((token_eq_iff h).2 fun _ _ _ heq => by cases heq))

theorem normalizePercentEncoding_eq_iff (path : Str) :
    (normalizePercentEncoding path).1 = normalizedEncoding path ↔
      EscapesDecode path ∧ ReservedKept path := by
  have htokens : encodeUtf8 (unquote path) = unquoteToBytes path →
      (normalizePercentEncoding path).1 =
        (tokens path).flatMap fun token => token.bytes.flatMap (quoteByte pathSafe) := by
    intro hoctets
    show (encodeUtf8 (unquote path)).flatMap (quoteByte pathSafe) = _
    rw [hoctets, unquoteToBytes_eq_flatMap, List.flatMap_assoc]
  constructor
  · intro h
    -- equal texts denote equal octets
    have hoctets : encodeUtf8 (unquote path) = unquoteToBytes path := by
      rw [← unquoteToBytes_normalizePercentEncoding, h, unquoteToBytes_normalizedEncoding]
    rw [htokens hoctets] at h
    have hpieces := eq_of_flatMap_eq (fun _ => length_token_le) h
    refine ⟨(encodeUtf8_unquote_iff path).1 hoctets, fun a b byte hmem => ?_⟩
    exact (token_eq_iff hmem).1 (hpieces _ hmem) a b byte rfl
  · rintro ⟨hdecode, hreserved⟩
    rw [htokens ((encodeUtf8_unquote_iff path).2 hdecode)]
    refine List.flatMap_congr fun token htoken => (token_eq_iff htoken).2 ?_
    rintro a b byte rfl
    exact hreserved a b byte htoken

/-- **When percent-encoding normalisation does what it is documented to do**, for every path: the
octets stay and the text is the documented one. -/
theorem encoding_iff (path : Str) :
    (unquoteToBytes (normalizePercentEncoding path).1 = unquoteToBytes path ∧
        (normalizePercentEncoding path).1 = normalizedEncoding path) ↔
      EscapesDecode path ∧ ReservedKept path := by
  rw [← normalizePercentEncoding_eq_iff, and_iff_right_iff_imp]
  intro h
  rw [h, unquoteToBytes_normalizedEncoding]

/-- **An escaped slash** becomes a path separator. -/
theorem escaped_slash_decoded :
    (normalizePercentEncoding "/a%2Fb".toList).1 = "/a/b".toList ∧
      normalizedEncoding "/a%2Fb".toList = "/a%2Fb".toList ∧
      (normalizePercentEncoding "/a%2Fb".toList).1 ≠ normalizedEncoding "/a%2Fb".toList := by
  decide +kernel

end Url
end ScamOn.Analyzers
