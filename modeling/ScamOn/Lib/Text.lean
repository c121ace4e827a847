import Mathlib.Data.List.Basic
import Mathlib.Data.List.Infix
import Mathlib.Tactic.NormNum

/-!
# Text: separators, whitespace, integers, and the canonical form of a UUID

The string functions of the Python standard library that the program leans on,
and the facts that make its composite keys readable again.

* `append_cons_inj_right`, a text cut at its *last* separator: the two sides are
  determined as soon as the right-hand sides are free of the separator.
  `append_cons_inj_left` is the same for the *first* one.
* `strip` is `str.strip()`, `contains` is `in`; `asciiLower` and `asciiUpper` change
  the case of ASCII letters.
* `intOfStr?`, `intOfBytes?` and `strOfInt?` are Python's conversions between
  integers and text, with the limit on their length.
* `Uuid` is a 128-bit identifier and `Uuid.str` its canonical hyphenated form;
  the form has 36 characters, no colon, and determines the identifier
  (`Uuid.str_injective`).
-/

namespace ScamOn
namespace Text

/-! ## Cutting a text at a separator -/

/-- A text is cut at its last separator in only one way. -/
theorem append_cons_inj_right {α : Type*} {c : α} {a a' b b' : List α}
    (hb : c ∉ b) (hb' : c ∉ b') (h : a ++ c :: b = a' ++ c :: b') : a = a' ∧ b = b' := by
  rcases List.append_eq_append_iff.1 h with ⟨t, ht, ht'⟩ | ⟨t, ht, ht'⟩
  · cases t with
    | nil => exact ⟨by simpa using ht.symm, by simpa using ht'⟩
    | cons d t =>
      have hd : b = t ++ c :: b' := by simpa using (List.cons.inj ht').2
      exact absurd (by rw [hd]; simp) hb
  · cases t with
    | nil => exact ⟨by simpa using ht, by simpa using ht'.symm⟩
    | cons d t =>
      have hd : b' = t ++ c :: b := by simpa using (List.cons.inj ht').2
      exact absurd (by rw [hd]; simp) hb'

/-- A text is cut at its first separator in only one way. -/
theorem append_cons_inj_left {α : Type*} {c : α} {a a' b b' : List α}
    (ha : c ∉ a) (ha' : c ∉ a') (h : a ++ c :: b = a' ++ c :: b') : a = a' ∧ b = b' := by
  have hreverse : b.reverse ++ c :: a.reverse = b'.reverse ++ c :: a'.reverse := by
    simpa using congrArg List.reverse h
  obtain ⟨hb, ha⟩ := append_cons_inj_right (by simpa using ha) (by simpa using ha') hreverse
  exact ⟨List.reverse_inj.1 ha, List.reverse_inj.1 hb⟩

/-! ## Whitespace -/

/-- The code points `str.isspace` accepts. -/
def whitespace : List Nat :=
  [0x9, 0xa, 0xb, 0xc, 0xd, 0x1c, 0x1d, 0x1e, 0x1f, 0x20, 0x85, 0xa0, 0x1680, 0x2000, 0x2001,
    0x2002, 0x2003, 0x2004, 0x2005, 0x2006, 0x2007, 0x2008, 0x2009, 0x200a, 0x2028, 0x2029,
    0x202f, 0x205f, 0x3000]

/-- `c.isspace()`. -/
def isSpace (c : Char) : Bool := whitespace.contains c.toNat

/-- A text without the blanks at its ends. -/
def trim (blank : Char → Bool) (s : List Char) : List Char :=
  ((s.dropWhile blank).reverse.dropWhile blank).reverse

/-- `s.strip()`. -/
def strip (s : String) : String := String.ofList (trim isSpace s.toList)

/-- A text without blanks has none at its ends. -/
theorem trim_eq_self {blank : Char → Bool} {s : List Char} (h : ∀ c ∈ s, blank c = false) :
    trim blank s = s := by
  have hdrop : ∀ l : List Char, (∀ c ∈ l, blank c = false) → l.dropWhile blank = l := by
    intro l hl
    cases l with
    | nil => rfl
    | cons c l => rw [List.dropWhile_cons_of_neg (by simp [hl c (List.mem_cons_self ..)])]
  have hreverse : ∀ c ∈ s.reverse, blank c = false := fun c hc => h c (List.mem_reverse.1 hc)
  rw [trim, hdrop s h, hdrop _ hreverse, List.reverse_reverse]

/-! ## Case and parts -/

/-- `s.lower()`, for a text of ASCII characters. -/
def asciiLower (s : String) : String := String.ofList (s.toList.map Char.toLower)

/-- `s.upper()`, for a text of ASCII characters. -/
def asciiUpper (s : String) : String := String.ofList (s.toList.map Char.toUpper)

/-- `part in s`. -/
def contains (s part : String) : Bool := decide (part.toList <:+: s.toList)

/-! ## Integers -/

/-- The zeros of the decimal digit ranges that `int` accepts in a text. -/
def decimalZeros : List Nat :=
  [0x30, 0x660, 0x6f0, 0x7c0, 0x966, 0x9e6, 0xa66, 0xae6, 0xb66, 0xbe6, 0xc66, 0xce6, 0xd66,
    0xde6, 0xe50, 0xed0, 0xf20, 0x1040, 0x1090, 0x17e0, 0x1810, 0x1946, 0x19d0, 0x1a80, 0x1a90,
    0x1b50, 0x1bb0, 0x1c40, 0x1c50, 0xa620, 0xa8d0, 0xa900, 0xa9d0, 0xa9f0, 0xaa50, 0xabf0,
    0xff10, 0x104a0, 0x10d30, 0x11066, 0x110f0, 0x11136, 0x111d0, 0x112f0, 0x11450, 0x114d0,
    0x11650, 0x116c0, 0x11730, 0x118e0, 0x11950, 0x11c50, 0x11d50, 0x11da0, 0x11f50, 0x16a60,
    0x16ac0, 0x16b50, 0x1d7ce, 0x1d7d8, 0x1d7e2, 0x1d7ec, 0x1d7f6, 0x1e140, 0x1e2f0, 0x1e4f0,
    0x1e950, 0x1fbf0]

/-- The value of a decimal digit of any script. -/
def decimalDigit? (c : Char) : Option Nat :=
  (decimalZeros.find? fun z => z ≤ c.toNat ∧ c.toNat < z + 10).map (c.toNat - ·)

/-- The longest text, in digits, that Python converts from or to an integer. -/
def intMaxStrDigits : Nat := 4300

/-- Digits with single underscores between them; the flag says whether the
character before was a digit. -/
def parseDigits (digit? : Char → Option Nat) : Bool → Nat → List Char → Option Nat
  | afterDigit, acc, [] => if afterDigit then some acc else none
  | afterDigit, acc, c :: cs =>
    if c = '_' then if afterDigit then parseDigits digit? false acc cs else none
    else
      match digit? c with
      | some d => parseDigits digit? true (10 * acc + d) cs
      | none => none

/-- An optional sign, then digits. -/
def parseInt? (digit? : Char → Option Nat) : List Char → Option Int
  | [] => none
  | c :: cs =>
    let digits := if c = '+' ∨ c = '-' then cs else c :: cs
    if intMaxStrDigits < (digits.filter (· ≠ '_')).length then none
    else
      (parseDigits digit? false 0 digits).map fun n => if c = '-' then -(n : Int) else n

/-- The blanks that `int` skips: white space but for the four separators. -/
def isIntBlank (c : Char) : Bool := isSpace c && !(0x1c ≤ c.toNat && c.toNat ≤ 0x1f)

/-- `int(s)` for a text; `none` is `ValueError`. -/
def intOfStr? (s : String) : Option Int := parseInt? decimalDigit? (trim isIntBlank s.toList)

example : intOfStr? " -1_0 " = some (-10) ∧ intOfStr? (String.ofList [Char.ofNat 28, '5']) = none := by
  decide +kernel

/-- `int(b)` for bytes, which reads ASCII digits and blanks only. -/
def intOfBytes? (b : ByteArray) : Option Int :=
  let blank : Char → Bool := fun c => c = ' ' ∨ (9 ≤ c.toNat ∧ c.toNat ≤ 13)
  let chars := b.data.toList.map fun u => Char.ofNat u.toNat
  parseInt? (fun c => if c.isDigit then some (c.toNat - 48) else none)
    (trim blank chars)

/-- `str(n)`; `none` is the `ValueError` for an integer that is too long. -/
def strOfInt? (n : Int) : Option String :=
  if intMaxStrDigits < (Nat.toDigits 10 n.natAbs).length then none else some (toString n)

/-- Equality of byte strings, by the one instance that is always there. -/
instance decidableEqByteArray : DecidableEq ByteArray := ByteArray.instDecidableEq

end Text

/-- `s.strip()`, for the characters of a text. -/
def Chars.strip (s : List Char) : List Char := Text.trim Text.isSpace s

theorem Text.strip_ofList (s : List Char) :
    Text.strip (String.ofList s) = String.ofList (Chars.strip s) := by
  rw [Text.strip, String.toList_ofList, Chars.strip]

namespace Text

/-! ## Canonical UUIDs -/

/-- The last `w` hexadecimal digits of `n`, most significant first. -/
def hexDigits : Nat → Nat → List Char
  | 0, _ => []
  | w + 1, n => hexDigits w (n / 16) ++ [Nat.digitChar (n % 16)]

@[simp] theorem length_hexDigits (w n : Nat) : (hexDigits w n).length = w := by
  induction w generalizing n with
  | zero => rfl
  | succ w ih => simp [hexDigits, ih]

theorem digitChar_inj : ∀ d < 16, ∀ e < 16, Nat.digitChar d = Nat.digitChar e → d = e := by
  decide

theorem hexDigits_inj {w n m : Nat} (hn : n < 16 ^ w) (hm : m < 16 ^ w)
    (h : hexDigits w n = hexDigits w m) : n = m := by
  induction w generalizing n m with
  | zero =>
    rw [pow_zero] at hn hm
    omega
  | succ w ih =>
    obtain ⟨hhigh, hlow⟩ := List.append_inj h (by simp)
    rw [pow_succ] at hn hm
    have hdiv : n / 16 = m / 16 := ih (by omega) (by omega) hhigh
    have hmod : n % 16 = m % 16 :=
      digitChar_inj _ (Nat.mod_lt _ (by norm_num)) _ (Nat.mod_lt _ (by norm_num))
        (List.cons.inj hlow).1
    omega

end Text

/-- A 128-bit identifier. -/
structure Uuid where
  /-- The identifier as an integer. -/
  int : BitVec 128
  deriving DecidableEq

namespace Uuid

open Text

/-- Five groups of a list of 32 digits, joined by hyphens. -/
def hyphenate (h : List Char) : List Char :=
  h.take 8 ++ '-' :: ((h.drop 8).take 4 ++ '-' :: ((h.drop 12).take 4 ++ '-' ::
    ((h.drop 16).take 4 ++ '-' :: h.drop 20)))

/-- The canonical form, as characters. -/
def chars (u : Uuid) : List Char := hyphenate (hexDigits 32 u.int.toNat)

/-- `str(u)`. -/
def str (u : Uuid) : String := String.ofList u.chars

/-- The identifier `n`, for examples. -/
def ofNat (n : Nat) : Uuid := ⟨BitVec.ofNat 128 n⟩

@[simp] theorem toList_str (u : Uuid) : u.str.toList = u.chars := String.toList_ofList

theorem length_chars (u : Uuid) : u.chars.length = 36 := by
  simp [chars, hyphenate]

/-- The groups of a list, put together again. -/
theorem groups_append (h : List Char) :
    h.take 8 ++ ((h.drop 8).take 4 ++ ((h.drop 12).take 4 ++ ((h.drop 16).take 4 ++ h.drop 20)))
      = h := by
  have hdrop : ∀ i, (h.drop i).take 4 ++ h.drop (i + 4) = h.drop i := fun i => by
    rw [← List.drop_drop, List.take_append_drop]
  rw [hdrop 16, hdrop 12, hdrop 8, List.take_append_drop]

theorem hyphenate_inj {h h' : List Char} (hl : h.length = 32) (hl' : h'.length = 32)
    (heq : hyphenate h = hyphenate h') : h = h' := by
  obtain ⟨h₁, heq⟩ := List.append_inj heq (by simp [hl, hl'])
  obtain ⟨h₂, heq⟩ := List.append_inj (List.cons.inj heq).2 (by simp [hl, hl'])
  obtain ⟨h₃, heq⟩ := List.append_inj (List.cons.inj heq).2 (by simp [hl, hl'])
  obtain ⟨h₄, heq⟩ := List.append_inj (List.cons.inj heq).2 (by simp [hl, hl'])
  rw [← groups_append h, ← groups_append h', h₁, h₂, h₃, h₄, (List.cons.inj heq).2]

/-- The canonical form determines the identifier. -/
theorem chars_injective : Function.Injective chars := by
  intro u v h
  have hlt : ∀ w : Uuid, w.int.toNat < 16 ^ 32 := fun w =>
    lt_of_lt_of_eq w.int.isLt (by norm_num)
  have hdigits := hyphenate_inj (length_hexDigits _ _) (length_hexDigits _ _) h
  have hint : u.int = v.int := BitVec.eq_of_toNat_eq (hexDigits_inj (hlt u) (hlt v) hdigits)
  cases u
  cases v
  exact congrArg Uuid.mk hint

theorem str_injective : Function.Injective str := fun _ _ h =>
  chars_injective (by simpa using congrArg String.toList h)

/-- A canonical form and what follows it can be told apart: it has a fixed length. -/
theorem chars_append_inj {u v : Uuid} {l m : List Char} (h : u.chars ++ l = v.chars ++ m) :
    u = v ∧ l = m := by
  obtain ⟨huv, hlm⟩ := List.append_inj h (by rw [length_chars, length_chars])
  exact ⟨chars_injective huv, hlm⟩

end Uuid
end ScamOn
