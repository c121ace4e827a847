import Mathlib.Data.Nat.Digits.Defs
import ScamOn.Lib.Rounding

/-!
# Fixed-point texts

`f"{q:.nf}"` writes a number with a fixed count of digits behind the point, rounded half to even.

* `formatFixed` is the text.
* `mem_formatFixed`: it has digits, a point and a minus sign, and no other characters.
-/

namespace ScamOn

variable {K : Type*} [Field K] [LinearOrder K] [FloorRing K]

/-- The digits behind the point, with zeros in front. -/
def fraction (digits n : ℕ) : List Char :=
  let written := Nat.toDigits 10 (n % 10 ^ digits)
  List.replicate (digits - written.length) '0' ++ written

/-- `f"{q:.nf}"`. -/
def formatFixed (digits : ℕ) (q : K) : String :=
  let n := (roundHalfEven (q * (10 ^ digits : ℕ))).natAbs
  String.ofList ((if q < 0 then ['-'] else []) ++ Nat.toDigits 10 (n / 10 ^ digits) ++
    if digits = 0 then [] else '.' :: fraction digits n)

/-- What can be in a fixed-point text. -/
def IsFixedChar (c : Char) : Prop := c.isDigit ∨ c = '-' ∨ c = '.'

theorem mem_fraction {digits n : ℕ} {c : Char} (h : c ∈ fraction digits n) : c.isDigit := by
  rcases List.mem_append.1 h with h | h
  · rw [List.eq_of_mem_replicate h]
    decide
  · exact Nat.isDigit_of_mem_toDigits (by decide) (by decide) h

/-- **A fixed-point text** has no other characters than digits, the sign and the point. -/
theorem mem_formatFixed {digits : ℕ} {q : K} {c : Char} (h : c ∈ (formatFixed digits q).toList) :
    IsFixedChar c := by
  rw [formatFixed, String.toList_ofList, List.mem_append, List.mem_append] at h
  rcases h with (h | h) | h
  · split_ifs at h
    · exact .inr (.inl (List.mem_singleton.1 h))
    · cases h
  · exact .inl (Nat.isDigit_of_mem_toDigits (by decide) (by decide) h)
  · split_ifs at h
    · cases h
    · rcases List.mem_cons.1 h with rfl | h
      · exact .inr (.inr rfl)
      · exact .inl (mem_fraction h)

end ScamOn
