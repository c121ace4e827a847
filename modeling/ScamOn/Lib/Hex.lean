import ScamOn.Lib.Percent

/-!
# Bytes in hexadecimal

* `toHex` is `bytes.hex()`: two lower-case digits for each byte.
* `fromHex` is `bytes.fromhex()`, which takes digits of either case and blanks between the
  bytes; `none` is `ValueError`.
* `fromHex_toHex` is the round trip.
-/

namespace ScamOn.Hex

/-- The digits of a byte. -/
def hexByte (b : UInt8) : Str := [Nat.digitChar (b.toNat / 16), Nat.digitChar (b.toNat % 16)]

/-- `b.hex()`. -/
def toHex (bytes : List UInt8) : Str := bytes.flatMap hexByte

/-- A blank of ASCII. -/
def isBlank (c : Char) : Bool := c = ' ' ∨ (9 ≤ c.toNat ∧ c.toNat ≤ 13)

/-- `bytes.fromhex(s)`. -/
def fromHex : Str → Option (List UInt8)
  | [] => some []
  | c :: s =>
    if isBlank c then fromHex s
    else
      match s with
      | [] => none
      | d :: rest => do
        let high ← Percent.hexValue? c
        let low ← Percent.hexValue? d
        let bytes ← fromHex rest
        return UInt8.ofNat (16 * high + low) :: bytes

theorem hexValue?_digitChar : ∀ n < 16, Percent.hexValue? (Nat.digitChar n) = some n := by
  decide

theorem isBlank_digitChar : ∀ n < 16, isBlank (Nat.digitChar n) = false := by
  decide

theorem digitChar_ne_dollar : ∀ n < 16, Nat.digitChar n ≠ '$' := by
  decide

theorem fromHex_toHex (bytes : List UInt8) : fromHex (toHex bytes) = some bytes := by
  induction bytes with
  | nil => rfl
  | cons b bytes ih =>
    have hb : b.toNat < 256 := b.toNat_lt
    have hhigh : b.toNat / 16 < 16 := by omega
    have hlow : b.toNat % 16 < 16 := by omega
    show fromHex (Nat.digitChar (b.toNat / 16) :: Nat.digitChar (b.toNat % 16) :: toHex bytes) = _
    rw [fromHex, isBlank_digitChar _ hhigh]
    simp only [Bool.false_eq_true, if_false, hexValue?_digitChar _ hhigh, hexValue?_digitChar _ hlow,
      ih]
    exact congrArg (fun x => some (x :: bytes)) (Percent.byte_div_mod b)

/-- Hexadecimal digits are no separators. -/
theorem dollar_not_mem_toHex (bytes : List UInt8) : '$' ∉ toHex bytes := by
  intro hmem
  obtain ⟨b, -, hb⟩ := List.mem_flatMap.1 hmem
  have hlt : b.toNat < 256 := b.toNat_lt
  rcases List.mem_cons.1 hb with heq | hrest
  · exact digitChar_ne_dollar _ (by omega) heq.symm
  · exact digitChar_ne_dollar _ (Nat.mod_lt _ (by omega)) (List.mem_singleton.1 hrest).symm

end ScamOn.Hex
