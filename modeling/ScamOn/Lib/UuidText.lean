import ScamOn.Lib.Hex
import ScamOn.Lib.Pattern

/-!
# Texts of identifiers

`uuid.UUID(text)`: many texts are accepted for one identifier.

* `Uuid.ofText?` takes the prefixes `urn:` and `uuid:`, braces and hyphens away and reads what is
  left, 32 characters, as `int(hex, 16)` does.
* `ofText?_chars`: the canonical text of an identifier is read back.
-/

namespace ScamOn

/-! ## Numbers in hexadecimal -/

namespace Hex

open Text

/-- A character as `int` reads it: the digits and blanks of every script are those of ASCII. -/
def toAscii (c : Char) : Char :=
  if c.toNat < 128 then c
  else if isSpace c then ' '
  else
    match decimalDigit? c with
    | some d => Nat.digitChar d
    | none => '?'

/-- Digits with single underscores between them; the flag says whether the character before was
a digit. -/
def digits? : Bool → ℕ → Str → Option ℕ
  | afterDigit, acc, [] => if afterDigit then some acc else none
  | afterDigit, acc, c :: s =>
    if c = '_' then if afterDigit then digits? false acc s else none
    else
      match Percent.hexValue? c with
      | some d => digits? true (16 * acc + d) s
      | none => none

/-- The prefix `0x`, and one underscore behind it. -/
def dropPrefix : Str → Str
  | '0' :: x :: s =>
    if x = 'x' ∨ x = 'X' then
      match s with
      | '_' :: s => s
      | s => s
    else '0' :: x :: s
  | s => s

/-- `int(s, 16)` of a text without a minus sign; `none` is `ValueError`. -/
def int? (s : Str) : Option ℕ :=
  let s := match trim isBlank (s.map toAscii) with
    | '+' :: s => s
    | s => s
  digits? false 0 (dropPrefix s)

/-- The characters that mean something to `int` or `UUID` and are no digits. -/
def marks : Str := ['+', '-', '_', 'x', 'X', 'u', '{', '}']

theorem digitChar_plain : ∀ n < 16, toAscii (Nat.digitChar n) = Nat.digitChar n ∧
    isBlank (Nat.digitChar n) = false ∧ isSpace (Nat.digitChar n) = false ∧
    Nat.digitChar n ∉ marks := by
  decide

theorem exists_digitChar {w n : ℕ} {c : Char} (h : c ∈ hexDigits w n) :
    ∃ d < 16, c = Nat.digitChar d := by
  induction w generalizing n with
  | zero => cases h
  | succ w ih =>
    rcases List.mem_append.1 h with h | h
    · exact ih h
    · exact ⟨n % 16, Nat.mod_lt _ (by decide), List.mem_singleton.1 h⟩

theorem not_mem_hexDigits {w n : ℕ} {c : Char} (hc : c ∈ marks) : c ∉ hexDigits w n := by
  intro hmem
  obtain ⟨d, hd, rfl⟩ := exists_digitChar hmem
  exact (digitChar_plain d hd).2.2.2 hc

/-- One digit more. -/
theorem digits?_concat {d : ℕ} (hd : d < 16) {s : Str} {b : Bool} {acc v : ℕ}
    (h : digits? b acc s = some v) : digits? b acc (s ++ [Nat.digitChar d]) = some (16 * v + d) := by
  have hne : Nat.digitChar d ≠ '_' := fun heq =>
    (digitChar_plain d hd).2.2.2 (by rw [heq]; decide)
  induction s generalizing b acc with
  | nil =>
    cases b with
    | false => cases h
    | true =>
      cases h
      rw [List.nil_append, digits?, if_neg hne, hexValue?_digitChar d hd]
      rfl
  | cons c s ih =>
    rw [List.cons_append, digits?]
    rw [digits?] at h
    by_cases hc : c = '_'
    · rw [if_pos hc] at h ⊢
      cases b with
      | false => cases h
      | true => exact ih h
    · rw [if_neg hc] at h ⊢
      cases hv : Percent.hexValue? c with
      | none =>
        rw [hv] at h
        cases h
      | some e =>
        rw [hv] at h
        exact ih h

theorem digits?_hexDigits {w n : ℕ} (hn : n < 16 ^ (w + 1)) :
    digits? false 0 (hexDigits (w + 1) n) = some n := by
  induction w generalizing n with
  | zero =>
    have hlt : n < 16 := hn
    have hne : Nat.digitChar n ≠ '_' := fun heq =>
      (digitChar_plain n hlt).2.2.2 (by rw [heq]; decide)
    rw [hexDigits, hexDigits, List.nil_append, Nat.mod_eq_of_lt hlt, digits?, if_neg hne,
      hexValue?_digitChar n hlt]
    simp [digits?]
  | succ w ih =>
    have hdiv : n / 16 < 16 ^ (w + 1) := by
      rw [pow_succ] at hn
      omega
    rw [hexDigits, digits?_concat (Nat.mod_lt n (by decide)) (ih hdiv), Nat.div_add_mod]

theorem dropPrefix_of_not_mem {s : Str} (hx : 'x' ∉ s) (hX : 'X' ∉ s) : dropPrefix s = s := by
  unfold dropPrefix
  split
  · rename_i x rest
    rw [if_neg]
    rintro (rfl | rfl)
    · exact hx (by simp)
    · exact hX (by simp)
  · rfl

/-- **`int` reads the digits of a number.** -/
theorem int?_hexDigits {w n : ℕ} (hn : n < 16 ^ (w + 1)) : int? (hexDigits (w + 1) n) = some n := by
  have hplain : ∀ c ∈ hexDigits (w + 1) n, toAscii c = c ∧ isBlank c = false := by
    intro c hc
    obtain ⟨d, hd, rfl⟩ := exists_digitChar hc
    exact ⟨(digitChar_plain d hd).1, (digitChar_plain d hd).2.1⟩
  have hmap : (hexDigits (w + 1) n).map toAscii = hexDigits (w + 1) n :=
    (List.map_congr_left fun c hc => (hplain c hc).1).trans (List.map_id _)
  have htrim := trim_eq_self fun c hc => (hplain c hc).2
  have hdropped : dropPrefix (hexDigits (w + 1) n) = hexDigits (w + 1) n :=
    dropPrefix_of_not_mem (not_mem_hexDigits (by decide)) (not_mem_hexDigits (by decide))
  rw [int?]
  simp only [hmap, htrim]
  split
  · rename_i rest heq
    exact absurd (heq ▸ List.mem_cons_self) (not_mem_hexDigits (c := '+') (w := w + 1) (n := n)
      (by decide))
  · rw [hdropped, digits?_hexDigits hn]

end Hex

/-! ## Reading identifiers -/

namespace Uuid

open Text Hex

/-- `s.strip('{}')`. -/
def stripBraces (s : Str) : Str := trim (fun c => c = '{' ∨ c = '}') s

/-- The digits that `UUID` reads: `s.replace('urn:', '').replace('uuid:', '').strip('{}')`, and no
hyphens. -/
def textDigits (s : Str) : Str :=
  let s := Pattern.sub (Pattern.lit "urn:") [] s
  let s := Pattern.sub (Pattern.lit "uuid:") [] s
  (stripBraces s).filter (· ≠ '-')

/-- `UUID(s)`; `none` is `ValueError`. -/
def ofText? (s : Str) : Option Uuid :=
  let hex := textDigits s
  if hex.length ≠ 32 then none
  else
    match int? hex with
    | some n => if n < 2 ^ 128 then some ⟨BitVec.ofNat 128 n⟩ else none
    | none => none

theorem mem_hyphenate {h : Str} {c : Char} (hc : c ∈ hyphenate h) : c = '-' ∨ c ∈ h := by
  have hgroup : ∀ i, c ∈ (h.drop i).take 4 → c ∈ h := fun _ hc =>
    List.mem_of_mem_drop (List.mem_of_mem_take hc)
  have hfirst : c ∈ h.take 8 → c ∈ h := List.mem_of_mem_take
  have hlast : c ∈ h.drop 20 → c ∈ h := List.mem_of_mem_drop
  rw [hyphenate] at hc
  simp only [List.mem_append, List.mem_cons] at hc
  tauto

theorem filter_hyphenate {h : Str} (hh : '-' ∉ h) : (hyphenate h).filter (· ≠ '-') = h := by
  have hself : ∀ {l : Str}, l ⊆ h → l.filter (· ≠ '-') = l := by
    intro l hl
    rw [List.filter_eq_self]
    intro c hc
    exact decide_eq_true fun heq => hh (heq ▸ hl hc)
  have hgroup : ∀ i, ((h.drop i).take 4).filter (· ≠ '-') = (h.drop i).take 4 := fun i =>
    hself fun _ hc => List.mem_of_mem_drop (List.mem_of_mem_take hc)
  have hhyphen : ∀ l : Str, ('-' :: l).filter (· ≠ '-') = l.filter (· ≠ '-') := fun _ => rfl
  rw [hyphenate]
  simp only [List.filter_append, hhyphen, hgroup, hself (List.take_subset _ _),
    hself (List.drop_subset _ _)]
  exact groups_append h

theorem not_mem_chars {u : Uuid} {c : Char} (hc : c ∈ marks) (hne : c ≠ '-') : c ∉ u.chars := by
  intro hmem
  rcases mem_hyphenate hmem with heq | hdigit
  · exact hne heq
  · exact not_mem_hexDigits hc hdigit

theorem textDigits_chars (u : Uuid) : textDigits u.chars = hexDigits 32 u.int.toNat := by
  have hurn : Pattern.sub (Pattern.lit "urn:") [] u.chars = u.chars :=
    Pattern.sub_lit_of_not_mem (l := "rn:".toList) rfl (not_mem_chars (by decide) (by decide))
  have huuid : Pattern.sub (Pattern.lit "uuid:") [] u.chars = u.chars :=
    Pattern.sub_lit_of_not_mem (l := "uid:".toList) rfl (not_mem_chars (by decide) (by decide))
  have hbraces : stripBraces u.chars = u.chars := by
    refine trim_eq_self fun c hc => decide_eq_false ?_
    rintro (rfl | rfl)
    · exact not_mem_chars (by decide) (by decide) hc
    · exact not_mem_chars (by decide) (by decide) hc
  rw [textDigits, hurn, huuid, hbraces]
  exact filter_hyphenate (not_mem_hexDigits (by decide))

/-- **The canonical text is read back.** -/
theorem ofText?_chars (u : Uuid) : ofText? u.chars = some u := by
  have hlt : u.int.toNat < 16 ^ (31 + 1) := lt_of_lt_of_eq u.int.isLt (by norm_num)
  have hint : int? (hexDigits 32 u.int.toNat) = some u.int.toNat := int?_hexDigits hlt
  rw [ofText?]
  simp only [textDigits_chars, length_hexDigits, hint]
  rw [if_neg (by decide), if_pos u.int.isLt, BitVec.ofNat_toNat, BitVec.setWidth_eq]

example : ofText? "urn:uuid:\x7b12345678-1234-5678-1234-56781234567A\x7d".toList =
    ofText? "1234567812345678123456781234567a".toList := by
  decide +kernel

/-- There are no blanks around a canonical text. -/
theorem strip_str (u : Uuid) : strip u.str = u.str := by
  have hspace : ∀ c ∈ u.chars, isSpace c = false := by
    intro c hc
    rcases mem_hyphenate hc with rfl | hdigit
    · decide
    · obtain ⟨d, hd, rfl⟩ := exists_digitChar hdigit
      exact (digitChar_plain d hd).2.2.1
  rw [strip, toList_str, trim_eq_self hspace, str]

end Uuid
end ScamOn
