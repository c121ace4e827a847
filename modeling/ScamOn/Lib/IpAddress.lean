import Mathlib.Algebra.Group.Nat.Defs
import ScamOn.Lib.Chars

/-!
# Literal addresses

What the `ipaddress` module of the Python standard library accepts as an address, and what
it makes of it.

* `isIPv4` is whether `IPv4Address` takes a text, `isIPv6` whether `IPv6Address` does.
* `ipAddress` is `ip_address`: an `Address` is a number and a version, a `Network` an address
  and the length of its fixed part.
-/

namespace ScamOn.IpAddress

open Chars

def isHexDigit (c : Char) : Bool :=
  c.isDigit ∨ ('a' ≤ c ∧ c ≤ 'f') ∨ ('A' ≤ c ∧ c ≤ 'F')

/-- An octet: up to three decimal digits, without a leading zero, at most 255. -/
def isOctet (s : Str) : Bool :=
  s ≠ [] ∧ s.all Char.isDigit ∧ s.length ≤ 3 ∧ (s.head? = some '0' → s.length = 1) ∧
    Nat.ofDigitChars 10 s 0 ≤ 255

/-- `IPv4Address(s)` succeeds. -/
def isIPv4 (s : Str) : Bool :=
  let octets := s.splitOn '.'
  octets.length = 4 ∧ octets.all isOctet

/-- A group of an IPv6 address. -/
def isHextet (s : Str) : Bool := s.all isHexDigit ∧ s.length ≤ 4

/-- The groups between the colons, a dotted end being written as two groups. -/
def ipv6Parts (s : Str) : Option (List Str) :=
  let parts := s.splitOn ':'
  let last := (parts.getLast?).getD []
  if parts.length < 3 then none
  else if '.' ∈ last then
    if isIPv4 last then some (parts.dropLast ++ [['0'], ['0']]) else none
  else some parts

/-- The places of the empty groups that are neither the first nor the last. -/
def skipIndices (parts : List Str) : List Nat :=
  (List.range parts.length).filter fun i =>
    0 < i ∧ i + 1 < parts.length ∧ parts[i]? = some []

/-- Eight groups, or fewer around one `::`. -/
def ipv6PartsOk (parts : List Str) : Bool :=
  match skipIndices parts with
  | [] => parts.length = 8 ∧ parts.all fun p => p ≠ [] ∧ isHextet p
  | [i] =>
    let first := (parts.head?).getD []
    let last := (parts.getLast?).getD []
    let hi := if first = [] then i - 1 else i
    let lo := if last = [] then parts.length - i - 2 else parts.length - i - 1
    parts.length ≤ 9 ∧ (first = [] → hi = 0) ∧ (last = [] → lo = 0) ∧ hi + lo < 8 ∧
      (parts.take hi).all isHextet ∧ (parts.drop (parts.length - lo)).all isHextet
  | _ => false

/-- `IPv6Address(s)` succeeds, with or without a scope. -/
def isIPv6 (s : Str) : Bool :=
  let addr := (partition '%' s).1
  let scope := (partition '%' s).2
  '/' ∉ s ∧ scope ≠ some [] ∧ '%' ∉ scope.getD [] ∧ (ipv6Parts addr).any ipv6PartsOk

example : isIPv6 "::1".toList ∧ isIPv6 "2001:db8::ff00:42:8329".toList ∧
    isIPv6 "::ffff:192.0.2.1".toList ∧ isIPv6 "fe80::1%eth0".toList := by
  decide

example : ¬isIPv6 "192.0.2.1".toList ∧ ¬isIPv6 "1::2::3".toList ∧ ¬isIPv6 ":1:2:3:4:5:6:7".toList ∧
    ¬isIPv6 "".toList := by
  decide

/-! ## Addresses as numbers -/

/-- An address of either version. -/
inductive Address
  | v4 (n : ℕ)
  | v6 (n : ℕ)
  deriving DecidableEq

def hexValue (c : Char) : ℕ :=
  if c.isDigit then c.toNat - '0'.toNat
  else if 'a' ≤ c then c.toNat - 'a'.toNat + 10
  else c.toNat - 'A'.toNat + 10

/-- The number of a group of an IPv6 address. -/
def hextetValue (s : Str) : ℕ := s.foldl (fun n c => 16 * n + hexValue c) 0

/-- The number of an IPv4 address. -/
def ipv4Value (s : Str) : ℕ := (s.splitOn '.').foldl (fun n octet => 256 * n + Nat.ofDigitChars 10 octet 0) 0

/-- The numbers of some groups; a dotted end is two of them. -/
def groupValues (parts : List Str) : List ℕ :=
  parts.flatMap fun p =>
    if '.' ∈ p then [ipv4Value p / 2 ^ 16, ipv4Value p % 2 ^ 16] else [hextetValue p]

/-- The eight groups of an IPv6 address: those before `::`, zeros, those after. -/
def ipv6Groups (addr : Str) : List ℕ :=
  let parts := addr.splitOn ':'
  match skipIndices parts with
  | [] => groupValues parts
  | i :: _ =>
    let before := groupValues ((parts.take i).filter (· ≠ []))
    let after := groupValues ((parts.drop (i + 1)).filter (· ≠ []))
    before ++ List.replicate (8 - before.length - after.length) 0 ++ after

/-- `ip_address(s)`; `none` is `ValueError`. -/
def ipAddress (s : Str) : Option Address :=
  if isIPv4 s then some (.v4 (ipv4Value s))
  else if isIPv6 s then
    some (.v6 ((ipv6Groups (partition '%' s).1).foldl (fun n g => 2 ^ 16 * n + g) 0))
  else none

/-- `ip.ipv4_mapped`. -/
def Address.ipv4Mapped : Address → Option Address
  | .v4 _ => none
  | .v6 n => if n / 2 ^ 32 = 0xffff then some (.v4 (n % 2 ^ 32)) else none

/-- `ip_network`: an address and the length of the part that is fixed. -/
structure Network where
  address : Address
  prefixLength : ℕ
  deriving DecidableEq

/-- `ip in network`.  An address of the other version is in none. -/
def Network.contains (network : Network) (ip : Address) : Bool :=
  match network.address, ip with
  | .v4 base, .v4 n => n / 2 ^ (32 - network.prefixLength) = base / 2 ^ (32 - network.prefixLength)
  | .v6 base, .v6 n => n / 2 ^ (128 - network.prefixLength) = base / 2 ^ (128 - network.prefixLength)
  | _, _ => false

example : ipAddress "192.168.0.1".toList = some (.v4 0xc0a80001) ∧
    ipAddress "fe80::1%eth0".toList = some (.v6 0xfe800000000000000000000000000001) ∧
    (ipAddress "::ffff:192.0.2.1".toList).bind (·.ipv4Mapped) = some (.v4 0xc0000201) := by
  decide +kernel

/-! ## How an address begins -/

variable {c : Char} {s p : Str} {ps parts : List Str}

theorem isHexDigit_of_isHextet (h : isHextet (c :: p) = true) : isHexDigit c = true := by
  simp only [isHextet, decide_eq_true_eq, List.all_cons, Bool.and_eq_true] at h
  exact h.1.1

/-- The first group of the parts, if it is not empty, is a group. -/
theorem ipv6PartsOk_head (h : ipv6PartsOk ((c :: p) :: ps) = true) : isHexDigit c = true := by
  unfold ipv6PartsOk at h
  split at h
  · simp only [decide_eq_true_eq, List.all_cons, Bool.and_eq_true] at h
    exact isHexDigit_of_isHextet h.2.1.2
  · rename_i i hskip
    have hi : i ∈ skipIndices ((c :: p) :: ps) := by
      rw [hskip]
      exact List.mem_singleton_self i
    obtain ⟨i, rfl⟩ : ∃ k, i = k + 1 := by
      have hpos := (List.mem_filter.1 hi).2
      simp only [decide_eq_true_eq] at hpos
      exact ⟨i - 1, by omega⟩
    simp only [List.head?_cons, Option.getD_some, reduceCtorEq, if_false, List.take_succ_cons,
      List.all_cons, decide_eq_true_eq, Bool.and_eq_true] at h
    exact isHexDigit_of_isHextet h.2.2.2.2.1.1
  · cases h

/-- What stands before the first colon stands in the first of the parts. -/
theorem ipv6Parts_head (h : ipv6Parts (c :: s) = some parts) (hc : c ≠ ':') :
    ∃ p ps, parts = (c :: p) :: ps := by
  have hsplit : ∃ p ps, (c :: s).splitOn ':' = (c :: p) :: ps := by
    rw [List.splitOn_cons_eq_if_modifyHead, if_neg (by simpa using hc)]
    rcases hparts : s.splitOn ':' with _ | ⟨p, ps⟩
    · exact absurd hparts (List.splitOn_ne_nil _ _)
    · exact ⟨p, ps, rfl⟩
  obtain ⟨p, ps, hsplit⟩ := hsplit
  unfold ipv6Parts at h
  simp only [hsplit] at h
  split_ifs at h with hshort
  · cases h
    rcases ps with _ | ⟨q, ps⟩
    · exact absurd (by simp) hshort
    · exact ⟨p, _, rfl⟩
  · cases h
    exact ⟨p, ps, rfl⟩

/-- An address begins with a hexadecimal digit or a colon. -/
theorem isIPv6_head (h : isIPv6 (c :: s) = true) : c = ':' ∨ isHexDigit c = true := by
  by_cases hcolon : c = ':'
  · exact .inl hcolon
  right
  simp only [isIPv6, decide_eq_true_eq, Option.any_eq_true] at h
  obtain ⟨parts, hparts, hok⟩ := h.2.2.2
  have hpercent : c ≠ '%' := by
    rintro rfl
    exact absurd hparts (by simp [partition, ipv6Parts])
  rw [partition, if_neg hpercent] at hparts
  obtain ⟨p, ps, rfl⟩ := ipv6Parts_head hparts hcolon
  exact ipv6PartsOk_head hok

end ScamOn.IpAddress
