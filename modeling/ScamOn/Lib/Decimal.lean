import ScamOn.Lib.Text

/-!
# Integers and their decimal texts

`str` writes an integer in decimal digits and `int` reads them back.

* `intOfStr?_of_strOfInt?`: the round trip, for every integer that has a text.
* `toString_int_injective`: different integers have different texts.
-/

namespace ScamOn.Text

/-! ## Digits -/

/-- A digit is one of ten. -/
theorem isDigit_cases {c : Char} (h : c.isDigit) : ∃ d < 10, c = Nat.digitChar d := by
  obtain ⟨hlow, hhigh⟩ : 48 ≤ c.toNat ∧ c.toNat ≤ 57 := Char.isDigit_iff_toNat.1 h
  have hd : c.toNat - 48 < 10 := by omega
  refine ⟨c.toNat - 48, hd, Char.toNat_inj.1 ?_⟩
  rw [Nat.toNat_digitChar_of_lt_ten hd]
  omega

/-- How the readers of integers see a digit. -/
theorem digitChar_spec : ∀ d < 10, decimalDigit? (Nat.digitChar d) = some d ∧
    isSpace (Nat.digitChar d) = false ∧ Nat.digitChar d ≠ '_' ∧ Nat.digitChar d ≠ '+' ∧
    Nat.digitChar d ≠ '-' := by
  decide

theorem isDigit_of_mem_toDigits {n : ℕ} {c : Char} (h : c ∈ Nat.toDigits 10 n) : c.isDigit :=
  Nat.isDigit_of_mem_toDigits (by decide) (by decide) h

/-- Digits are read as the number they write. -/
theorem parseDigits_eq {cs : List Char} (h : ∀ c ∈ cs, c.isDigit) (acc : ℕ) :
    parseDigits decimalDigit? true acc cs = some (Nat.ofDigitChars 10 cs acc) := by
  induction cs generalizing acc with
  | nil => rfl
  | cons c cs ih =>
    obtain ⟨d, hd, rfl⟩ := isDigit_cases (h c (List.mem_cons_self ..))
    obtain ⟨hvalue, -, hunderscore, -⟩ := digitChar_spec d hd
    rw [parseDigits, if_neg hunderscore, hvalue, Nat.ofDigitChars_cons_digitChar_of_lt_ten hd]
    exact ih (fun c hc => h c (List.mem_cons_of_mem _ hc)) _

theorem parseDigits_toDigits (n : ℕ) :
    parseDigits decimalDigit? false 0 (Nat.toDigits 10 n) = some n := by
  obtain ⟨c, cs, hcs⟩ : ∃ c cs, Nat.toDigits 10 n = c :: cs :=
    List.exists_cons_of_ne_nil Nat.toDigits_ne_nil
  have hdigits : ∀ e ∈ c :: cs, e.isDigit := fun e he => isDigit_of_mem_toDigits (hcs ▸ he)
  -- the flag only matters to an underscore
  have hflag : parseDigits decimalDigit? false 0 (c :: cs) =
      parseDigits decimalDigit? true 0 (c :: cs) := by
    obtain ⟨d, hd, rfl⟩ := isDigit_cases (hdigits c (List.mem_cons_self ..))
    obtain ⟨-, -, hunderscore, -⟩ := digitChar_spec d hd
    rw [parseDigits, parseDigits, if_neg hunderscore, if_neg hunderscore]
  rw [hcs, hflag, parseDigits_eq hdigits, ← hcs, Nat.ofDigitChars_ten_toDigits]

/-! ## Texts -/

theorem toList_toString_int (n : ℤ) :
    (toString n).toList =
      if 0 ≤ n then Nat.toDigits 10 n.natAbs else '-' :: Nat.toDigits 10 n.natAbs := by
  cases n with
  | ofNat n => exact (if_pos (Int.natCast_nonneg n)) ▸ Nat.toList_repr
  | negSucc n =>
    rw [if_neg (by omega)]
    simp [Int.repr]

/-- **The round trip.** -/
theorem intOfStr?_of_strOfInt? {n : ℤ} {s : String} (h : strOfInt? n = some s) :
    intOfStr? s = some n := by
  unfold strOfInt? at h
  split_ifs at h with hlong
  obtain rfl := Option.some.inj h
  have hdigits : ∀ c ∈ Nat.toDigits 10 n.natAbs, ∃ d < 10, c = Nat.digitChar d :=
    fun c hc => isDigit_cases (isDigit_of_mem_toDigits hc)
  have hplain : (Nat.toDigits 10 n.natAbs).filter (· ≠ '_') = Nat.toDigits 10 n.natAbs := by
    refine List.filter_eq_self.2 fun c hc => ?_
    obtain ⟨d, hd, rfl⟩ := hdigits c hc
    rw [decide_eq_true_eq]
    exact (digitChar_spec d hd).2.2.1
  have hblank : ∀ c ∈ (toString n).toList, isSpace c = false := by
    intro c hc
    have hcases : c = '-' ∨ c ∈ Nat.toDigits 10 n.natAbs := by
      rw [toList_toString_int] at hc
      split_ifs at hc
      · exact .inr hc
      · exact List.mem_cons.1 hc
    rcases hcases with rfl | hc
    · decide
    · obtain ⟨d, hd, rfl⟩ := hdigits c hc
      exact (digitChar_spec d hd).2.1
  have hstrip : trim isIntBlank (toString n).toList = (toString n).toList :=
    trim_eq_self fun c hc => by rw [isIntBlank, hblank c hc, Bool.false_and]
  rw [intOfStr?, hstrip, toList_toString_int]
  split_ifs with hsign
  · obtain ⟨c, cs, hcs⟩ : ∃ c cs, Nat.toDigits 10 n.natAbs = c :: cs :=
      List.exists_cons_of_ne_nil Nat.toDigits_ne_nil
    obtain ⟨d, hd, rfl⟩ := hdigits c (hcs ▸ List.mem_cons_self ..)
    obtain ⟨-, -, -, hplus, hminus⟩ := digitChar_spec d hd
    rw [hcs, parseInt?, if_neg (not_or.2 ⟨hplus, hminus⟩), ← hcs]
    simp only [hplain, if_neg hlong, parseDigits_toDigits, hminus, if_false]
    exact congrArg some (Int.natAbs_of_nonneg hsign)
  · simp only [parseInt?, or_true, if_true, hplain, if_neg hlong, parseDigits_toDigits]
    refine congrArg some ?_
    show -(n.natAbs : ℤ) = n
    omega

theorem toString_int_injective : Function.Injective (toString : ℤ → String) := by
  intro m n h
  have hlist : (toString m).toList = (toString n).toList := congrArg String.toList h
  have hdigits : ∀ {k l : ℕ}, Nat.toDigits 10 k = Nat.toDigits 10 l → k = l := by
    intro k l hkl
    rw [← Nat.ofDigitChars_ten_toDigits (n := k), hkl, Nat.ofDigitChars_ten_toDigits]
  have hsign : ∀ {k : ℕ} {cs : List Char}, Nat.toDigits 10 k ≠ '-' :: cs := by
    intro k cs hk
    have hminus : ('-').isDigit = true := isDigit_of_mem_toDigits (hk ▸ List.mem_cons_self ..)
    cases hminus
  rw [toList_toString_int, toList_toString_int] at hlist
  split_ifs at hlist with hm hn hn
  · have habs := hdigits hlist
    omega
  · exact absurd hlist hsign
  · exact absurd hlist.symm hsign
  · have habs := hdigits (List.cons.inj hlist).2
    omega

end ScamOn.Text
