import ScamOn.Lib.Percent

/-!
# The characters and escapes of a percent-encoded text

`unquote` decodes the runs of ASCII characters of a text one by one.

* `tokens` are the valid escapes and the other characters of a text, from left to right; their
  octets are what `unquoteToBytes` makes of it.
* `tokens_runs`: no escape reaches over the end of a run.
* `encodeUtf8_unquote_iff`: `unquote` keeps the octets exactly if those of every run are UTF-8.
* `eq_of_flatMap_eq`: two texts that are put together of pieces, the ones never longer than the
  others, are equal only piece by piece.
-/

namespace ScamOn.Percent

open Chars

/-! ## Tokens -/

/-- A valid escape, with its digits and its octet, or any other character. -/
inductive Token
  | escape (a b : Char) (byte : UInt8)
  | char (c : Char)
  deriving DecidableEq

/-- The octets that a token denotes. -/
def Token.bytes : Token → List UInt8
  | .escape _ _ byte => [byte]
  | .char c => String.utf8EncodeChar c

/-- The escape at the front of a text, if it is a valid one. -/
def escape? : Str → Option Token
  | c :: a :: b :: _ =>
    if c = '%' then
      match hexValue? a, hexValue? b with
      | some x, some y => some (.escape a b (UInt8.ofNat (16 * x + y)))
      | _, _ => none
    else none
  | _ => none

/-- The escapes and the other characters of a text. -/
def tokens : Str → List Token
  | [] => []
  | c :: rest =>
    if c = '%' then
      match rest with
      | a :: b :: rest' =>
        match hexValue? a, hexValue? b with
        | some x, some y => .escape a b (UInt8.ofNat (16 * x + y)) :: tokens rest'
        | _, _ => .char c :: tokens (a :: b :: rest')
      | rest => .char c :: tokens rest
    else .char c :: tokens rest

theorem escape?_eq_some_iff {s : Str} {t : Token} :
    escape? s = some t ↔ ∃ a b x y rest, s = '%' :: a :: b :: rest ∧ hexValue? a = some x ∧
      hexValue? b = some y ∧ t = .escape a b (UInt8.ofNat (16 * x + y)) := by
  constructor
  · intro h
    unfold escape? at h
    split at h
    · next c a b rest =>
      split at h
      · next hc =>
        split at h
        · next x y hx hy =>
          cases h
          exact ⟨a, b, x, y, rest, by rw [hc], hx, hy, rfl⟩
        · cases h
      · cases h
    · cases h
  · rintro ⟨a, b, x, y, rest, rfl, hx, hy, rfl⟩
    simp [escape?, hx, hy]

theorem tokens_of_none {c : Char} {rest : Str} (h : escape? (c :: rest) = none) :
    tokens (c :: rest) = .char c :: tokens rest := by
  rw [tokens.eq_def]
  by_cases hc : c = '%'
  · subst hc
    simp only [if_true]
    split
    · next a b rest' =>
      split
      · next x y hx hy =>
        rw [escape?_eq_some_iff.2 ⟨a, b, x, y, rest', rfl, hx, hy, rfl⟩] at h
        cases h
      · rfl
    · rfl
  · simp only [if_neg hc]

theorem tokens_escape {a b : Char} {x y : ℕ} (hx : hexValue? a = some x) (hy : hexValue? b = some y)
    (rest : Str) :
    tokens ('%' :: a :: b :: rest) = .escape a b (UInt8.ofNat (16 * x + y)) :: tokens rest := by
  rw [tokens, if_pos rfl]
  simp only [hx, hy]

theorem unquoteToBytes_escape {a b : Char} {x y : ℕ} (hx : hexValue? a = some x)
    (hy : hexValue? b = some y) (rest : Str) :
    unquoteToBytes ('%' :: a :: b :: rest) = UInt8.ofNat (16 * x + y) :: unquoteToBytes rest := by
  rw [unquoteToBytes, if_pos rfl]
  simp only [hx, hy]

theorem unquoteToBytes_of_none {c : Char} {rest : Str} (h : escape? (c :: rest) = none) :
    unquoteToBytes (c :: rest) = String.utf8EncodeChar c ++ unquoteToBytes rest := by
  rw [unquoteToBytes.eq_def]
  by_cases hc : c = '%'
  · subst hc
    simp only [if_true]
    split
    · next a b rest' =>
      split
      · next x y hx hy =>
        rw [escape?_eq_some_iff.2 ⟨a, b, x, y, rest', rfl, hx, hy, rfl⟩] at h
        cases h
      · rfl
    · rfl
  · simp only [if_neg hc]

/-- Text by text: an escape at the front, or a character that begins none. -/
theorem tokens_induction {motive : Str → Prop} (nil : motive [])
    (escape : ∀ a b x y rest, hexValue? a = some x → hexValue? b = some y → motive rest →
      motive ('%' :: a :: b :: rest))
    (char : ∀ c rest, escape? (c :: rest) = none → motive rest → motive (c :: rest)) (s : Str) :
    motive s := by
  induction hn : s.length using Nat.strong_induction_on generalizing s with
  | _ n ih =>
    cases s with
    | nil => exact nil
    | cons c rest =>
      cases h : escape? (c :: rest) with
      | none => exact char c rest h (ih rest.length (by simp [← hn]) rest rfl)
      | some t =>
        obtain ⟨a, b, x, y, rest', hs, hx, hy, rfl⟩ := escape?_eq_some_iff.1 h
        rw [hs] at hn ⊢
        exact escape a b x y rest' hx hy (ih rest'.length (by simp [← hn]; omega) rest' rfl)

theorem unquoteToBytes_eq_flatMap (s : Str) : unquoteToBytes s = (tokens s).flatMap Token.bytes := by
  induction s using tokens_induction with
  | nil => rfl
  | escape a b x y rest hx hy ih =>
    rw [unquoteToBytes_escape hx hy, tokens_escape hx hy, List.flatMap_cons, ih]
    rfl
  | char c rest h ih =>
    rw [unquoteToBytes_of_none h, tokens_of_none h, List.flatMap_cons, ih]
    rfl

/-! ## Runs -/

/-- No escape reaches into a text that begins with no hexadecimal digit. -/
theorem tokens_append {t : Str} (ht : ∀ c, t.head? = some c → hexValue? c = none) (s : Str) :
    tokens (s ++ t) = tokens s ++ tokens t := by
  induction s using tokens_induction with
  | nil => rfl
  | escape a b x y rest hx hy ih =>
    rw [List.cons_append, List.cons_append, List.cons_append, tokens_escape hx hy,
      tokens_escape hx hy, ih]
    rfl
  | char c rest h ih =>
    have hnone : escape? (c :: (rest ++ t)) = none := by
      by_contra hsome
      obtain ⟨token, htoken⟩ := Option.ne_none_iff_exists'.1 hsome
      obtain ⟨a, b, x, y, rest', hs, hx, hy, -⟩ := escape?_eq_some_iff.1 htoken
      -- both digits of the escape are in `rest`
      rcases rest with _ | ⟨d, _ | ⟨e, rest⟩⟩
      · rw [ht a (by simpa using congrArg (fun l => l.tail.head?) hs)] at hx
        cases hx
      · rw [ht b (by simpa using congrArg (fun l => l.tail.tail.head?) hs)] at hy
        cases hy
      · simp only [List.cons_append, List.cons.injEq] at hs
        obtain ⟨rfl, rfl, rfl, -⟩ := hs
        rw [escape?_eq_some_iff.2 ⟨d, e, x, y, rest, rfl, hx, hy, rfl⟩] at h
        cases h
    rw [List.cons_append, tokens_of_none hnone, tokens_of_none h, ih]
    rfl

theorem tokens_of_not_mem {s : Str} (h : '%' ∉ s) (t : Str) :
    tokens (s ++ t) = s.map .char ++ tokens t := by
  induction s with
  | nil => rfl
  | cons c s ih =>
    rw [List.mem_cons, not_or] at h
    have hnone : escape? (c :: (s ++ t)) = none := by
      by_contra hsome
      obtain ⟨token, htoken⟩ := Option.ne_none_iff_exists'.1 hsome
      obtain ⟨a, b, x, y, rest, hs, -⟩ := escape?_eq_some_iff.1 htoken
      exact h.1 (List.cons.inj hs).1.symm
    rw [List.cons_append, tokens_of_none hnone, ih h.2]
    rfl

/-- The runs that `unquote` decodes one by one. -/
def runs (s : Str) : List Str := s.splitBy fun c d => isAscii c = isAscii d

/-- All characters of a run are ASCII characters, or none is. -/
theorem isAscii_run {s run : Str} (h : run ∈ runs s) {c d : Char} (hc : c ∈ run) (hd : d ∈ run) :
    isAscii c = isAscii d := by
  let same : Char → Char → Prop := fun c d => isAscii c = isAscii d
  have hchain : run.IsChain same := by
    refine (List.isChain_of_mem_splitBy h).imp fun c d hcd => ?_
    simpa using hcd
  have htrans : IsTrans Char same := ⟨fun _ _ _ hcd hde => Eq.trans hcd hde⟩
  have hsymm : Std.Symm same := ⟨fun _ _ hcd => Eq.symm hcd⟩
  have hpairwise : run.Pairwise same := List.isChain_iff_pairwise.1 hchain
  exact hpairwise.forall_of_forall (R := same) (fun _ _ => rfl) hc hd

theorem not_mem_run {s run : Str} (h : run ∈ runs s) (hascii : allAscii run = false) :
    '%' ∉ run := by
  intro hpercent
  have hall : allAscii run = true := by
    rw [allAscii, List.all_eq_true]
    exact fun c hc => (isAscii_run h hc hpercent).trans (by decide)
  rw [hall] at hascii
  cases hascii

theorem hexValue?_of_not_ascii {c : Char} (h : isAscii c = false) : hexValue? c = none := by
  have hlarge : 128 ≤ c.toNat := by simpa [isAscii] using h
  have hle : ∀ d : Char, d.toNat < 128 → ¬c ≤ d := by
    intro d hd hcd
    have : c.toNat ≤ d.toNat := hcd
    omega
  unfold hexValue?
  rw [if_neg fun h => hle '9' (by decide) h.2, if_neg fun h => hle 'F' (by decide) h.2,
    if_neg fun h => hle 'f' (by decide) h.2]

theorem tokens_flatten {l : List Str}
    (hpercent : ∀ run ∈ l, allAscii run = false → '%' ∉ run)
    (hchain : l.IsChain fun a b =>
      ∃ ha hb, decide (isAscii (a.getLast ha) = isAscii (b.head hb)) = false) :
    tokens l.flatten = l.flatMap tokens := by
  induction l with
  | nil => rfl
  | cons run l ih =>
    have hrest := ih (fun r hr => hpercent r (List.mem_cons_of_mem _ hr))
      (List.isChain_cons.1 hchain).2
    rw [List.flatten_cons, List.flatMap_cons, ← hrest]
    cases hascii : allAscii run with
    | false =>
      have hrun := hpercent run (List.mem_cons_self ..) hascii
      have halone := tokens_of_not_mem hrun []
      rw [List.append_nil] at halone
      rw [tokens_of_not_mem hrun, halone]
      simp [tokens]
    | true =>
      -- the next run begins with a character that is no ASCII character
      refine tokens_append (fun c hc => hexValue?_of_not_ascii ?_) run
      rcases l with _ | ⟨next, l⟩
      · cases hc
      obtain ⟨hne, hne', hdiffer⟩ := (List.isChain_cons_cons.1 hchain).1
      have hlast : isAscii (run.getLast hne) = true := by
        rw [allAscii, List.all_eq_true] at hascii
        exact hascii _ (List.getLast_mem hne)
      rcases next with _ | ⟨d, next⟩
      · exact absurd rfl hne'
      rw [List.flatten_cons, List.cons_append, List.head?_cons, Option.some.injEq] at hc
      simpa [hlast, hc] using hdiffer

/-- **No escape reaches over the end of a run.** -/
theorem tokens_runs (s : Str) : tokens s = (runs s).flatMap tokens := by
  have hflatten := @tokens_flatten (runs s) (fun _ hrun => not_mem_run hrun)
    (List.isChain_getLast_head_splitBy (fun c d => decide (isAscii c = isAscii d)) s)
  rwa [runs, List.flatten_splitBy] at hflatten

theorem unquoteToBytes_runs (s : Str) :
    unquoteToBytes s = (runs s).flatMap unquoteToBytes := by
  rw [unquoteToBytes_eq_flatMap, tokens_runs, List.flatMap_assoc]
  simp only [← unquoteToBytes_eq_flatMap]

/-! ## Which texts keep their octets -/

/-- What `unquote` makes of a run. -/
def unquoteRun (run : Str) : Str :=
  if allAscii run then decodeUtf8 (unquoteToBytes run) else run

theorem unquote_eq_flatMap (s : Str) : unquote s = (runs s).flatMap unquoteRun := by
  unfold unquote
  split_ifs with h
  · rfl
  · -- without a percent sign every run stays
    have hrun : ∀ run ∈ runs s, unquoteRun run = run := by
      intro run hrun
      have hpercent : '%' ∉ run := by
        intro hmem
        refine h ?_
        rw [← List.flatten_splitBy (fun c d => decide (isAscii c = isAscii d)) s]
        exact List.mem_flatten_of_mem hrun hmem
      unfold unquoteRun
      rw [unquoteToBytes_of_not_mem hpercent, decodeUtf8_encodeUtf8, ite_self]
    rw [List.flatMap_congr hrun, List.flatMap_id']
    exact (List.flatten_splitBy _ s).symm

theorem malformedLength_bounds (bytes : List UInt8) :
    1 ≤ malformedLength bytes ∧ malformedLength bytes ≤ 3 := by
  unfold malformedLength
  repeat' split
  all_goals omega

/-- A replacement character is not shorter than what it stands for. -/
theorem length_le_encodeUtf8_decodeUtf8Upto {n : ℕ} {bytes : List UInt8} (h : bytes.length ≤ n) :
    bytes.length ≤ (encodeUtf8 (decodeUtf8Upto n bytes)).length := by
  induction n generalizing bytes with
  | zero => exact h.trans (Nat.zero_le _)
  | succ n ih =>
    rcases bytes with _ | ⟨b, bytes⟩
    · exact Nat.zero_le _
    -- one character stands for `size` bytes and is written with no fewer
    have hstep : ∀ (c : Char) (size : ℕ), 1 ≤ size → size ≤ c.utf8Size →
        (b :: bytes).length ≤
          (encodeUtf8 (c :: decodeUtf8Upto n ((b :: bytes).drop size))).length := by
      intro c size hpos hsize
      have hdrop : ((b :: bytes).drop size).length = (b :: bytes).length - size :=
        List.length_drop
      have hle : ((b :: bytes).drop size).length ≤ n := by omega
      have hrest := ih hle
      rw [encodeUtf8, List.flatMap_cons, List.length_append, String.length_utf8EncodeChar,
        ← encodeUtf8]
      omega
    rw [decodeUtf8Upto]
    split
    · next c hc => exact hstep c _ c.utf8Size_pos le_rfl
    · obtain ⟨hpos, hle⟩ := malformedLength_bounds (b :: bytes)
      exact hstep _ _ hpos hle

theorem length_unquoteToBytes_le {s run : Str} (h : run ∈ runs s) :
    (unquoteToBytes run).length ≤ (encodeUtf8 (unquoteRun run)).length := by
  unfold unquoteRun
  split_ifs with hascii
  · exact length_le_encodeUtf8_decodeUtf8Upto le_rfl
  · rw [unquoteToBytes_of_not_mem (not_mem_run h (by simpa using hascii))]

/-- Texts put together of pieces, the ones never longer than the others, are equal only piece by
piece. -/
theorem eq_of_flatMap_eq {α β : Type} {f g : α → List β} {l : List α}
    (hlength : ∀ a ∈ l, (f a).length ≤ (g a).length) (h : l.flatMap f = l.flatMap g) :
    ∀ a ∈ l, f a = g a := by
  have hsum : ∀ l : List α, (∀ a ∈ l, (f a).length ≤ (g a).length) →
      (l.flatMap f).length ≤ (l.flatMap g).length := by
    intro l hl
    induction l with
    | nil => exact le_rfl
    | cons a l ih =>
      have hrest := ih fun b hb => hl b (List.mem_cons_of_mem _ hb)
      have hhead := hl a (List.mem_cons_self ..)
      rw [List.flatMap_cons, List.flatMap_cons, List.length_append, List.length_append]
      omega
  induction l with
  | nil => exact fun a ha => absurd ha List.not_mem_nil
  | cons a l ih =>
    have hrest := hsum l fun b hb => hlength b (List.mem_cons_of_mem _ hb)
    have hhead := hlength a (List.mem_cons_self ..)
    rw [List.flatMap_cons, List.flatMap_cons] at h
    have htotal := congrArg List.length h
    rw [List.length_append, List.length_append] at htotal
    obtain ⟨hfirst, htail⟩ := List.append_inj h (by omega)
    intro b hb
    rcases List.mem_cons.1 hb with rfl | hb
    · exact hfirst
    · exact ih (fun b hb => hlength b (List.mem_cons_of_mem _ hb)) htail b hb

/-- The octets of every run of ASCII characters are those of a text. -/
def EscapesDecode (s : Str) : Prop :=
  ∀ run ∈ runs s, allAscii run = true → ∃ t, unquoteToBytes run = encodeUtf8 t

/-- **`unquote` keeps the octets** exactly if those of every run are UTF-8. -/
theorem encodeUtf8_unquote_iff (s : Str) :
    encodeUtf8 (unquote s) = unquoteToBytes s ↔ EscapesDecode s := by
  have hencode : encodeUtf8 (unquote s) = (runs s).flatMap fun run => encodeUtf8 (unquoteRun run) := by
    rw [unquote_eq_flatMap, encodeUtf8, List.flatMap_assoc]
    rfl
  rw [hencode, unquoteToBytes_runs]
  constructor
  · intro h run hrun hascii
    have hpiece := eq_of_flatMap_eq (fun _ => length_unquoteToBytes_le) h.symm run hrun
    exact ⟨_, hpiece⟩
  · intro h
    refine List.flatMap_congr fun run hrun => ?_
    unfold unquoteRun
    split_ifs with hascii
    · obtain ⟨t, ht⟩ := h run hrun hascii
      rw [ht, decodeUtf8_encodeUtf8]
    · rw [unquoteToBytes_of_not_mem (not_mem_run hrun (by simpa using hascii))]

end ScamOn.Percent
