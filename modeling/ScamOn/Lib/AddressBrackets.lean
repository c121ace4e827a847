import ScamOn.Lib.AddressScan

/-!
# Addresses in angle brackets

A field that ends in an address in angle brackets: when is that the one that is read?

* `Reaches`: the parser comes to the bracket with no address read.
* `reader_outcome`: if it does not, what it reads first is not from the brackets.
* `ReadsAsPhrase` adds what strict parsing asks of the text in front of the bracket;
  `getaddresses_of_readsAsPhrase` and `firstAddress_of_not_readsAsPhrase` say that it decides.
-/

namespace ScamOn.EmailAddresses

open Readers

variable {s w : Str} {c : Char}

/-! ## Coming to the bracket -/

/-- The parser comes to the bracket at the end of the text with no address read: at the beginning of
an address, or of the members of a group. -/
inductive Reaches : Bool → Str → Prop
  | bracket {s : Str} : (opening s).2 = ['<'] → Reaches false s
  | group {s t : Str} : (opening s).2 = ':' :: t → Reaches true t → Reaches false s
  | member {s : Str} : (gotonext s).2.head? ≠ some ';' → Reaches false (gotonext s).2 →
      Reaches true s
  | skip {s t : Str} : (gotonext s).2.head? ≠ some ';' →
      getaddress (nesting (gotonext s).2) (gotonext s).2 = ([], t) → Reaches true t →
      Reaches true s

/-- `getaddress`, or the loop over the members of a group. -/
def reader (grouped : Bool) : ℕ → Str → List (Str × Str) × Str :=
  if grouped then getgroup else getaddress

/-- So many calls may be nested over a text in front of a bracket. -/
def calls (grouped : Bool) (s : Str) : ℕ := 2 * s.length + if grouped then 2 else 1

theorem calls_le_nesting (s w : Str) : calls false s ≤ nesting (s ++ '<' :: w) := by
  have hcalls : calls false s = 2 * s.length + 1 := rfl
  have hnesting : nesting (s ++ '<' :: w) = 2 * (s.length + (w.length + 1)) + 2 := by
    simp [nesting]
  omega

/-- The address that is read first. -/
def firstAddress (pairs : List (Str × Str)) : Option Str := pairs.head?.map Prod.snd

/-- The first address is the given one, or holds a bracket; or nothing is read, and nothing left. -/
def NotFromBracket (k : Str) (read : List (Str × Str) × Str) : Prop :=
  (∃ a, firstAddress read.1 = some a ∧ (a = k ∨ '<' ∈ a)) ∨ read = ([], [])

/-- What a reader makes of a text in front of a bracket. -/
inductive Outcome (grouped : Bool) (s : Str) : Prop
  /-- It comes to the bracket. -/
  | reaches : Reaches grouped (s ++ ['<']) → Outcome grouped s
  /-- It reads something, but no address. -/
  | nothing (q : Str) : q <:+ s → (grouped = false → q.length < s.length) →
      (∀ n w, calls grouped s ≤ n → reader grouped n (s ++ '<' :: w) = ([], q ++ '<' :: w)) →
      Outcome grouped s
  /-- It reads an address that is not the one in the brackets, or nothing at all. -/
  | foreign (k : Str) : (∀ n w, calls grouped s ≤ n → Useless w →
      NotFromBracket k (reader grouped n (s ++ '<' :: w))) → Outcome grouped s

theorem skipComma_bounded (s : Str) :
    (∃ q, q <:+ s ∧ ∀ w, skipComma (s ++ '<' :: w) = q ++ '<' :: w) ∨
      ∀ w, Useless w → skipComma (s ++ '<' :: w) = [] := by
  unfold skipComma
  rcases gotonext_bounded s with ⟨gap, q, hq, hgap⟩ | ⟨_, hgap⟩
  · simp only [hgap]
    rcases q with _ | ⟨d, q⟩
    · exact .inl ⟨[], List.nil_suffix, fun _ => rfl⟩
    · by_cases hcomma : d = ','
      · subst hcomma
        exact .inl ⟨q, (List.suffix_cons _ q).trans hq, fun _ => rfl⟩
      · refine .inl ⟨d :: q, hq, fun w => ?_⟩
        rw [List.cons_append]
        split
        · rename_i heq
          exact absurd (List.cons.inj heq).1 hcomma
        · rfl
  · refine .inr fun w hw => ?_
    obtain ⟨gap, hgap, -⟩ := hgap w hw
    rw [hgap]

@[simp] theorem getgroup_nil (n : ℕ) : getgroup n [] = ([], []) := by
  cases n with
  | zero => rfl
  | succ n => rw [getgroup, if_pos rfl]

@[simp] theorem getaddress_nil (n : ℕ) : getaddress n [] = ([], []) := by
  cases n with
  | zero => rfl
  | succ n =>
    rw [getaddress]
    rfl

/-- What is left of an address may still begin with a comma. -/
theorem NotFromBracket.skipComma {k : Str} {read : List (Str × Str) × Str}
    (h : NotFromBracket k read) : NotFromBracket k (read.1, skipComma read.2) := by
  rcases h with hfirst | rfl
  · exact .inl hfirst
  · exact .inr rfl

theorem exists_succ {s : Str} {n : ℕ} (h : calls false s ≤ n) : ∃ m, n = m + 1 ∧ 2 * s.length ≤ m := by
  have hle : 2 * s.length + 1 ≤ n := h
  exact ⟨n - 1, by omega, by omega⟩

theorem outcome_of_foreign {k : Str}
    (h : ∀ n w, 2 * s.length ≤ n → Useless w →
      NotFromBracket k (readAddress (getgroup n) (s ++ '<' :: w))) : Outcome false s := by
  refine .foreign k fun n w hn hw => ?_
  obtain ⟨m, rfl, hm⟩ := exists_succ hn
  exact (h m w hm hw).skipComma

theorem outcome_of_nothing {q : Str} (hq : q <:+ s) (hlt : q.length < s.length)
    (h : ∀ n w, 2 * s.length ≤ n →
      readAddress (getgroup n) (s ++ '<' :: w) = ([], q ++ '<' :: w)) : Outcome false s := by
  rcases skipComma_bounded q with ⟨q', hq', hskip⟩ | hskip
  · refine .nothing q' (hq'.trans hq) (fun _ => lt_of_le_of_lt hq'.length_le hlt) fun n w hn => ?_
    obtain ⟨m, rfl, hm⟩ := exists_succ hn
    show getaddress (m + 1) _ = _
    rw [getaddress, h m w hm, hskip]
  · refine .foreign [] fun n w hn hw => .inr ?_
    obtain ⟨m, rfl, hm⟩ := exists_succ hn
    show getaddress (m + 1) _ = _
    rw [getaddress, h m w hm, hskip w hw]

theorem notFromBracket_singleton {k : Str} {f : Str → Str} (h : ∀ w, Useless w → f w = k ∨ '<' ∈ f w)
    {name rest : Str} (hw : Useless w) : NotFromBracket k ([(name, f w)], rest) :=
  .inl ⟨f w, rfl, h w hw⟩

/-- **The outcome of an address**, given that of the members of a group. -/
theorem address_outcome (hgroup : ∀ q, q.length < s.length → Outcome true q) : Outcome false s := by
  rcases opening_bounded s with ⟨phrase, q, hq, hopening⟩ | ⟨k, hopening⟩
  swap
  · -- the words run into the bracket, or there are none
    refine outcome_of_foreign (k := k.words.headD []) fun n w _ hw => ?_
    obtain ⟨phrase, hphrase, hwords⟩ := hopening w hw
    unfold readAddress
    rw [hphrase]
    rcases hwords with hwords | ⟨word, hmem, hwords⟩
    · rcases hk : k.words with _ | ⟨first, words⟩
      · rw [hk] at hwords
        simp only [hwords]
        exact .inr rfl
      · rw [hk] at hwords
        simp only [hwords]
        exact .inl ⟨first, rfl, .inl rfl⟩
    · rcases hk : k.words with _ | ⟨first, words⟩
      · rw [hk] at hwords
        simp only [hwords]
        exact .inl ⟨word, rfl, .inr hmem⟩
      · rw [hk] at hwords
        simp only [hwords]
        exact .inl ⟨first, rfl, .inl rfl⟩
  rcases q with _ | ⟨c, q⟩
  · exact .reaches (.bracket (congrArg Prod.snd (hopening [])))
  have hspecial : isSpecial c = true := isSpecial_of_opening (congrArg Prod.snd (hopening []))
  have hlt : q.length < s.length := Nat.lt_of_succ_le hq.length_le
  have hsuffix : q <:+ s := (List.suffix_cons c q).trans hq
  by_cases hspec : c = '.' ∨ c = '@'
  · -- an address without brackets
    have hforeign : Foreign fun w => (getaddrspec (gotonext (s ++ '<' :: w)).2).1.text := by
      rcases gotonext_bounded s with ⟨gap, q, -, hgap⟩ | ⟨_, hgap⟩
      · simp only [hgap]
        exact getaddrspec_foreign q
      · refine ⟨[], fun w hw => .inl ?_⟩
        obtain ⟨gap, hgap, -⟩ := hgap w hw
        dsimp only
        rw [hgap]
        rfl
    obtain ⟨k, hk⟩ := hforeign
    refine outcome_of_foreign (k := k) fun n w _ hw => ?_
    unfold readAddress
    simp only [hopening, List.cons_append, if_pos hspec]
    exact notFromBracket_singleton hk hw
  by_cases hcolon : c = ':'
  · subst hcolon
    have hread : ∀ n w, readAddress (getgroup n) (s ++ '<' :: w) = getgroup n (q ++ '<' :: w) := by
      intro n w
      unfold readAddress
      simp only [hopening, List.cons_append, if_neg hspec, if_true]
    have hcalls : ∀ n, 2 * s.length ≤ n → calls true q ≤ n := by
      intro n hn
      have heq : calls true q = 2 * q.length + 2 := rfl
      omega
    cases hgroup q hlt with
    | reaches h => exact .reaches (.group (congrArg Prod.snd (hopening [])) h)
    | nothing q' hq' _ hnothing =>
      refine outcome_of_nothing (hq'.trans hsuffix) (lt_of_le_of_lt hq'.length_le hlt) ?_
      intro n w hn
      rw [hread]
      exact hnothing n w (hcalls n hn)
    | foreign k hk =>
      refine outcome_of_foreign (k := k) fun n w hn hw => ?_
      rw [hread]
      exact hk n w (hcalls n hn) hw
  by_cases hopen : c = '<'
  · obtain ⟨k, hk⟩ := getrouteaddr_foreign q
    refine outcome_of_foreign (k := k) fun n w _ hw => ?_
    unfold readAddress
    simp only [hopening, List.cons_append, if_neg hspec, if_neg hcolon, if_pos hopen]
    exact notFromBracket_singleton hk hw
  by_cases hwords : phrase.words = []
  · refine outcome_of_nothing hsuffix hlt fun n w _ => ?_
    unfold readAddress
    simp only [hopening, List.cons_append, if_neg hspec, if_neg hcolon, if_neg hopen, hwords,
      ne_eq, not_true_eq_false, if_false, if_pos hspecial]
  · obtain ⟨first, words, hfirst⟩ := List.exists_cons_of_ne_nil hwords
    refine outcome_of_foreign (k := first) fun n w _ hw => ?_
    unfold readAddress
    simp only [hopening, List.cons_append, if_neg hspec, if_neg hcolon, if_neg hopen, if_pos hwords]
    rw [hfirst]
    exact .inl ⟨first, rfl, .inl rfl⟩

theorem getgroup_succ {n : ℕ} {t : Str} (h : t ≠ []) (hsemi : (gotonext t).2.head? ≠ some ';') :
    getgroup (n + 1) t =
      ((getaddress n (gotonext t).2).1 ++ (getgroup n (getaddress n (gotonext t).2).2).1,
        (getgroup n (getaddress n (gotonext t).2).2).2) := by
  rw [getgroup, if_neg h]
  dsimp only
  rw [if_neg hsemi]

theorem head?_append_mark (q w : Str) : (q ++ '<' :: w).head? = some ';' ↔ q.head? = some ';' := by
  rcases q with _ | ⟨c, q⟩
  · simp
  · exact Iff.rfl

/-- **The outcome of the members of a group**, given those of an address and of fewer members. -/
theorem group_outcome (haddress : ∀ q, q <:+ s → Outcome false q)
    (hgroup : ∀ q, q.length < s.length → Outcome true q) : Outcome true s := by
  have hne : ∀ w, s ++ '<' :: w ≠ [] := fun w => by simp
  have hcalls : ∀ n, calls true s ≤ n → ∃ m, n = m + 1 ∧ 2 * s.length + 1 ≤ m := by
    intro n hn
    have hle : 2 * s.length + 2 ≤ n := hn
    exact ⟨n - 1, by omega, by omega⟩
  rcases gotonext_bounded s with ⟨gap, q, hq, hgap⟩ | ⟨_, hgap⟩
  swap
  · refine .foreign [] fun n w hn hw => .inr ?_
    obtain ⟨m, rfl, -⟩ := hcalls n hn
    obtain ⟨gap, hgap, -⟩ := hgap w hw
    show getgroup (m + 1) _ = _
    rw [getgroup_succ (hne w) (by rw [hgap]; simp), hgap, getaddress_nil, getgroup_nil]
    rfl
  by_cases hsemi : q.head? = some ';'
  · -- the group is closed
    obtain ⟨q', rfl⟩ := List.head?_eq_some_iff.1 hsemi
    refine .nothing q' ((List.suffix_cons _ q').trans hq) (fun h => by cases h) fun n w hn => ?_
    obtain ⟨m, rfl, -⟩ := hcalls n hn
    show getgroup (m + 1) _ = _
    rw [getgroup, if_neg (hne w)]
    dsimp only
    rw [hgap]
    rfl
  have hhead : ∀ w, (gotonext (s ++ '<' :: w)).2.head? ≠ some ';' := by
    intro w
    rwa [hgap, ne_eq, head?_append_mark]
  have hread : ∀ m w, reader true (m + 1) (s ++ '<' :: w) =
      ((getaddress m (q ++ '<' :: w)).1 ++ (getgroup m (getaddress m (q ++ '<' :: w)).2).1,
        (getgroup m (getaddress m (q ++ '<' :: w)).2).2) := by
    intro m w
    show getgroup (m + 1) _ = _
    rw [getgroup_succ (hne w) (hhead w), hgap]
  have hle := hq.length_le
  have hcallsq : ∀ m, 2 * s.length + 1 ≤ m → calls false q ≤ m := by
    intro m hm
    have heq : calls false q = 2 * q.length + 1 := rfl
    omega
  cases haddress q hq with
  | reaches h =>
    have hgap' : (gotonext (s ++ ['<'])).2 = q ++ ['<'] := congrArg Prod.snd (hgap [])
    exact .reaches (.member (hhead []) (by rwa [hgap']))
  | foreign k hk =>
    refine .foreign k fun n w hn hw => ?_
    obtain ⟨m, rfl, hm⟩ := hcalls n hn
    rw [hread]
    rcases hk m w (hcallsq m hm) hw with ⟨a, hfirst, ha⟩ | hnone
    · obtain ⟨pair, hpair, hsnd⟩ := Option.map_eq_some_iff.1 hfirst
      obtain ⟨pairs, hpairs⟩ := List.head?_eq_some_iff.1 hpair
      refine .inl ⟨a, ?_, ha⟩
      have hpairs' : (getaddress m (q ++ '<' :: w)).1 = pair :: pairs := hpairs
      rw [hpairs']
      exact congrArg some hsnd
    · have hnone' : getaddress m (q ++ '<' :: w) = ([], []) := hnone
      rw [hnone', getgroup_nil]
      exact .inr rfl
  | nothing q' hq' hlt hnothing =>
    have hlt' := hlt rfl
    have hcallsq' : ∀ m, 2 * s.length + 1 ≤ m → calls true q' ≤ m := by
      intro m hm
      have heq : calls true q' = 2 * q'.length + 2 := rfl
      omega
    have hread' : ∀ m w, 2 * s.length + 1 ≤ m →
        reader true (m + 1) (s ++ '<' :: w) = reader true m (q' ++ '<' :: w) := by
      intro m w hm
      have hskip : getaddress m (q ++ '<' :: w) = ([], q' ++ '<' :: w) :=
        hnothing m w (hcallsq m hm)
      rw [hread, hskip]
      rfl
    cases hgroup q' (lt_of_lt_of_le hlt' hle) with
    | reaches h =>
      have hgap' : (gotonext (s ++ ['<'])).2 = q ++ ['<'] := congrArg Prod.snd (hgap [])
      have hskip : getaddress (nesting (q ++ ['<'])) (q ++ ['<']) = ([], q' ++ ['<']) :=
        hnothing _ [] (calls_le_nesting q [])
      exact .reaches (.skip (hhead []) (by rwa [hgap']) h)
    | nothing q'' hq'' _ hnothing' =>
      refine .nothing q'' ((hq''.trans hq').trans hq) (fun h => by cases h) fun n w hn => ?_
      obtain ⟨m, rfl, hm⟩ := hcalls n hn
      rw [hread' m w hm]
      exact hnothing' m w (hcallsq' m hm)
    | foreign k hk =>
      refine .foreign k fun n w hn hw => ?_
      obtain ⟨m, rfl, hm⟩ := hcalls n hn
      rw [hread' m w hm]
      exact hk m w (hcallsq' m hm) hw

/-- **What a reader makes of a text in front of a bracket.** -/
theorem reader_outcome (grouped : Bool) (s : Str) : Outcome grouped s := by
  induction hlength : s.length using Nat.strong_induction_on generalizing grouped s with
  | _ n ih =>
    have haddress : ∀ q, q.length ≤ n → Outcome false q := fun q hq =>
      address_outcome fun q' hq' => ih _ (lt_of_lt_of_le hq' hq) true q' rfl
    cases grouped with
    | false => exact haddress s hlength.le
    | true =>
      exact group_outcome (fun q hq => haddress q (hlength ▸ hq.length_le))
        fun q hq => ih _ (hlength ▸ hq) true q rfl

/-- Behind its bracket, the text is read as an address, to the end. -/
def Complete (w a : Str) : Prop := (getrouteaddr w).1.adlist = a ∧ skipComma (getrouteaddr w).2 = []

theorem complete_nil : Complete [] [] := ⟨rfl, rfl⟩

theorem not_reaches_nil {grouped : Bool} {t : Str} (h : Reaches grouped t) : t ≠ [] := by
  induction h with
  | bracket hopening =>
    rintro rfl
    cases hopening
  | group hopening _ _ =>
    rintro rfl
    cases hopening
  | member _ _ ih =>
    rintro rfl
    exact ih rfl
  | skip _ hskip _ ih =>
    rintro rfl
    rw [show (gotonext []).2 = [] from rfl, getaddress_nil] at hskip
    exact ih (Prod.ext_iff.1 hskip).2.symm

/-- The reader reads the address in the brackets, and nothing else. -/
def ReadsBracket (grouped : Bool) (s : Str) : Prop :=
  ∀ n w a, calls grouped s ≤ n → Complete w a →
    ∃ name, reader grouped n (s ++ '<' :: w) = ([(name, a)], [])

theorem readsBracket_of_phrase (h : (opening (s ++ ['<'])).2 = ['<']) : ReadsBracket false s := by
  obtain ⟨phrase, q, -, hopening⟩ :=
    (opening_bounded s).of_rest_ne_nil useless_nil (by rw [h]; exact List.cons_ne_nil _ _)
  obtain rfl : q = [] := by
    have hlast : q ++ ['<'] = ['<'] := (congrArg Prod.snd (hopening [])).symm.trans h
    exact List.append_left_eq_self.1 hlast
  intro n w a hn hw
  obtain ⟨m, rfl, -⟩ := exists_succ hn
  have hread : readAddress (getgroup m) (s ++ '<' :: w) =
      ([(routeName phrase.words (phrase.comments ++ (getrouteaddr w).1.comments), a)],
        (getrouteaddr w).2) := by
    unfold readAddress
    rw [hopening, ← hw.1]
    rfl
  refine ⟨routeName phrase.words (phrase.comments ++ (getrouteaddr w).1.comments), ?_⟩
  show getaddress (m + 1) _ = _
  rw [getaddress, hread, hw.2]

theorem readsBracket_of_group {t : Str} (h : (opening (s ++ ['<'])).2 = ':' :: t)
    (ht : ∀ q, t = q ++ ['<'] → q.length < s.length → ReadsBracket true q) :
    ReadsBracket false s := by
  obtain ⟨phrase, q, hq, hopening⟩ :=
    (opening_bounded s).of_rest_ne_nil useless_nil (by rw [h]; exact List.cons_ne_nil _ _)
  have hlast : q ++ ['<'] = ':' :: t := (congrArg Prod.snd (hopening [])).symm.trans h
  rcases q with _ | ⟨c, q⟩
  · cases hlast
  obtain ⟨rfl, rfl⟩ := List.cons.inj hlast
  have hlt : q.length < s.length := Nat.lt_of_succ_le hq.length_le
  intro n w a hn hw
  obtain ⟨m, rfl, hm⟩ := exists_succ hn
  have hcalls : calls true q ≤ m := by
    have heq : calls true q = 2 * q.length + 2 := rfl
    omega
  obtain ⟨name, hname⟩ := ht q rfl hlt m w a hcalls hw
  have hname' : getgroup m (q ++ '<' :: w) = ([(name, a)], []) := hname
  have hread : readAddress (getgroup m) (s ++ '<' :: w) = ([(name, a)], []) := by
    unfold readAddress
    rw [hopening]
    exact hname'
  refine ⟨name, ?_⟩
  show getaddress (m + 1) _ = _
  rw [getaddress, hread]
  rfl

/-- How the members of a group begin, in front of a bracket. -/
theorem getgroup_of_gotonext (hsemi : (gotonext (s ++ ['<'])).2.head? ≠ some ';')
    (hne : (gotonext (s ++ ['<'])).2 ≠ []) :
    ∃ q, q <:+ s ∧ (gotonext (s ++ ['<'])).2 = q ++ ['<'] ∧ ∀ m w, getgroup (m + 1) (s ++ '<' :: w) =
      ((getaddress m (q ++ '<' :: w)).1 ++ (getgroup m (getaddress m (q ++ '<' :: w)).2).1,
        (getgroup m (getaddress m (q ++ '<' :: w)).2).2) := by
  obtain ⟨gap, q, hq, hgap⟩ := (gotonext_bounded s).of_rest_ne_nil useless_nil hne
  have hgap' : (gotonext (s ++ ['<'])).2 = q ++ ['<'] := congrArg Prod.snd (hgap [])
  refine ⟨q, hq, hgap', fun m w => ?_⟩
  have hhead : (gotonext (s ++ '<' :: w)).2.head? ≠ some ';' := by
    rw [hgap'] at hsemi
    rwa [hgap, ne_eq, head?_append_mark, ← head?_append_mark q []]
  rw [getgroup_succ (by simp) hhead, hgap]

theorem readsBracket_of_member (hsemi : (gotonext (s ++ ['<'])).2.head? ≠ some ';')
    (hne : (gotonext (s ++ ['<'])).2 ≠ [])
    (h : ∀ q, (gotonext (s ++ ['<'])).2 = q ++ ['<'] → q <:+ s → ReadsBracket false q) :
    ReadsBracket true s := by
  obtain ⟨q, hq, hgap, hread⟩ := getgroup_of_gotonext hsemi hne
  have hle := hq.length_le
  intro n w a hn hw
  have hn' : 2 * s.length + 2 ≤ n := hn
  obtain ⟨m, rfl⟩ : ∃ m, n = m + 1 := ⟨n - 1, by omega⟩
  have hcalls : calls false q ≤ m := by
    have heq : calls false q = 2 * q.length + 1 := rfl
    omega
  obtain ⟨name, hname⟩ := h q hgap hq m w a hcalls hw
  have hname' : getaddress m (q ++ '<' :: w) = ([(name, a)], []) := hname
  refine ⟨name, ?_⟩
  show getgroup (m + 1) _ = _
  rw [hread, hname', getgroup_nil]
  rfl

theorem readsBracket_of_skip {t : Str} (hsemi : (gotonext (s ++ ['<'])).2.head? ≠ some ';')
    (hskip : getaddress (nesting (gotonext (s ++ ['<'])).2) (gotonext (s ++ ['<'])).2 = ([], t))
    (htne : t ≠ [])
    (haddress : ∀ q, q <:+ s → Reaches false (q ++ ['<']) → ReadsBracket false q)
    (hgroup : ∀ q, t = q ++ ['<'] → q.length < s.length → ReadsBracket true q) :
    ReadsBracket true s := by
  have hne : (gotonext (s ++ ['<'])).2 ≠ [] := by
    intro hnil
    rw [hnil, getaddress_nil] at hskip
    exact htne (Prod.ext_iff.1 hskip).2.symm
  obtain ⟨q, hq, hgap, hread⟩ := getgroup_of_gotonext hsemi hne
  rw [hgap] at hskip
  have hle := hq.length_le
  cases reader_outcome false q with
  | reaches h =>
    obtain ⟨name, hname⟩ := haddress q hq h _ [] [] (calls_le_nesting q []) complete_nil
    have hname' : getaddress (nesting (q ++ ['<'])) (q ++ ['<']) = ([(name, [])], []) := hname
    rw [hname'] at hskip
    cases hskip
  | foreign k hk =>
    rcases hk _ [] (calls_le_nesting q []) useless_nil with ⟨a, hfirst, -⟩ | hnone
    · have hfirst' : firstAddress (getaddress (nesting (q ++ ['<'])) (q ++ ['<'])).1 = some a := hfirst
      rw [hskip] at hfirst'
      cases hfirst'
    · have hnone' : getaddress (nesting (q ++ ['<'])) (q ++ ['<']) = ([], []) := hnone
      rw [hskip] at hnone'
      exact absurd (Prod.ext_iff.1 hnone').2 htne
  | nothing q' hq' hlt hnothing =>
    have hlt' := hlt rfl
    have hskip' : getaddress (nesting (q ++ ['<'])) (q ++ ['<']) = ([], q' ++ ['<']) :=
      hnothing _ [] (calls_le_nesting q [])
    rw [hskip] at hskip'
    intro n w a hn hw
    have hn' : 2 * s.length + 2 ≤ n := hn
    obtain ⟨m, rfl⟩ : ∃ m, n = m + 1 := ⟨n - 1, by omega⟩
    have hcalls : calls true q' ≤ m := by
      have heq : calls true q' = 2 * q'.length + 2 := rfl
      omega
    have hcalls' : calls false q ≤ m := by
      have heq : calls false q = 2 * q.length + 1 := rfl
      omega
    obtain ⟨name, hname⟩ :=
      hgroup q' (Prod.ext_iff.1 hskip').2 (lt_of_lt_of_le hlt' hle) m w a hcalls hw
    have hname' : getgroup m (q' ++ '<' :: w) = ([(name, a)], []) := hname
    have hnone : getaddress m (q ++ '<' :: w) = ([], q' ++ '<' :: w) := hnothing m w hcalls'
    refine ⟨name, ?_⟩
    show getgroup (m + 1) _ = _
    rw [hread, hnone, hname']
    rfl

/-- **What comes to the bracket** reads the address in the brackets. -/
theorem readsBracket_of_reaches {grouped : Bool} {s : Str} (h : Reaches grouped (s ++ ['<'])) :
    ReadsBracket grouped s := by
  induction hmeasure : calls grouped s using Nat.strong_induction_on generalizing grouped s with
  | _ m ih =>
    have hless : ∀ {q : Str}, q.length < s.length → calls true q < m := by
      intro q hlt
      have hq : calls true q = 2 * q.length + 2 := rfl
      have hs : 2 * s.length + 1 ≤ calls grouped s := by
        cases grouped <;> simp [calls]
      omega
    generalize hlast : s ++ ['<'] = last at h
    cases h with
    | bracket hopening =>
      subst hlast
      exact readsBracket_of_phrase hopening
    | group hopening ht =>
      subst hlast
      refine readsBracket_of_group hopening fun q heq hlt => ?_
      exact ih _ (hless hlt) (heq ▸ ht) rfl
    | member hsemi h =>
      subst hlast
      refine readsBracket_of_member hsemi (not_reaches_nil h) fun q heq hq => ?_
      have hle := hq.length_le
      refine ih (calls false q) ?_ (heq ▸ h) rfl
      rw [← hmeasure]
      simp only [calls, if_true, Bool.false_eq_true, if_false]
      omega
    | skip hsemi hskip ht =>
      subst hlast
      refine readsBracket_of_skip hsemi hskip (not_reaches_nil ht) (fun q hq h => ?_)
        fun q heq hlt => ih _ (hless hlt) (heq ▸ ht) rfl
      have hle := hq.length_le
      refine ih (calls false q) ?_ h rfl
      rw [← hmeasure]
      simp only [calls, if_true, Bool.false_eq_true, if_false]
      omega

/-! ## Strict parsing -/

/-- A double quote is open at the end of the text. -/
def openQuote : Bool → Bool → Str → Bool
  | _, quoted, [] => quoted
  | true, quoted, _ :: s => openQuote false quoted s
  | false, quoted, c :: s =>
    if c = '"' then openQuote false (!quoted) s else openQuote (c = '\\') quoted s

/-- Behind a bracket that is not quoted, quotes are stripped anew. -/
theorem stripQuoted_append {escaped : Bool} {quoted : Option Str} {s : Str}
    (h : openQuote escaped quoted.isSome s = false) (w : Str) :
    stripQuoted escaped quoted (s ++ '<' :: w) =
      stripQuoted escaped quoted (s ++ ['<']) ++ stripQuotedRealnames w := by
  fun_induction stripQuoted escaped quoted s with
  | case1 escaped =>
    cases escaped with
    | true => rfl
    | false => rfl
  | case2 => cases h
  | case3 c s ih => exact congrArg (c :: ·) (ih h)
  | case4 quoted c s ih => exact ih h
  | case5 s ih => exact ih h
  | case6 c s hquote ih =>
    rw [openQuote, if_neg hquote] at h
    rw [List.cons_append, List.cons_append, stripQuoted, stripQuoted, if_neg hquote, if_neg hquote,
      ih h, List.cons_append]
  | case7 quoted s ih => exact ih h
  | case8 quoted c s hquote ih =>
    rw [openQuote, if_neg hquote] at h
    rw [List.cons_append, List.cons_append, stripQuoted, stripQuoted, if_neg hquote, if_neg hquote,
      ih h]

theorem stripQuoted_mark {escaped : Bool} {quoted : Option Str} {s : Str}
    (h : openQuote escaped quoted.isSome s = false) :
    ∃ t, stripQuoted escaped quoted (s ++ ['<']) = t ++ ['<'] := by
  fun_induction stripQuoted escaped quoted s with
  | case1 escaped =>
    cases escaped with
    | true => exact ⟨[], rfl⟩
    | false => exact ⟨[], rfl⟩
  | case2 => cases h
  | case3 c s ih =>
    obtain ⟨t, ht⟩ := ih h
    exact ⟨c :: t, congrArg (c :: ·) ht⟩
  | case4 quoted c s ih => exact ih h
  | case5 s ih => exact ih h
  | case6 c s hquote ih =>
    rw [openQuote, if_neg hquote] at h
    obtain ⟨t, ht⟩ := ih h
    refine ⟨c :: t, ?_⟩
    rw [List.cons_append, stripQuoted, if_neg hquote, ht, List.cons_append]
  | case7 quoted s ih => exact ih h
  | case8 quoted c s hquote ih =>
    rw [openQuote, if_neg hquote] at h
    rw [List.cons_append, stripQuoted, if_neg hquote]
    exact ih h

/-- An address with a comma in quotes. -/
def quotedProbe : Str := "\"x,y\"@z".toList

/-- A quote that is open closes at the first quote of the address, and its comma counts. -/
theorem comma_mem_stripQuoted {escaped : Bool} {quoted : Option Str} {s : Str}
    (h : openQuote escaped quoted.isSome s = true) :
    ',' ∈ stripQuoted escaped quoted (s ++ '<' :: (quotedProbe ++ ['>'])) := by
  fun_induction stripQuoted escaped quoted s with
  | case1 => cases h
  | case2 escaped quoted =>
    cases escaped with
    | true => exact List.mem_cons_of_mem 'x' (List.mem_cons_self ..)
    | false => exact List.mem_cons_of_mem 'x' (List.mem_cons_self ..)
  | case3 c s ih => exact List.mem_cons_of_mem _ (ih h)
  | case4 quoted c s ih => exact ih h
  | case5 s ih => exact ih h
  | case6 c s hquote ih =>
    rw [openQuote, if_neg hquote] at h
    rw [List.cons_append, stripQuoted, if_neg hquote]
    exact List.mem_cons_of_mem _ (ih h)
  | case7 quoted s ih => exact ih h
  | case8 quoted c s hquote ih =>
    rw [openQuote, if_neg hquote] at h
    rw [List.cons_append, stripQuoted, if_neg hquote]
    exact ih h

theorem checkParens_cons (opens : ℕ) (c : Char) (s : Str) :
    checkParens false opens (c :: s) =
      if c = '(' then checkParens false (opens + 1) s
      else if c = ')' then if opens = 0 then false else checkParens false (opens - 1) s
      else checkParens (c = '\\') opens s := by
  cases opens with
  | zero => rfl
  | succ opens => rfl

/-- Parentheses that are balanced up to a bracket are counted anew behind it. -/
theorem checkParens_append {escaped : Bool} {opens : ℕ} {s : Str}
    (h : checkParens escaped opens (s ++ ['<']) = true) (w : Str) :
    checkParens escaped opens (s ++ '<' :: w) = checkParens false 0 w := by
  induction s generalizing escaped opens with
  | nil =>
    have hopens : opens = 0 := by
      cases escaped with
      | true => simpa [checkParens] using h
      | false => simpa [checkParens] using h
    subst hopens
    cases escaped with
    | true => rfl
    | false => rfl
  | cons c s ih =>
    cases escaped with
    | true => exact ih h
    | false =>
      rw [List.cons_append, checkParens_cons] at h ⊢
      split_ifs at h ⊢
      · exact ih h
      · exact ih h
      · exact ih h

theorem checkParens_free {escaped : Bool} {opens : ℕ} (hw : ∀ c ∈ w, c ≠ '(' ∧ c ≠ ')') :
    checkParens escaped opens w = decide (opens = 0) := by
  induction w generalizing escaped with
  | nil => rfl
  | cons c w ih =>
    have hfree : ∀ d ∈ w, d ≠ '(' ∧ d ≠ ')' := fun d hd => hw d (List.mem_cons_of_mem _ hd)
    obtain ⟨hopen, hclose⟩ := hw c (List.mem_cons_self ..)
    cases escaped with
    | true => exact ih hfree
    | false =>
      rw [checkParens_cons, if_neg hopen, if_neg hclose]
      exact ih hfree

/-- Behind a bracket, a text without parentheses leaves them as they are. -/
theorem checkParens_append_free {escaped : Bool} {opens : ℕ} (s : Str)
    (hw : ∀ c ∈ w, c ≠ '(' ∧ c ≠ ')') :
    checkParens escaped opens (s ++ '<' :: w) = checkParens escaped opens (s ++ ['<']) := by
  have hmark : ∀ t, (∀ c ∈ t, c ≠ '(' ∧ c ≠ ')') → ∀ c ∈ '<' :: t, c ≠ '(' ∧ c ≠ ')' :=
    fun t ht => List.forall_mem_cons.2 ⟨by decide, ht⟩
  induction s generalizing escaped opens with
  | nil =>
    rw [List.nil_append, List.nil_append, checkParens_free (hmark w hw),
      checkParens_free (hmark [] (by simp))]
  | cons c s ih =>
    cases escaped with
    | true => exact ih
    | false =>
      rw [List.cons_append, List.cons_append, checkParens_cons, checkParens_cons]
      simp only [ih]

/-- **What is asked of the text in front of the bracket**, with the bracket: the parser comes to the
bracket, double quotes come in pairs, there are no commas outside of them, and the parentheses
outside of them are balanced. -/
structure ReadsAsPhrase (t : Str) : Prop where
  reaches : Reaches false t
  quotes : openQuote false false t = false
  commas : (stripQuotedRealnames t).count ',' = 0
  parens : checkParenthesis t = true

/-- The address is what is read of the brackets alone. -/
def IsBracketed (a : Str) : Prop := a ≠ [] ∧ getaddresses ('<' :: a ++ ['>']) = [([], a)]

/-- The field is refused. -/
theorem getaddresses_of_check {v : Str} (h : checkParenthesis v ≠ true) :
    getaddresses v = [([], [])] := by
  unfold getaddresses preParseValidation
  rw [if_neg h]
  decide +kernel

theorem getaddresses_of_count {v : Str} (hcheck : checkParenthesis v = true)
    (h : (getaddrlist v).length ≠ 1 + (stripQuotedRealnames v).count ',') :
    getaddresses v = [([], [])] := by
  unfold getaddresses preParseValidation
  rw [if_pos hcheck]
  dsimp only
  rw [if_pos]
  rwa [postParseValidation, List.length_map]

theorem getaddresses_of_length {v : Str} (hcheck : checkParenthesis v = true)
    (h : (getaddrlist v).length = 1 + (stripQuotedRealnames v).count ',') :
    getaddresses v = postParseValidation (getaddrlist v) := by
  unfold getaddresses preParseValidation
  rw [if_pos hcheck]
  dsimp only
  rw [if_neg]
  rwa [postParseValidation, List.length_map, not_not]

theorem opening_mark (w : Str) : opening ('<' :: w) = (⟨[], []⟩, '<' :: w) := rfl

theorem getaddrlist_mark (w : Str) :
    getaddrlist ('<' :: w) = (routeName [] (getrouteaddr w).1.comments, (getrouteaddr w).1.adlist) ::
      getaddrlistUpto w.length (skipComma (getrouteaddr w).2) := by
  have hread : getaddress (nesting ('<' :: w)) ('<' :: w) =
      ([(routeName [] (getrouteaddr w).1.comments, (getrouteaddr w).1.adlist)],
        skipComma (getrouteaddr w).2) := by
    unfold nesting
    rw [getaddress]
    unfold readAddress
    rw [opening_mark]
    rfl
  unfold getaddrlist
  rw [List.length_cons, getaddrlistUpto]
  rw [hread]
  rfl

theorem getaddrlistUpto_ne_nil {n : ℕ} {t : Str} (hn : n ≠ 0) (ht : t ≠ []) :
    getaddrlistUpto n t ≠ [] := by
  obtain ⟨n, rfl⟩ := Nat.exists_eq_add_one_of_ne_zero hn
  obtain ⟨c, t, rfl⟩ := List.exists_cons_of_ne_nil ht
  rw [getaddrlistUpto]
  split_ifs with hread
  · exact List.cons_ne_nil _ _
  · exact fun h => hread (List.append_eq_nil_iff.1 h).1

/-- What an address is that is read of the brackets alone. -/
structure AddressText (a : Str) : Prop where
  complete : Complete (a ++ ['>']) a
  literal : '[' ∉ a
  commas : (stripQuotedRealnames (a ++ ['>'])).count ',' = 0
  parens : checkParens false 0 (stripQuotedRealnames (a ++ ['>'])) = true

theorem IsBracketed.text {a : Str} (h : IsBracketed a) : AddressText a := by
  obtain ⟨hne, hread⟩ := h
  have hrefused : getaddresses ('<' :: a ++ ['>']) ≠ [([], [])] := by
    rw [hread]
    simpa using hne
  have hcheck : checkParenthesis ('<' :: a ++ ['>']) = true :=
    not_not.1 fun hcheck => hrefused (getaddresses_of_check hcheck)
  have hcount : (getaddrlist ('<' :: a ++ ['>'])).length =
      1 + (stripQuotedRealnames ('<' :: a ++ ['>'])).count ',' :=
    not_not.1 fun hcount => hrefused (getaddresses_of_count hcheck hcount)
  rw [getaddresses_of_length hcheck hcount] at hread
  have hstrip : stripQuotedRealnames ('<' :: a ++ ['>']) = '<' :: stripQuotedRealnames (a ++ ['>']) :=
    rfl
  have hlength : (getaddrlist ('<' :: a ++ ['>'])).length = 1 := by
    have hlength := congrArg List.length hread
    rwa [postParseValidation, List.length_map] at hlength
  rw [hlength, hstrip] at hcount
  rw [List.cons_append, getaddrlist_mark] at hread hlength
  -- nothing is left behind the address
  have hrest : skipComma (getrouteaddr (a ++ ['>'])).2 = [] := by
    by_contra hrest
    refine getaddrlistUpto_ne_nil (n := (a ++ ['>']).length) (by simp) hrest ?_
    rw [List.length_cons] at hlength
    exact List.length_eq_zero_iff.1 (Nat.succ.inj hlength)
  rw [postParseValidation, List.map_cons] at hread
  have hfirst := (List.cons.inj hread).1
  split_ifs at hfirst with hliteral
  · exact absurd (Prod.ext_iff.1 hfirst).2.symm hne
  · have haddress : (getrouteaddr (a ++ ['>'])).1.adlist = a := (Prod.ext_iff.1 hfirst).2
    refine ⟨⟨haddress, hrest⟩, ?_, ?_, ?_⟩
    · rwa [haddress] at hliteral
    · rw [List.count_cons_of_ne (by decide)] at hcount
      omega
    · unfold checkParenthesis at hcheck
      rw [hstrip, checkParens_cons, if_neg (by decide), if_neg (by decide)] at hcheck
      exact hcheck

/-- The field with the address in the brackets. -/
theorem getaddrlist_of_reaches (h : Reaches false (s ++ ['<'])) {w a : Str} (hw : Complete w a) :
    ∃ name, getaddrlist (s ++ '<' :: w) = [(name, a)] := by
  obtain ⟨name, hname⟩ := readsBracket_of_reaches h _ w a (calls_le_nesting s w) hw
  have hname' : getaddress (nesting (s ++ '<' :: w)) (s ++ '<' :: w) = ([(name, a)], []) := hname
  refine ⟨name, ?_⟩
  obtain ⟨c, t, ht⟩ := List.exists_cons_of_ne_nil (l := s ++ '<' :: w) (by simp)
  rw [ht] at hname' ⊢
  unfold getaddrlist
  rw [List.length_cons, getaddrlistUpto]
  rw [hname']
  cases t.length <;> rfl

theorem openQuote_append_mark (escaped quoted : Bool) (s : Str) :
    openQuote escaped quoted (s ++ ['<']) = openQuote escaped quoted s := by
  fun_induction openQuote escaped quoted s with
  | case1 escaped quoted =>
    cases escaped with
    | true => rfl
    | false => rfl
  | case2 quoted c s ih => exact ih
  | case3 quoted s ih => exact ih
  | case4 quoted c s hquote ih =>
    rw [List.cons_append, openQuote, if_neg hquote]
    exact ih

/-- With its quotes closed, the text in front of the bracket is stripped by itself. -/
theorem stripQuotedRealnames_append (h : openQuote false false (s ++ ['<']) = false) (w : Str) :
    stripQuotedRealnames (s ++ '<' :: w) =
      stripQuotedRealnames (s ++ ['<']) ++ stripQuotedRealnames w := by
  rw [openQuote_append_mark] at h
  exact stripQuoted_append h w

theorem exists_stripQuotedRealnames (h : openQuote false false (s ++ ['<']) = false) :
    ∃ t, stripQuotedRealnames (s ++ ['<']) = t ++ ['<'] := by
  rw [openQuote_append_mark] at h
  exact stripQuoted_mark h

/-- **A text that reads as a phrase** leaves the address in the brackets. -/
theorem getaddresses_of_readsAsPhrase (h : ReadsAsPhrase (s ++ ['<'])) {a : Str}
    (ha : IsBracketed a) : ∃ name, getaddresses (s ++ '<' :: (a ++ ['>'])) = [(name, a)] := by
  have htext := ha.text
  obtain ⟨name, hlist⟩ := getaddrlist_of_reaches h.reaches htext.complete
  have hstrip := stripQuotedRealnames_append h.quotes (a ++ ['>'])
  obtain ⟨t, ht⟩ := exists_stripQuotedRealnames h.quotes
  have hcheck : checkParenthesis (s ++ '<' :: (a ++ ['>'])) = true := by
    have hparens := h.parens
    unfold checkParenthesis at hparens ⊢
    rw [ht] at hparens
    rw [hstrip, ht, List.append_assoc, List.singleton_append, checkParens_append hparens]
    exact htext.parens
  have hcount : (getaddrlist (s ++ '<' :: (a ++ ['>']))).length =
      1 + (stripQuotedRealnames (s ++ '<' :: (a ++ ['>']))).count ',' := by
    rw [hlist, hstrip, List.count_append, h.commas, htext.commas]
    rfl
  refine ⟨name, ?_⟩
  rw [getaddresses_of_length hcheck hcount, hlist]
  show [if '[' ∈ a then _ else _] = _
  rw [if_neg htext.literal]

/-- A plain address. -/
def plainProbe : Str := "a@b".toList

/-- Another plain address. -/
def otherProbe : Str := "c@d".toList

theorem isBracketed_plainProbe : IsBracketed plainProbe :=
  ⟨by decide, by decide +kernel⟩

theorem isBracketed_otherProbe : IsBracketed otherProbe :=
  ⟨by decide, by decide +kernel⟩

theorem isBracketed_quotedProbe : IsBracketed quotedProbe :=
  ⟨by decide, by decide +kernel⟩

/-- The first address of a field is empty, or the first that is read. -/
theorem firstAddress_getaddresses {v : Str} (hv : v ≠ []) :
    firstAddress (getaddresses v) = some [] ∨
      (firstAddress (getaddress (nesting v) v).1).isSome = true ∧
        firstAddress (getaddresses v) = firstAddress (getaddress (nesting v) v).1 := by
  by_cases hcheck : checkParenthesis v = true
  swap
  · exact .inl (by rw [getaddresses_of_check hcheck]; rfl)
  by_cases hcount : (getaddrlist v).length = 1 + (stripQuotedRealnames v).count ','
  swap
  · exact .inl (by rw [getaddresses_of_count hcheck hcount]; rfl)
  rw [getaddresses_of_length hcheck hcount]
  obtain ⟨c, t, rfl⟩ := List.exists_cons_of_ne_nil hv
  have hlist : getaddrlist (c :: t) =
      (if (getaddress (nesting (c :: t)) (c :: t)).1 = [] then [([], [])]
        else (getaddress (nesting (c :: t)) (c :: t)).1) ++
      getaddrlistUpto t.length (getaddress (nesting (c :: t)) (c :: t)).2 := rfl
  rw [hlist]
  rcases hread : (getaddress (nesting (c :: t)) (c :: t)).1 with _ | ⟨pair, pairs⟩
  · exact .inl rfl
  · rw [if_neg (List.cons_ne_nil _ _), postParseValidation, List.cons_append, List.map_cons]
    by_cases hliteral : '[' ∈ pair.2
    · rw [if_pos hliteral]
      exact .inl rfl
    · rw [if_neg hliteral]
      exact .inr ⟨rfl, rfl⟩

theorem firstAddress_of_refused {v : Str}
    (h : checkParenthesis v = true →
      (getaddrlist v).length ≠ 1 + (stripQuotedRealnames v).count ',') :
    firstAddress (getaddresses v) = some [] := by
  by_cases hcheck : checkParenthesis v = true
  · rw [getaddresses_of_count hcheck (h hcheck)]
    rfl
  · rw [getaddresses_of_check hcheck]
    rfl

theorem probe_chars {a : Str} (ha : a ∈ [plainProbe, otherProbe]) :
    Useless (a ++ ['>']) ∧ ∀ c ∈ stripQuotedRealnames (a ++ ['>']), c ≠ '(' ∧ c ≠ ')' := by
  unfold Useless
  revert a
  decide +kernel

/-- The first address is empty, or the given one, or holds a bracket. -/
def Elsewhere (k : Str) (pairs : List (Str × Str)) : Prop :=
  ∃ b, firstAddress pairs = some b ∧ (b = [] ∨ b = k ∨ '<' ∈ b)

/-- **A text that does not read as a phrase** hides some address: of two plain ones, or one that is
quoted. -/
theorem firstAddress_of_not_readsAsPhrase (h : ¬ReadsAsPhrase (s ++ ['<'])) :
    (∃ k, ∀ a ∈ [plainProbe, otherProbe], Elsewhere k (getaddresses (s ++ '<' :: (a ++ ['>'])))) ∨
      firstAddress (getaddresses (s ++ '<' :: (quotedProbe ++ ['>']))) = some [] := by
  have hne : ∀ w, s ++ '<' :: w ≠ [] := fun w => by simp
  cases reader_outcome false s with
  | nothing q _ _ hnothing =>
    refine .inl ⟨[], fun a _ => ⟨[], ?_, .inl rfl⟩⟩
    rcases firstAddress_getaddresses (hne (a ++ ['>'])) with hfirst | ⟨hsome, -⟩
    · exact hfirst
    · have hread := hnothing _ (a ++ ['>']) (calls_le_nesting s (a ++ ['>']))
      have hread' : (getaddress (nesting (s ++ '<' :: (a ++ ['>']))) (s ++ '<' :: (a ++ ['>']))).1 = [] :=
        congrArg Prod.fst hread
      rw [hread'] at hsome
      cases hsome
  | foreign k hk =>
    refine .inl ⟨k, fun a ha => ?_⟩
    rcases firstAddress_getaddresses (hne (a ++ ['>'])) with hfirst | ⟨hsome, heq⟩
    · exact ⟨[], hfirst, .inl rfl⟩
    · rcases hk _ (a ++ ['>']) (calls_le_nesting s _) (probe_chars ha).1 with ⟨b, hb, hwhere⟩ | hnone
      · exact ⟨b, heq.trans hb, .inr hwhere⟩
      · have hnone' : (getaddress (nesting (s ++ '<' :: (a ++ ['>']))) (s ++ '<' :: (a ++ ['>']))).1 =
            [] := congrArg Prod.fst hnone
        rw [hnone'] at hsome
        cases hsome
  | reaches hreaches =>
    by_cases hquotes : openQuote false false (s ++ ['<']) = false
    · refine .inl ⟨[], fun a ha => ⟨[], firstAddress_of_refused fun hcheck hcount => h ?_, .inl rfl⟩⟩
      obtain ⟨-, hfree⟩ := probe_chars ha
      have htext : AddressText a := by
        rcases List.mem_cons.1 ha with rfl | ha
        · exact isBracketed_plainProbe.text
        · obtain rfl := List.mem_singleton.1 ha
          exact isBracketed_otherProbe.text
      obtain ⟨name, hlist⟩ := getaddrlist_of_reaches hreaches htext.complete
      have hstrip := stripQuotedRealnames_append hquotes (a ++ ['>'])
      obtain ⟨t, ht⟩ := exists_stripQuotedRealnames hquotes
      refine ⟨hreaches, hquotes, ?_, ?_⟩
      · rw [hlist, hstrip, List.count_append, List.length_singleton] at hcount
        omega
      · unfold checkParenthesis at hcheck ⊢
        rw [hstrip, ht, List.append_assoc, List.singleton_append, checkParens_append_free t hfree]
          at hcheck
        rwa [ht]
    · -- the open quote ends in the address
      right
      rw [Bool.not_eq_false, openQuote_append_mark] at hquotes
      refine firstAddress_of_refused fun _ hcount => ?_
      obtain ⟨name, hlist⟩ := getaddrlist_of_reaches hreaches isBracketed_quotedProbe.text.complete
      have hmem : ',' ∈ stripQuotedRealnames (s ++ '<' :: (quotedProbe ++ ['>'])) :=
        comma_mem_stripQuoted hquotes
      have hpos := List.count_pos_iff.2 hmem
      rw [hlist, List.length_singleton] at hcount
      omega

/-! ## Phrases -/

theorem stripQuoted_of_not_mem {escaped : Bool} (h : '"' ∉ s) : stripQuoted escaped none s = s := by
  induction s generalizing escaped with
  | nil => cases escaped <;> rfl
  | cons c s ih =>
    rw [List.mem_cons, not_or] at h
    cases escaped with
    | true => exact congrArg (c :: ·) (ih h.2)
    | false => rw [stripQuoted, if_neg (Ne.symm h.1), ih h.2]

theorem openQuote_of_not_mem {escaped : Bool} (h : '"' ∉ s) : openQuote escaped false s = false := by
  induction s generalizing escaped with
  | nil => cases escaped <;> rfl
  | cons c s ih =>
    rw [List.mem_cons, not_or] at h
    cases escaped with
    | true => exact ih h.2
    | false =>
      rw [openQuote, if_neg (Ne.symm h.1)]
      exact ih h.2

/-- White space, or a character of an atom or a dot. -/
def IsPhraseChar (c : Char) : Prop := isFws c = true ∨ isPhraseEnd c = false

theorem IsPhraseChar.ne {d : Char} (h : IsPhraseChar c)
    (hd : isFws d = false ∧ isPhraseEnd d = true) : c ≠ d := by
  rintro rfl
  rcases h with h | h
  · rw [h] at hd
    cases hd.1
  · rw [h] at hd
    cases hd.2

/-- In front of a bracket, a gap ends before the bracket. -/
theorem gotonext_phrase (h : ∀ c ∈ s, IsPhraseChar c) (gap : Gap) :
    ∃ q, q <:+ s ∧ (readWhile gotonextStep gap (s ++ ['<'])).2 = q ++ ['<'] := by
  have hconsuming := gotonextStep_bounded.consuming
  induction s generalizing gap with
  | nil => exact ⟨[], List.suffix_rfl, rfl⟩
  | cons c s ih =>
    have hopen : c ≠ '(' := (h c (List.mem_cons_self ..)).ne (by decide)
    have hrest := ih fun d hd => h d (List.mem_cons_of_mem _ hd)
    rw [List.cons_append]
    by_cases hlws : isLws c = true
    · obtain ⟨q, hq, hread⟩ := hrest { gap with ws := gap.ws ++ [c] }
      refine ⟨q, hq.trans (List.suffix_cons c s), ?_⟩
      rw [readWhile_of_some hconsuming (if_pos hlws), hread]
    by_cases hcr : isCr c = true
    · obtain ⟨q, hq, hread⟩ := hrest gap
      refine ⟨q, hq.trans (List.suffix_cons c s), ?_⟩
      have hstep : gotonextStep gap c (s ++ ['<']) = some (gap, s ++ ['<']) := by
        unfold gotonextStep
        rw [if_neg hlws, if_pos hcr]
      rw [readWhile_of_some hconsuming hstep, hread]
    · have hstep : gotonextStep gap c (s ++ ['<']) = none := by
        unfold gotonextStep
        rw [if_neg hlws, if_neg hcr, if_neg hopen]
      refine ⟨c :: s, List.suffix_rfl, ?_⟩
      rw [readWhile_of_none hconsuming hstep]
      rfl

/-- The words of a phrase are read up to the bracket. -/
theorem getphraselist_phrase (h : ∀ c ∈ s, IsPhraseChar c) (phrase : Phrase) :
    (readWhile getphraselistStep phrase (s ++ ['<'])).2 = ['<'] := by
  have hconsuming := getphraselistStep_bounded.consuming
  induction hlength : s.length using Nat.strong_induction_on generalizing s phrase with
  | _ n ih =>
    rcases s with _ | ⟨c, s⟩
    · rfl
    have hlt : s.length < n := by
      rw [← hlength, List.length_cons]
      exact Nat.lt_succ_self _
    have hrest : ∀ d ∈ s, IsPhraseChar d := fun d hd => h d (List.mem_cons_of_mem _ hd)
    have hc := h c (List.mem_cons_self ..)
    rw [List.cons_append]
    by_cases hfws : isFws c = true
    · rw [readWhile_of_some hconsuming (if_pos hfws)]
      exact ih _ hlt hrest phrase rfl
    have hquote : c ≠ '"' := hc.ne (by decide)
    have hopen : c ≠ '(' := hc.ne (by decide)
    have hend : ¬isPhraseEnd c = true := Bool.eq_false_iff.1 (hc.resolve_left hfws)
    rcases atom_bounded isPhraseEnd_mark s with ⟨atom, q, hq, hatom⟩ | ⟨k, hatom⟩
    · have hstep : getphraselistStep phrase c (s ++ ['<']) =
          some ({ phrase with words := phrase.words ++ [c :: atom] }, q ++ ['<']) := by
        unfold getphraselistStep
        rw [if_neg hfws, if_neg hquote, if_neg hopen, if_neg hend, hatom]
      rw [readWhile_of_some hconsuming hstep]
      exact ih _ (lt_of_le_of_lt hq.length_le hlt) (fun d hd => hrest d (hq.subset hd)) _ rfl
    · obtain ⟨_, -, hfalse⟩ := hatom [] useless_nil
      exact hfalse.elim

/-- **A phrase** of atoms and white space reads as one. -/
theorem readsAsPhrase_of_phraseChars (h : ∀ c ∈ s, IsPhraseChar c) : ReadsAsPhrase (s ++ ['<']) := by
  have hnot : ∀ d, isFws d = false ∧ isPhraseEnd d = true → d ≠ '<' → d ∉ s ++ ['<'] := by
    intro d hd hmark hmem
    rcases List.mem_append.1 hmem with hmem | hmem
    · exact (h d hmem).ne hd rfl
    · exact hmark (List.mem_singleton.1 hmem)
  have hquote : '"' ∉ s ++ ['<'] := hnot '"' (by decide) (by decide)
  have hstrip : stripQuotedRealnames (s ++ ['<']) = s ++ ['<'] := stripQuoted_of_not_mem hquote
  refine ⟨.bracket ?_, openQuote_of_not_mem hquote, ?_, ?_⟩
  · obtain ⟨q, hq, hgap⟩ := gotonext_phrase h ⟨[], []⟩
    have hgap' : (gotonext (s ++ ['<'])).2 = q ++ ['<'] := hgap
    have hphrase : (getphraselist (q ++ ['<'])).2 = ['<'] :=
      getphraselist_phrase (fun c hc => h c (hq.subset hc)) ⟨[], []⟩
    show (gotonext (getphraselist (gotonext (s ++ ['<'])).2).2).2 = ['<']
    rw [hgap', hphrase]
    rfl
  · rw [hstrip, List.count_eq_zero]
    exact hnot ',' (by decide) (by decide)
  · unfold checkParenthesis
    rw [hstrip, checkParens_free fun c hc => ⟨?_, ?_⟩]
    · rfl
    · rintro rfl
      exact hnot '(' (by decide) (by decide) hc
    · rintro rfl
      exact hnot ')' (by decide) (by decide) hc

end ScamOn.EmailAddresses
