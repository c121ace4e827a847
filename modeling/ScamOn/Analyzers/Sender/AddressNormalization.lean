import Mathlib.Data.List.Infix
import ScamOn.Lib.PlainAddresses

/-!
# Canonical addresses

`CanonicalEmailAddressNormalizer.normalize` repairs an address in a fixed order: white space around it,
a `mailto:` prefix, what stands around the mailbox, white space in it, repeated separators.  Then both
sides are folded, and the domain is encoded.

* `Tables` is what it uses of Unicode.
* `normalize` is the method, with one definition for each repair.
* `collapsed` is what the last three repairs leave of a text; the runs of dots are gone
  (`not_infix_collapsed`), and besides separators only white space (`count_collapsed`).
* `normalize_isMailbox_iff` and `exists_isMailbox`: when a result is valid, and with which parts.
-/

namespace ScamOn.Analyzers
namespace Sender
namespace Normalization

open EmailAddresses

/-! ## What is used of Unicode -/

/-- `str.isprintable`, `str.casefold` and the codec `idna`, and what is documented of them: folding and
encoding change nothing twice; ASCII letters become small; no other character becomes an `@` or a colon;
an encoded name is ASCII, and an ASCII name is encoded as it is, if at all; what is encoded is not
refused, unless it has empty labels in front or inside. -/
structure Tables where
  isprintable : Char → Bool
  fold : Char → Str
  idna : Str → Option Str
  fold_fold : ∀ c, ∀ x ∈ fold c, fold x = [x]
  fold_ne_nil : ∀ c, fold c ≠ []
  fold_ascii : ∀ c, c.toNat < 128 → fold c = [c.toLower]
  fold_separator : ∀ c, ∀ x ∈ fold c, x = '@' ∨ x = ':' → x = c
  idna_ascii : ∀ (s e : Str), idna (s.flatMap fold) = some e → ∀ x ∈ e, x.toNat < 128 ∧ x.toLower = x
  idna_of_ascii : ∀ (s e : Str), (∀ x ∈ s, x.toNat < 128) → idna s = some e → e = s
  idna_idna : ∀ (s e : Str), idna s = some e → ¬['.', '.'] <:+: e → e.head? ≠ some '.' → idna e = some e
  idna_ne_nil : ∀ s, s ≠ [] → idna s ≠ some []

/-- `AddressNormalizationAction`. -/
inductive AddressNormalizationAction
  | displayWrapperRemoved
  | leadingOrTrailingWhitespaceRemoved
  | internalWhitespaceRemoved
  | mailtoPrefixRemoved
  | repeatedAtSeparatorCollapsed
  | repeatedDotSeparatorCollapsed
  | caseNormalized
  | domainIdnaEncoded
  deriving DecidableEq

/-- `MAX_NORMALIZATION_INPUT_LENGTH`. -/
def maxNormalizationInputLength : ℕ := 8192

/-- `MAX_CANONICAL_EMAIL_LENGTH`. -/
def maxCanonicalEmailLength : ℕ := 320

/-- `MAX_CANONICAL_USERNAME_LENGTH`. -/
def maxCanonicalUsernameLength : ℕ := 64

/-- `MAX_CANONICAL_DOMAIN_LENGTH`. -/
def maxCanonicalDomainLength : ℕ := 255

/-- `NormalizedEmailAddress`. -/
structure NormalizedEmailAddress where
  rawValue : Str
  canonicalEmail : Option Str
  username : Option Str
  domain : Option Str
  isValid : Bool
  actions : List AddressNormalizationAction
  rawValue_fits : rawValue.length ≤ maxNormalizationInputLength
  canonicalEmail_fits : ∀ text ∈ canonicalEmail, text.length ≤ maxCanonicalEmailLength
  username_fits : ∀ text ∈ username, text.length ≤ maxCanonicalUsernameLength
  domain_fits : ∀ text ∈ domain, text.length ≤ maxCanonicalDomainLength

/-! ## Repairs -/

/-- A candidate, and the repairs that were made. -/
structure Repaired where
  candidate : Str
  actions : List AddressNormalizationAction

/-- A repair is noted if it changes something. -/
def Repaired.change (r : Repaired) (candidate : Str) (action : AddressNormalizationAction) : Repaired :=
  ⟨candidate, if candidate ≠ r.candidate then r.actions ++ [action] else r.actions⟩

@[simp] theorem Repaired.candidate_change (r : Repaired) (candidate : Str)
    (action : AddressNormalizationAction) : (r.change candidate action).candidate = candidate := rfl

/-- `_trim_outer_whitespace`. -/
def trimOuterWhitespace (r : Repaired) : Repaired :=
  r.change (Chars.strip r.candidate) .leadingOrTrailingWhitespaceRemoved

/-- `MAILTO_PREFIX`. -/
def mailtoPrefix : Str := "mailto:".toList

/-- `str.casefold`. -/
def casefold (py : Tables) (s : Str) : Str := s.flatMap py.fold

/-- `_remove_mailto_prefix`. -/
def removeMailtoPrefix (py : Tables) (r : Repaired) : Repaired :=
  if mailtoPrefix.isPrefixOf (casefold py r.candidate) then
    ⟨r.candidate.drop mailtoPrefix.length, r.actions ++ [.mailtoPrefixRemoved]⟩
  else r

/-- What stands between the first `<` and the last `>` behind it. -/
def bracketed? (s : Str) : Option Str :=
  match s.dropWhile (· ≠ '<') with
  | [] => none
  | _ :: t =>
    match t.reverse.dropWhile (· ≠ '>') with
    | [] => none
    | _ :: u => some u.reverse

/-- `removeprefix("<")`, then `removesuffix(">")`. -/
def removeAngles (s : Str) : Str :=
  let t := if s.head? = some '<' then s.tail else s
  if t.getLast? = some '>' then t.dropLast else t

/-- `_extract_mailbox`. -/
def extractMailbox (r : Repaired) : Repaired :=
  match bracketed? r.candidate with
  | some mailbox => ⟨mailbox, r.actions ++ [.displayWrapperRemoved]⟩
  | none =>
    let parsedAddress := parseaddr r.candidate
    if parsedAddress ≠ [] ∧ parsedAddress ≠ r.candidate then
      ⟨parsedAddress, r.actions ++ [.displayWrapperRemoved]⟩
    else ⟨removeAngles r.candidate, r.actions⟩

/-- `"".join(s.split())`. -/
def removeSpaces (s : Str) : Str := s.filter fun c => !Text.isSpace c

/-- `_remove_internal_whitespace`. -/
def removeInternalWhitespace (r : Repaired) : Repaired :=
  r.change (removeSpaces r.candidate) .internalWhitespaceRemoved

/-- `value.replace(separator + separator, separator)`. -/
def replacePairs (separator : Char) : Str → Str
  | c :: d :: s =>
    if c = separator ∧ d = separator then separator :: replacePairs separator s
    else c :: replacePairs separator (d :: s)
  | s => s

/-- The loop of `_collapse_runs`, with at most so many rounds. -/
def collapseUpto (separator : Char) : ℕ → Str → Str
  | 0, value => value
  | n + 1, value =>
    if [separator, separator] <:+: value then collapseUpto separator n (replacePairs separator value)
    else value

/-- `_collapse_runs`. -/
def collapseRuns (separator : Char) (value : Str) : Str := collapseUpto separator value.length value

/-- `_collapse_repeated_separators`. -/
def collapseRepeatedSeparators (r : Repaired) : Repaired :=
  let at' := r.change (collapseRuns '@' r.candidate) .repeatedAtSeparatorCollapsed
  at'.change (collapseRuns '.' at'.candidate) .repeatedDotSeparatorCollapsed

/-! ## The method -/

/-- `_split_candidate`. -/
def splitCandidate (candidate : Str) : Option (Str × Str) :=
  if candidate.count '@' = 1 then
    let username := candidate.takeWhile (· ≠ '@')
    let domain := (candidate.dropWhile (· ≠ '@')).tail
    if username = [] ∨ domain = [] then none else some (username, domain)
  else none

/-- `_normalize_domain`. -/
def normalizeDomain (py : Tables) (domain : Str) (actions : List AddressNormalizationAction) :
    Option (Str × List AddressNormalizationAction) :=
  (py.idna (casefold py domain)).map fun normalized =>
    (normalized,
      if normalized ≠ casefold py domain then actions ++ [.domainIdnaEncoded] else actions)

/-- `INVALID_MAILBOX_CHARACTERS`. -/
def invalidMailboxCharacters : List Char := "<>,;()[]\x7b\x7d\\\"'".toList

/-- `_is_valid_mailbox`. -/
def isValidMailbox (py : Tables) (username domain email : Str) : Bool :=
  if maxCanonicalUsernameLength < username.length ∨ maxCanonicalDomainLength < domain.length ∨
      maxCanonicalEmailLength < email.length ∨ username.head? = some '.' ∨ username.getLast? = some '.' ∨
      domain.head? = some '.' ∨ domain.getLast? = some '.' then false
  else
    !email.any fun c => Text.isSpace c || !py.isprintable c || invalidMailboxCharacters.contains c

theorem fits_of_isValidMailbox {py : Tables} {username domain email : Str}
    (h : isValidMailbox py username domain email = true) :
    username.length ≤ maxCanonicalUsernameLength ∧ domain.length ≤ maxCanonicalDomainLength ∧
      email.length ≤ maxCanonicalEmailLength := by
  unfold isValidMailbox at h
  split_ifs at h with hlimits
  simp only [not_or, not_lt] at hlimits
  exact ⟨hlimits.1, hlimits.2.1, hlimits.2.2.1⟩

/-- `_bounded`. -/
def bounded (value : Str) (maximumLength : ℕ) : Str := value.take maximumLength

/-- The repairs, in their order. -/
def repair (py : Tables) (rawValue : Str) : Repaired :=
  collapseRepeatedSeparators (removeInternalWhitespace (extractMailbox (removeMailtoPrefix py
    (trimOuterWhitespace ⟨rawValue, []⟩))))

/-- An address that is not valid. -/
def invalidAddress (rawAddress : Str) (actions : List AddressNormalizationAction) :
    NormalizedEmailAddress where
  rawValue := bounded rawAddress maxNormalizationInputLength
  canonicalEmail := none
  username := none
  domain := none
  isValid := false
  actions := actions
  rawValue_fits := List.length_take_le _ _
  canonicalEmail_fits := nofun
  username_fits := nofun
  domain_fits := nofun

/-- `normalize`. -/
def normalize (py : Tables) (rawAddress : Str) : NormalizedEmailAddress :=
  let repaired := repair py (bounded rawAddress maxNormalizationInputLength)
  match splitCandidate repaired.candidate with
  | none => invalidAddress rawAddress repaired.actions
  | some (username, domain) =>
    let normalizedUsername := casefold py username
    match normalizeDomain py domain repaired.actions with
    | none => invalidAddress rawAddress repaired.actions
    | some (normalizedDomain, encoded) =>
      let actions :=
        if normalizedUsername ≠ username ∨ normalizedDomain ≠ domain then encoded ++ [.caseNormalized]
        else encoded
      let canonicalEmail := normalizedUsername ++ '@' :: normalizedDomain
      if h : isValidMailbox py normalizedUsername normalizedDomain canonicalEmail = true then {
        rawValue := bounded rawAddress maxNormalizationInputLength
        canonicalEmail := some canonicalEmail
        username := some normalizedUsername
        domain := some normalizedDomain
        isValid := true
        actions := actions
        rawValue_fits := List.length_take_le _ _
        canonicalEmail_fits := by
          rintro _ ⟨⟩
          exact (fits_of_isValidMailbox h).2.2
        username_fits := by
          rintro _ ⟨⟩
          exact (fits_of_isValidMailbox h).1
        domain_fits := by
          rintro _ ⟨⟩
          exact (fits_of_isValidMailbox h).2.1
      }
      else invalidAddress rawAddress actions

/-! ## Separators -/

section Separators

variable {separator : Char} {s : Str}

theorem replacePairs_sublist (separator : Char) (s : Str) : (replacePairs separator s).Sublist s := by
  fun_induction replacePairs separator s with
  | case1 c d s hsame ih =>
    obtain ⟨rfl, rfl⟩ := hsame
    exact (ih.cons_cons _).cons _
  | case2 c d s _ ih => exact ih.cons_cons c
  | case3 s => exact List.Sublist.refl s

theorem filter_replacePairs (separator : Char) (s : Str) :
    (replacePairs separator s).filter (· ≠ separator) = s.filter (· ≠ separator) := by
  fun_induction replacePairs separator s with
  | case1 c d s hsame ih =>
    obtain ⟨rfl, rfl⟩ := hsame
    simpa using ih
  | case2 c d s _ ih => simp only [List.filter_cons (x := c), ih]
  | case3 s => rfl

theorem length_replacePairs_lt (h : [separator, separator] <:+: s) :
    (replacePairs separator s).length < s.length := by
  fun_induction replacePairs separator s with
  | case1 c d s _ ih =>
    have hle := (replacePairs_sublist separator s).length_le
    rw [List.length_cons, List.length_cons, List.length_cons]
    omega
  | case2 c d s hne ih =>
    rw [List.length_cons, List.length_cons]
    refine Nat.succ_lt_succ (ih ?_)
    rcases List.infix_cons_iff.1 h with hhead | htail
    · obtain ⟨t, ht⟩ := hhead
      rw [List.cons_append, List.cons_append, List.cons.injEq, List.cons.injEq] at ht
      exact absurd ⟨ht.1.symm, ht.2.1.symm⟩ hne
    · exact htail
  | case3 s hshort =>
    have hle : 2 ≤ s.length := h.length_le
    rcases s with _ | ⟨c, _ | ⟨d, s⟩⟩
    · exact absurd hle (by decide)
    · exact absurd hle (Nat.not_succ_le_self 1)
    · exact absurd rfl (hshort c d s)

theorem collapseUpto_sublist (separator : Char) (n : ℕ) (s : Str) :
    (collapseUpto separator n s).Sublist s := by
  induction n generalizing s with
  | zero => exact List.Sublist.refl s
  | succ n ih =>
    rw [collapseUpto]
    split_ifs
    · exact (ih _).trans (replacePairs_sublist separator s)
    · exact List.Sublist.refl s

theorem filter_collapseUpto (separator : Char) (n : ℕ) (s : Str) :
    (collapseUpto separator n s).filter (· ≠ separator) = s.filter (· ≠ separator) := by
  induction n generalizing s with
  | zero => rfl
  | succ n ih =>
    rw [collapseUpto]
    split_ifs
    · rw [ih, filter_replacePairs]
    · rfl

/-- **The loop ends** without runs, in as many rounds as there are characters. -/
theorem not_infix_collapseUpto {n : ℕ} (h : s.length ≤ n) :
    ¬[separator, separator] <:+: collapseUpto separator n s := by
  induction n generalizing s with
  | zero =>
    intro htail
    exact absurd (htail.length_le.trans h) (Nat.not_succ_le_zero 1)
  | succ n ih =>
    rw [collapseUpto]
    split_ifs with htail
    · exact ih (by have := length_replacePairs_lt htail; omega)
    · exact htail

theorem collapseRuns_eq_self (h : ¬[separator, separator] <:+: s) :
    collapseRuns separator s = s := by
  unfold collapseRuns
  cases s.length with
  | zero => rfl
  | succ n => rw [collapseUpto, if_neg h]

/-- What the last three repairs leave of a text. -/
def collapsed (s : Str) : Str := collapseRuns '.' (collapseRuns '@' (removeSpaces s))

theorem collapsed_sublist (s : Str) : (collapsed s).Sublist (removeSpaces s) :=
  (collapseUpto_sublist _ _ _).trans (collapseUpto_sublist _ _ _)

/-- They take nothing but white space and separators. -/
theorem count_collapsed {c : Char} (hspace : Text.isSpace c = false) (hat : c ≠ '@') (hdot : c ≠ '.') :
    (collapsed s).count c = s.count c := by
  have hkeeps : ∀ separator (t : Str), c ≠ separator →
      (collapseRuns separator t).count c = t.count c := by
    intro separator t hne
    have hp : decide (c ≠ separator) = true := decide_eq_true hne
    rw [← List.count_filter (p := (decide <| · ≠ separator)) hp, collapseRuns, filter_collapseUpto,
      List.count_filter (p := (decide <| · ≠ separator)) hp]
  rw [collapsed, hkeeps _ _ hdot, hkeeps _ _ hat, removeSpaces, List.count_filter]
  rw [hspace]
  rfl

theorem mem_collapsed {c : Char} (hspace : Text.isSpace c = false) (hat : c ≠ '@') (hdot : c ≠ '.') :
    c ∈ collapsed s ↔ c ∈ s := by
  rw [← List.count_pos_iff, count_collapsed hspace hat hdot, List.count_pos_iff]

theorem not_infix_collapsed (s : Str) : ¬['.', '.'] <:+: collapsed s := not_infix_collapseUpto le_rfl

theorem removeSpaces_eq_self (h : ∀ c ∈ s, Text.isSpace c = false) : removeSpaces s = s := by
  rw [removeSpaces, List.filter_eq_self]
  intro c hc
  rw [h c hc]
  rfl

end Separators

/-! ## What the method reads -/

/-- A valid result, with its parts. -/
structure IsMailbox (r : NormalizedEmailAddress) (c u d : Str) : Prop where
  isValid : r.isValid = true
  canonicalEmail : r.canonicalEmail = some c
  username : r.username = some u
  domain : r.domain = some d

/-- The text that the first three repairs leave. -/
def extracted (py : Tables) (rawValue : Str) : Str :=
  (extractMailbox (removeMailtoPrefix py (trimOuterWhitespace ⟨rawValue, []⟩))).candidate

/-- What is extracted is read as the parts of an address. -/
def Reads (py : Tables) (s u d : Str) : Prop :=
  ∃ username domain, splitCandidate (collapsed s) = some (username, domain) ∧
    casefold py username = u ∧ py.idna (casefold py domain) = some d ∧
    isValidMailbox py u d (u ++ '@' :: d) = true

theorem candidate_repair (py : Tables) (rawValue : Str) :
    (repair py rawValue).candidate = collapsed (extracted py rawValue) := by
  unfold repair collapseRepeatedSeparators removeInternalWhitespace extracted collapsed
  simp only [Repaired.candidate_change]

variable {py : Tables} {a c u d : Str}

theorem normalize_isMailbox_iff :
    IsMailbox (normalize py a) c u d ↔
      c = u ++ '@' :: d ∧ Reads py (extracted py (bounded a maxNormalizationInputLength)) u d := by
  unfold normalize Reads
  dsimp only
  rw [candidate_repair]
  rcases splitCandidate (collapsed (extracted py (bounded a maxNormalizationInputLength))) with
    _ | ⟨username, domain⟩
  · constructor
    · rintro ⟨hvalid, -, -, -⟩
      exact nomatch hvalid
    · rintro ⟨-, _, _, hsplit, -⟩
      exact nomatch hsplit
  dsimp only
  unfold normalizeDomain
  rcases hidna : py.idna (casefold py domain) with _ | normalizedDomain
  · constructor
    · rintro ⟨hvalid, -, -, -⟩
      exact nomatch hvalid
    · rintro ⟨-, _, _, ⟨⟩, -, hsome, -⟩
      rw [hidna] at hsome
      exact nomatch hsome
  rw [Option.map_some]
  dsimp only
  by_cases hvalid : isValidMailbox py (casefold py username) normalizedDomain
      (casefold py username ++ '@' :: normalizedDomain) = true
  · rw [dif_pos hvalid]
    constructor
    · rintro ⟨-, hc, hu, hd⟩
      obtain rfl := Option.some.inj hc
      obtain rfl := Option.some.inj hu
      obtain rfl := Option.some.inj hd
      exact ⟨rfl, username, domain, rfl, rfl, hidna, hvalid⟩
    · rintro ⟨rfl, _, _, ⟨⟩, rfl, hd, -⟩
      rw [hidna] at hd
      obtain rfl := Option.some.inj hd
      exact ⟨rfl, rfl, rfl, rfl⟩
  · rw [dif_neg hvalid]
    constructor
    · rintro ⟨hfalse, -, -, -⟩
      exact nomatch hfalse
    · rintro ⟨-, _, _, ⟨⟩, rfl, hd, hvalid'⟩
      rw [hidna] at hd
      obtain rfl := Option.some.inj hd
      exact absurd hvalid' hvalid

/-- A valid result has all of its parts. -/
theorem exists_isMailbox (h : (normalize py a).isValid = true) :
    ∃ c u d, IsMailbox (normalize py a) c u d := by
  unfold normalize at h ⊢
  dsimp only at h ⊢
  generalize repair py (bounded a maxNormalizationInputLength) = repaired at h ⊢
  rcases hsplit : splitCandidate repaired.candidate with _ | ⟨username, domain⟩
  · rw [hsplit] at h
    exact absurd h Bool.false_ne_true
  rw [hsplit] at h
  dsimp only at h ⊢
  rcases hdomain : normalizeDomain py domain repaired.actions with _ | ⟨normalizedDomain, encoded⟩
  · rw [hdomain] at h
    exact absurd h Bool.false_ne_true
  rw [hdomain] at h
  dsimp only at h ⊢
  by_cases hvalid : isValidMailbox py (casefold py username) normalizedDomain
      (casefold py username ++ '@' :: normalizedDomain) = true
  · rw [dif_pos hvalid]
    exact ⟨_, _, _, rfl, rfl, rfl, rfl⟩
  · rw [dif_neg hvalid] at h
    exact absurd h Bool.false_ne_true

end Normalization
end Sender
end ScamOn.Analyzers
