import ScamOn.SecurityIntelligence.Detectors

/-!
# Brands in any order

`BrandService.analyze_sender` goes through a set of brands, in four loops that end at the first
brand that meets their check.  The order of the set is another one in every process.

* `verdict` is what of the answer should not depend on the order.
* `firstMatch_agrees_iff`: a loop finds the same brand in every order exactly if no two meet its
  check.
* `verdict_agrees_iff`: so does the method exactly if that is true of the loop that decides.
-/

namespace ScamOn.SecurityIntelligence

/-! ## One loop -/

/-- An order of sets that begins with a given text. -/
def SetOrder.starting (s : String) : SetOrder where
  order l := if s ∈ l then s :: l.dedup.erase s else l.dedup
  perm l := by
    split_ifs with hmem
    · exact (List.perm_cons_erase (List.mem_dedup.2 hmem)).symm
    · exact .refl _

/-- The brand at which a loop ends. -/
def firstMatch (sets : SetOrder) (check : String → Bool) : Option String :=
  (sets.order targetedBrands).find? check

/-- No two brands meet the check. -/
def AtMostOne (check : String → Bool) : Prop :=
  ∀ brand ∈ targetedBrands, ∀ brand' ∈ targetedBrands,
    check brand = true → check brand' = true → brand = brand'

instance (check : String → Bool) : Decidable (AtMostOne check) :=
  inferInstanceAs (Decidable (∀ brand ∈ targetedBrands, ∀ brand' ∈ targetedBrands, _))

variable {sets : SetOrder} {check : String → Bool} {brand : String}

theorem firstMatch_mem (h : firstMatch sets check = some brand) :
    brand ∈ targetedBrands ∧ check brand = true :=
  ⟨sets.mem_order.1 (List.mem_of_find?_eq_some h), List.find?_some h⟩

theorem firstMatch_eq_none_iff : firstMatch sets check = none ↔ targetedBrands.any check = false := by
  unfold firstMatch
  rw [List.find?_eq_none, List.any_eq_false]
  simp only [sets.mem_order]

theorem firstMatch_starting (hmem : brand ∈ targetedBrands) (hcheck : check brand = true) :
    firstMatch (.starting brand) check = some brand := by
  show (if brand ∈ targetedBrands then brand :: targetedBrands.dedup.erase brand
    else targetedBrands.dedup).find? check = _
  rw [if_pos hmem, List.find?_cons_of_pos hcheck]

/-- **A loop finds the same brand in every order** exactly if no two brands meet its check. -/
theorem firstMatch_agrees_iff (check : String → Bool) :
    (∀ sets sets' : SetOrder, firstMatch sets check = firstMatch sets' check) ↔ AtMostOne check := by
  constructor
  · intro h brand hbrand brand' hbrand' hcheck hcheck'
    have hsame := h (.starting brand) (.starting brand')
    rw [firstMatch_starting hbrand hcheck, firstMatch_starting hbrand' hcheck'] at hsame
    exact Option.some.inj hsame
  · intro h sets sets'
    cases hfirst : firstMatch sets check with
    | none => exact (firstMatch_eq_none_iff.2 (firstMatch_eq_none_iff.1 hfirst)).symm
    | some brand =>
      cases hfirst' : firstMatch sets' check with
      | none =>
        rw [firstMatch_eq_none_iff.2 (firstMatch_eq_none_iff.1 hfirst')] at hfirst
        cases hfirst
      | some brand' =>
        obtain ⟨hbrand, hcheck⟩ := firstMatch_mem hfirst
        obtain ⟨hbrand', hcheck'⟩ := firstMatch_mem hfirst'
        rw [h brand hbrand brand' hbrand' hcheck hcheck']

/-! ## Loops one after another -/

/-- The first loop that finds a brand, by its type, and the brand. -/
def runChecks (sets : SetOrder) (checks : List (String × (String → Bool))) :
    Option (String × String) :=
  checks.findSome? fun check => (firstMatch sets check.2).map fun brand => (check.1, brand)

theorem runChecks_cons (check : String × (String → Bool)) (checks : List (String × (String → Bool))) :
    runChecks sets (check :: checks) =
      ((firstMatch sets check.2).map fun brand => (check.1, brand)).or (runChecks sets checks) := by
  unfold runChecks
  rw [List.findSome?_cons]
  cases (firstMatch sets check.2).map fun brand => (check.1, brand) with
  | none => rfl
  | some found => rfl

/-- The first check that a brand meets, if there is one, is met by one brand only. -/
def Decided (checks : List (String × (String → Bool))) : Prop :=
  ∀ check ∈ checks.find? (fun check => targetedBrands.any check.2), AtMostOne check.2

instance (checks : List (String × (String → Bool))) : Decidable (Decided checks) :=
  inferInstanceAs (Decidable (∀ check ∈ checks.find? _, _))

theorem runChecks_agrees_iff (checks : List (String × (String → Bool))) :
    (∀ sets sets' : SetOrder, runChecks sets checks = runChecks sets' checks) ↔ Decided checks := by
  induction checks with
  | nil => simp [runChecks, Decided]
  | cons check checks ih =>
    by_cases hany : targetedBrands.any check.2 = true
    · have hrun : ∀ sets, runChecks sets (check :: checks) =
          (firstMatch sets check.2).map fun brand => (check.1, brand) := by
        intro sets
        cases hfirst : firstMatch sets check.2 with
        | none =>
          rw [firstMatch_eq_none_iff.1 hfirst] at hany
          cases hany
        | some brand => rw [runChecks_cons, hfirst, Option.map_some, Option.some_or]
      have hdecided : Decided (check :: checks) ↔ AtMostOne check.2 := by
        simp [Decided, hany]
      have hinj : Function.Injective fun brand : String => (check.1, brand) := fun _ _ heq =>
        (Prod.ext_iff.1 heq).2
      rw [hdecided, ← firstMatch_agrees_iff]
      simp only [hrun, (Option.map_injective hinj).eq_iff]
    · have hnone : ∀ sets, firstMatch sets check.2 = none := fun sets =>
        firstMatch_eq_none_iff.2 (Bool.eq_false_iff.2 hany)
      have hdecided : Decided (check :: checks) ↔ Decided checks := by
        simp [Decided, hany]
      rw [hdecided, ← ih]
      simp only [runChecks_cons, hnone, Option.map_none, Option.none_or]

/-- A check that comes first and ends the method at some brands only: what the loops behind it find
is of another type. -/
theorem named_agrees_iff {kind : String} {named : String → Bool} (unrelated : String → Bool)
    {checks : List (String × (String → Bool))} (hkind : ∀ check ∈ checks, check.1 ≠ kind) :
    (∀ sets sets' : SetOrder,
      (((firstMatch sets named).filter unrelated).map fun brand => (kind, brand)).or
        (runChecks sets checks) =
      (((firstMatch sets' named).filter unrelated).map fun brand => (kind, brand)).or
        (runChecks sets' checks)) ↔
      if ∃ brand ∈ targetedBrands, named brand = true ∧ unrelated brand = true then AtMostOne named
      else Decided checks := by
  have hrun : ∀ sets brand, runChecks sets checks ≠ some (kind, brand) := by
    intro sets brand h
    obtain ⟨check, hmem, hcheck⟩ := List.exists_of_findSome?_eq_some h
    obtain ⟨brand', -, heq⟩ := Option.map_eq_some_iff.1 hcheck
    exact hkind check hmem (Prod.ext_iff.1 heq).1
  split_ifs with hunrelated
  · obtain ⟨brand, hbrand, hnamed, hbad⟩ := hunrelated
    constructor
    · intro h
      -- every named brand is the one that is unrelated
      have honly : ∀ brand' ∈ targetedBrands, named brand' = true → brand' = brand := by
        intro brand' hbrand' hnamed'
        have hsame := h (.starting brand) (.starting brand')
        rw [firstMatch_starting hbrand hnamed, firstMatch_starting hbrand' hnamed',
          Option.filter_some, if_pos hbad] at hsame
        by_cases hbad' : unrelated brand' = true
        · rw [Option.filter_some, if_pos hbad'] at hsame
          exact (Prod.ext_iff.1 (Option.some.inj hsame)).2.symm
        · rw [Option.filter_some, if_neg hbad'] at hsame
          exact absurd hsame.symm (hrun _ brand)
      intro b hb b' hb' hcheck hcheck'
      rw [honly b hb hcheck, honly b' hb' hcheck']
    · intro hone sets sets'
      have hfirst : ∀ sets, firstMatch sets named = some brand := by
        intro sets
        rw [(firstMatch_agrees_iff named).2 hone sets (.starting brand),
          firstMatch_starting hbrand hnamed]
      rw [hfirst, hfirst, Option.filter_some, if_pos hbad]
      rfl
  · have hrelated : ∀ sets, (firstMatch sets named).filter unrelated = none := by
      intro sets
      rw [Option.filter_eq_none_iff]
      intro brand hfirst hbad
      obtain ⟨hbrand, hnamed⟩ := firstMatch_mem hfirst
      exact hunrelated ⟨brand, hbrand, hnamed, hbad⟩
    rw [← runChecks_agrees_iff]
    simp [hrelated]

/-! ## The method -/

variable (library : DomainLibrary)

/-- The check of the display name. -/
def isNamed (displayName brand : String) : Bool := Text.contains (library.lower displayName) brand

/-- What makes a brand in the display name an impersonation. -/
def isUnrelated (senderBrand brand : String) : Bool :=
  senderBrand ≠ brand ∧
    ¬[brand, "internal-com"].any (fun b => b.toList.isSuffixOf senderBrand.toList)

/-- The checks of the other three loops, with the types that they report. -/
def domainChecks (domain senderBrand : String) : List (String × (String → Bool)) :=
  [("typosquatting", fun brand =>
      senderBrand ≠ brand ∧ levenshteinDistance senderBrand brand ∈ [1, 2] ∧ 4 ≤ senderBrand.length),
    ("homograph_impersonation", fun brand =>
      "xn--".toList.isPrefixOf domain.toList ∧
        ∃ decoded ∈ library.decodeIdna domain, levenshteinDistance decoded brand ∈ [0, 1, 2]),
    ("hyphen_impersonation", fun brand =>
      Text.contains domain (brand ++ "-") || Text.contains domain ("-" ++ brand))]

/-- Whether an impersonation is detected, of which type and which brand. -/
def verdict (sets : SetOrder) (displayName senderEmail : String) : Option (String × String) :=
  (analyzeSender sets library displayName senderEmail).map fun found =>
    (found.kind, found.matchedBrand)

/-- **The loop that decides can find one brand only**: that of the display name if one of the brands
in it is unrelated to the domain, else the first of the others that finds one. -/
def Unequivocal (displayName senderEmail : String) : Prop :=
  match senderEmail.toList.splitOn '@' with
  | [_, domainChars] =>
    let domain := String.ofList domainChars
    let senderBrand := library.extractDomain (library.lower domain)
    if ∃ brand ∈ targetedBrands,
        isNamed library displayName brand = true ∧ isUnrelated senderBrand brand = true then
      AtMostOne (isNamed library displayName)
    else Decided (domainChecks library domain senderBrand)
  | _ => True

variable {library}

theorem displayNameSpoofing_eq (displayName domain senderBrand : String) :
    (displayNameSpoofing sets library displayName domain senderBrand).map
        (fun found => (found.kind, found.matchedBrand)) =
      ((firstMatch sets (isNamed library displayName)).filter (isUnrelated senderBrand)).map
        fun brand => ("display_name_spoofing", brand) := by
  unfold displayNameSpoofing
  rw [show (sets.order targetedBrands).find? (Text.contains (library.lower displayName)) =
    firstMatch sets (isNamed library displayName) from rfl]
  cases firstMatch sets (isNamed library displayName) with
  | none => rfl
  | some brand =>
    dsimp only
    rw [Option.filter_some]
    by_cases hunrelated : isUnrelated senderBrand brand = true
    · rw [if_pos hunrelated, if_pos (of_decide_eq_true hunrelated)]
      rfl
    · rw [if_neg hunrelated, if_neg fun h => hunrelated (decide_eq_true h)]
      rfl

theorem runChecks_domainChecks (domain senderBrand : String) :
    runChecks sets (domainChecks library domain senderBrand) =
      (((typosquatting sets domain senderBrand).or (homographImpersonation sets library domain)).or
        (hyphenImpersonation sets domain)).map fun found => (found.kind, found.matchedBrand) := by
  have hhomograph : (homographImpersonation sets library domain).map
      (fun found => (found.kind, found.matchedBrand)) =
      (firstMatch sets fun brand => "xn--".toList.isPrefixOf domain.toList ∧
        ∃ decoded ∈ library.decodeIdna domain, levenshteinDistance decoded brand ∈ [0, 1, 2]).map
        fun brand => ("homograph_impersonation", brand) := by
    unfold homographImpersonation
    by_cases hxn : "xn--".toList.isPrefixOf domain.toList = true
    · rw [if_pos hxn]
      cases hdecode : library.decodeIdna domain with
      | none => simp [firstMatch]
      | some decoded =>
        simp only [hxn, firstMatch, Option.map_map, Option.mem_some_iff, exists_eq_left', true_and]
        rfl
    · rw [if_neg hxn]
      have hnone : (firstMatch sets fun brand => "xn--".toList.isPrefixOf domain.toList ∧
          ∃ decoded ∈ library.decodeIdna domain, levenshteinDistance decoded brand ∈ [0, 1, 2]) =
          none := List.find?_eq_none.2 fun brand _ h => hxn (of_decide_eq_true h).1
      rw [hnone]
      rfl
  have htypo : (typosquatting sets domain senderBrand).map
      (fun found => (found.kind, found.matchedBrand)) =
      (firstMatch sets fun brand => senderBrand ≠ brand ∧
        levenshteinDistance senderBrand brand ∈ [1, 2] ∧ 4 ≤ senderBrand.length).map
        fun brand => ("typosquatting", brand) := Option.map_map ..
  have hhyphen : (hyphenImpersonation sets domain).map
      (fun found => (found.kind, found.matchedBrand)) =
      (firstMatch sets fun brand =>
        Text.contains domain (brand ++ "-") || Text.contains domain ("-" ++ brand)).map
        fun brand => ("hyphen_impersonation", brand) := Option.map_map ..
  rw [Option.map_or, Option.map_or, htypo, hhomograph, hhyphen]
  unfold domainChecks
  rw [runChecks_cons, runChecks_cons, runChecks_cons, Option.or_assoc]
  simp [runChecks]

/-- **The verdict is the same for every order of the brands** exactly if the loop that decides can
find one brand only. -/
theorem verdict_agrees_iff (library : DomainLibrary) (displayName senderEmail : String) :
    (∀ sets sets' : SetOrder, verdict library sets displayName senderEmail =
      verdict library sets' displayName senderEmail) ↔ Unequivocal library displayName senderEmail := by
  unfold Unequivocal
  split
  · next username domainChars hparts =>
    have hkind : ∀ check ∈ domainChecks library (String.ofList domainChars)
        (library.extractDomain (library.lower (String.ofList domainChars))),
        check.1 ≠ "display_name_spoofing" := by
      simp [domainChecks]
    refine Iff.trans ?_ (named_agrees_iff _ hkind)
    have hverdict : ∀ sets, verdict library sets displayName senderEmail =
        (((firstMatch sets (isNamed library displayName)).filter (isUnrelated
          (library.extractDomain (library.lower (String.ofList domainChars))))).map
          fun brand => ("display_name_spoofing", brand)).or
        (runChecks sets (domainChecks library (String.ofList domainChars)
          (library.extractDomain (library.lower (String.ofList domainChars))))) := by
      intro sets
      unfold verdict analyzeSender
      rw [hparts]
      dsimp only
      rw [Option.or_assoc, Option.or_assoc, Option.map_or, ← Option.or_assoc,
        displayNameSpoofing_eq, runChecks_domainChecks]
    simp only [hverdict]
  · next hparts =>
    refine iff_of_true (fun sets sets' => ?_) trivial
    have hnone : ∀ sets, verdict library sets displayName senderEmail = none := by
      intro sets
      unfold verdict analyzeSender
      split
      · next username domainChars heq => exact absurd heq (hparts username domainChars)
      · rfl
    rw [hnone, hnone]

/-- A library that takes the first label of a domain, and decodes nothing. -/
def firstLabel : DomainLibrary where
  lower := Text.asciiLower
  extractDomain domain := String.ofList (domain.toList.takeWhile (· ≠ '.'))
  decodeIdna _ := none

/-- The brand of the domain or another one may come first. -/
theorem verdict_differs :
    verdict firstLabel (.starting "google") "Google and Apple" "it@google.com" = none ∧
      verdict firstLabel (.starting "apple") "Google and Apple" "it@google.com" =
        some ("display_name_spoofing", "apple") ∧
      ¬∀ sets sets' : SetOrder, verdict firstLabel sets "Google and Apple" "it@google.com" =
        verdict firstLabel sets' "Google and Apple" "it@google.com" := by
  have hgoogle : verdict firstLabel (.starting "google") "Google and Apple" "it@google.com" = none := by
    decide +kernel
  have happle : verdict firstLabel (.starting "apple") "Google and Apple" "it@google.com" =
      some ("display_name_spoofing", "apple") := by decide +kernel
  refine ⟨hgoogle, happle, fun h => ?_⟩
  have hsame := h (.starting "google") (.starting "apple")
  rw [hgoogle, happle] at hsame
  cases hsame

end ScamOn.SecurityIntelligence
