import ScamOn.Authentication.Pipeline

/-!
# ARC chains

`validate_arc_chain` reads the tags of the latest ARC seal, looks up the key for it and verifies its
signature.  The outcome goes to a log, and a chain is valid whenever it has a seal.

* `validateArcChainWith` is the function with its providers; `validateArcChainWith_fst` says that its
  result does not depend on them.
* `Earned` is what a valid chain should rest on, `SealEarns` the seals that a chain rests on.
* `chain_valid_earned_iff`: the result is earned exactly for these.
-/

namespace ScamOn.Authentication

open Analyzers.Sender Pattern Chars UrlParse

variable (x : Unicode)

/-! ## The tags of a seal -/

/-- `[a-zA-Z0-9_\-]`, and with `\.`, under `re.IGNORECASE`. -/
def isSelectorChar (c : Char) : Bool := isLetterFold c || c.isDigit || c = '_' || c = '-'

def isDomainChar (c : Char) : Bool := isSelectorChar c || c = '.'

/-- `[a-zA-Z0-9\+/=]` under `re.IGNORECASE`. -/
def isBase64Char (c : Char) : Bool := isLetterFold c || c.isDigit || ['+', '/', '='].contains c

/-- A pattern for the value of a tag, wherever its name stands. -/
def tagPattern (tag name : String) (p : Char → Bool) : Pattern :=
  cat [litFold tag, star space, lit "=", star space, group name (plus (set p))]

/-- `ARC_SELECTOR_PATTERN`. -/
def arcSelectorPattern : Pattern := tagPattern "s" "selector" isSelectorChar

/-- `ARC_DOMAIN_PATTERN`. -/
def arcDomainPattern : Pattern := tagPattern "d" "domain" isDomainChar

/-- `ARC_SIG_PATTERN`. -/
def arcSigPattern : Pattern := tagPattern "b" "sig" isBase64Char

/-- The tags of a seal that the validation is about. -/
structure SealTags where
  cv : Str
  selector : Option Str
  domain : Option Str
  sig : Option Str

/-- The tags as the patterns find them. -/
def matchedTags (latestSeal : Str) : SealTags where
  cv := ((search arcCvPattern latestSeal).map fun m =>
    x.lower ((m.group "status").getD [])).getD "none".toList
  selector := (search arcSelectorPattern latestSeal).map fun m => (m.group "selector").getD []
  domain := (search arcDomainPattern latestSeal).map fun m => (m.group "domain").getD []
  sig := (search arcSigPattern latestSeal).map fun m => (m.group "sig").getD []

/-! ## The validation -/

/-- The providers and the decoder.  A provider that was not passed is `none`, and so is the answer
of a call that raises. -/
structure ArcProviders where
  verifyRsaSignature : Option (Str → ByteArray → ByteArray → Option Bool)
  resolveTxt : Option (Str → Option (List Str))
  b64decode : Str → Option ByteArray

/-- What becomes of the check of a signature. -/
inductive SealCheck
  | skipped | raised | noKey | verified | failed
  deriving DecidableEq

/-- `f"\x7bselector\x7d._domainkey.\x7bdomain\x7d"`. -/
def dnsDomain (selector domain : Str) : Str := selector ++ "._domainkey.".toList ++ domain

/-- `text.encode("utf-8")`. -/
def utf8 (text : Str) : ByteArray := (String.ofList text).toUTF8

/-- The verification of a signature, with the answers of the providers. -/
def checkSignature (verify : Str → ByteArray → ByteArray → Option Bool)
    (resolve : Str → Option (List Str)) (b64decode : Str → Option ByteArray) (latestSeal : Str)
    (selector domain sig : Str) : SealCheck :=
  match b64decode sig with
  | none => .raised
  | some sigBytes =>
    match resolve (dnsDomain selector domain) with
    | none => .raised
    | some txtRecords =>
      match extractPublicKeyFromTxt txtRecords with
      | none => .noKey
      | some pubKey =>
        match verify pubKey (utf8 latestSeal) sigBytes with
        | none => .raised
        | some true => .verified
        | some false => .failed

/-- The check of the latest seal, if there are providers and its tags are there. -/
def checkSeal (p : ArcProviders) (latestSeal : Str) : SealCheck :=
  match p.verifyRsaSignature, p.resolveTxt with
  | some verify, some resolve =>
    match (matchedTags x latestSeal).selector, (matchedTags x latestSeal).domain,
      (matchedTags x latestSeal).sig with
    | some selector, some domain, some sig =>
      checkSignature verify resolve p.b64decode latestSeal selector domain sig
    | _, _, _ => .skipped
  | _, _ => .skipped

/-- `validate_arc_chain`, with what it logs of the signature. -/
def validateArcChainWith (p : ArcProviders) (parsed : ParsedEmail) :
    ArcChainResultDto × SealCheck :=
  match parsed.header "arc-seal" with
  | [] => (⟨false, 0, "none".toList⟩, .skipped)
  | latestSeal :: seals =>
    let latestResult := (matchedTags x latestSeal).cv
    let chainValid := ["pass", "none"].any (·.toList = latestResult) || 0 < seals.length + 1
    ({ chainValid := chainValid
       instanceCount := seals.length + 1
       latestResult :=
        if ["pass", "fail"].any (·.toList = latestResult) then latestResult
        else if chainValid then "pass".toList else "none".toList },
      if chainValid then checkSeal x p latestSeal else .skipped)

/-! ## What a valid chain should rest on -/

/-- The value of a tag in the list of tags that a seal is. -/
def listedTag (name : String) (latestSeal : Str) : Option Str :=
  (latestSeal.splitOn ';').findSome? fun part =>
    match partition '=' part with
    | (tag, some value) =>
      if x.lower (strip tag) = name.toList then some (strip value) else none
    | (_, none) => none

/-- The tags of a seal, read as a list of tags. -/
def listedTags (latestSeal : Str) : SealTags where
  cv := ((listedTag x "cv" latestSeal).map x.lower).getD "none".toList
  selector := listedTag x "s" latestSeal
  domain := listedTag x "d" latestSeal
  sig := listedTag x "b" latestSeal

variable (p : ArcProviders) (read : Str → SealTags)

/-- The key that the DNS has for the selector and the domain of a seal, for a crypto provider. -/
def foundKey (tags : SealTags) : Option Str :=
  p.verifyRsaSignature.bind fun _ => p.resolveTxt.bind fun resolve =>
    tags.selector.bind fun selector => tags.domain.bind fun domain =>
      (resolve (dnsDomain selector domain)).bind extractPublicKeyFromTxt

/-- The signature of a seal verifies under a key. -/
def Verifies (latestSeal : Str) (tags : SealTags) (pubKey : Str) : Prop :=
  ∃ verify ∈ p.verifyRsaSignature, ∃ sig ∈ tags.sig, ∃ sigBytes ∈ p.b64decode sig,
    verify pubKey (utf8 latestSeal) sigBytes = some true

/-- The `cv` tag of the latest seal is a pass, or none and the seal is the only one. -/
def CvPasses (latestSeal : Str) (older : List Str) : Prop :=
  (read latestSeal).cv = "pass".toList ∨ (read latestSeal).cv = "none".toList ∧ older = []

/-- **A result is earned.**  The chain is valid only if the `cv` tag of the latest seal passes and
its signature verifies under any key found for it, and passes only if it is valid and the seal does
not say that it fails. -/
structure Earned (seals : List Str) (result : ArcChainResultDto) : Prop where
  cv : result.chainValid = true →
    ∃ latestSeal older, seals = latestSeal :: older ∧ CvPasses read latestSeal older
  signature : result.chainValid = true → ∀ latestSeal ∈ seals.head?,
    ∀ pubKey ∈ foundKey p (read latestSeal), Verifies p latestSeal (read latestSeal) pubKey
  latest : result.latestResult = "pass".toList → result.chainValid = true ∧
    ∀ latestSeal ∈ seals.head?, (read latestSeal).cv ≠ "fail".toList

/-- **The seals that a chain rests on**: none, or those whose latest has a `cv` tag that passes and a
signature that verifies. -/
def SealEarns : List Str → Prop
  | [] => True
  | latestSeal :: older => CvPasses read latestSeal older ∧
    ∀ pubKey ∈ foundKey p (read latestSeal), Verifies p latestSeal (read latestSeal) pubKey

variable {x p read} {parsed : ParsedEmail}

/-- **The result does not depend on the providers.** -/
theorem validateArcChainWith_fst (x : Unicode) (p : ArcProviders) (parsed : ParsedEmail) :
    (validateArcChainWith x p parsed).1 = validateArcChain x parsed := by
  rw [validateArcChainWith, validateArcChain]
  cases parsed.header "arc-seal" with
  | nil => rfl
  | cons latestSeal seals => rfl

theorem chainValid_iff :
    (validateArcChain x parsed).chainValid = true ↔ parsed.header "arc-seal" ≠ [] := by
  rw [validateArcChain]
  cases parsed.header "arc-seal" with
  | nil => simp
  | cons latestSeal seals => simp

/-- A chain that passes has a seal. -/
theorem chainValid_of_latestResult
    (h : (validateArcChain x parsed).latestResult = "pass".toList) :
    (validateArcChain x parsed).chainValid = true := by
  rw [chainValid_iff]
  intro hseals
  rw [validateArcChain, hseals] at h
  simp at h

theorem CvPasses.ne_fail {latestSeal : Str} {older : List Str} (h : CvPasses read latestSeal older) :
    (read latestSeal).cv ≠ "fail".toList := by
  rcases h with hpass | ⟨hnone, -⟩
  · rw [hpass]
    decide
  · rw [hnone]
    decide

/-- **Whichever way the tags are read**, the result is earned exactly for the seals that a chain
rests on. -/
theorem earned_iff (x : Unicode) (p : ArcProviders) (read : Str → SealTags) (parsed : ParsedEmail) :
    Earned p read (parsed.header "arc-seal") (validateArcChainWith x p parsed).1 ↔
      SealEarns p read (parsed.header "arc-seal") := by
  rw [validateArcChainWith_fst]
  constructor
  · rintro ⟨hcv, hsignature, -⟩
    rw [chainValid_iff] at hcv hsignature
    cases hseals : parsed.header "arc-seal" with
    | nil => trivial
    | cons latestSeal older =>
      rw [hseals] at hcv hsignature
      obtain ⟨_, _, heq, hpasses⟩ := hcv (List.cons_ne_nil _ _)
      cases heq
      exact ⟨hpasses, hsignature (List.cons_ne_nil _ _) latestSeal rfl⟩
  · intro hearns
    cases hseals : parsed.header "arc-seal" with
    | nil =>
      have hinvalid : ¬(validateArcChain x parsed).chainValid = true := fun hvalid =>
        chainValid_iff.1 hvalid hseals
      exact ⟨fun hvalid => absurd hvalid hinvalid, fun hvalid => absurd hvalid hinvalid,
        fun hpass => absurd (chainValid_of_latestResult hpass) hinvalid⟩
    | cons latestSeal older =>
      rw [hseals] at hearns
      obtain ⟨hpasses, hverifies⟩ := hearns
      refine ⟨fun _ => ⟨latestSeal, older, rfl, hpasses⟩, fun _ seal' hmem => ?_, fun hpass => ?_⟩
      · cases hmem
        exact hverifies
      · refine ⟨chainValid_of_latestResult hpass, fun seal' hmem => ?_⟩
        cases hmem
        exact hpasses.ne_fail

/-- **For which seals a result is earned**, whether the tags are what the patterns find or what the
list of tags says. -/
theorem chain_valid_earned_iff (x : Unicode) (p : ArcProviders) (parsed : ParsedEmail) :
    (Earned p (matchedTags x) (parsed.header "arc-seal") (validateArcChainWith x p parsed).1 ↔
        SealEarns p (matchedTags x) (parsed.header "arc-seal")) ∧
      (Earned p (listedTags x) (parsed.header "arc-seal") (validateArcChainWith x p parsed).1 ↔
        SealEarns p (listedTags x) (parsed.header "arc-seal")) :=
  ⟨earned_iff x p (matchedTags x) parsed, earned_iff x p (listedTags x) parsed⟩

/-- An e-mail with one seal. -/
def sealedEmail (latestSeal : String) : ParsedEmail :=
  { bareEmail with rawHeaders := (∅ : Dict String (List Str)).set "arc-seal" [latestSeal.toList] }

/-- A key for every domain, under which no signature verifies. -/
def rejecting : ArcProviders where
  verifyRsaSignature := some fun _ _ _ => some false
  resolveTxt := some fun _ => some ["v=DKIM1; k=rsa; p=MIGfMA0G".toList]
  b64decode _ := some "sig".toUTF8

/-- A seal that says that the chain fails, and one that says that it passes. -/
def failingSeal : String := "i=1; cv=fail; d=b.test; s=k; b=c2ln"

def forgedSeal : String := "i=1; cv=pass; d=b.test; s=k; b=c2ln"

/-- **Both make a valid chain**, though the first fails and the signature of the second does, too. -/
theorem chain_valid_unearned :
    ((validateArcChainWith asciiUnicode rejecting (sealedEmail failingSeal)).1 =
        ⟨true, 1, "fail".toList⟩ ∧
      ¬Earned rejecting (matchedTags asciiUnicode) ((sealedEmail failingSeal).header "arc-seal")
        (validateArcChainWith asciiUnicode rejecting (sealedEmail failingSeal)).1) ∧
      validateArcChainWith asciiUnicode rejecting (sealedEmail forgedSeal) =
        (⟨true, 1, "pass".toList⟩, .failed) ∧
      ¬Earned rejecting (matchedTags asciiUnicode) ((sealedEmail forgedSeal).header "arc-seal")
        (validateArcChainWith asciiUnicode rejecting (sealedEmail forgedSeal)).1 := by
  refine ⟨⟨by decide +kernel, fun h => ?_⟩, by decide +kernel, fun h => ?_⟩
  · have hpasses := ((earned_iff _ _ _ _).1 h).1
    exact hpasses.ne_fail (by decide +kernel)
  · have hfound : foundKey rejecting (matchedTags asciiUnicode forgedSeal.toList) =
        some "MIGfMA0G".toList := by decide +kernel
    obtain ⟨verify, hverify, _, _, _, _, hverified⟩ := ((earned_iff _ _ _ _).1 h).2 _ hfound
    cases hverify
    exact nomatch hverified

end ScamOn.Authentication
