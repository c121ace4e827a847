import Mathlib.Algebra.Order.BigOperators.Group.List
import Mathlib.Data.List.Dedup
import ScamOn.Lib.Rounding
import ScamOn.Lib.Text

/-!
# Brand impersonation and social engineering

`BrandService.analyze_sender` compares a display name and a sender address with a set of
brands; `BehaviorAnalyzer.analyze_text` looks for the keywords of four tactics in a text.

* `SetOrder` is the order in which a set of texts is gone through: any order without repeats.
* `analyzeSender` makes its four checks one after another, `analyzeText` looks for the tactics.
-/

namespace ScamOn.SecurityIntelligence

/-- The order in which sets of texts are gone through. -/
structure SetOrder where
  order : List String → List String
  perm : ∀ l, (order l).Perm l.dedup

namespace SetOrder

/-- The order of the last occurrences. -/
def dedup : SetOrder := ⟨List.dedup, fun _ => List.Perm.refl _⟩

variable (sets : SetOrder)

theorem mem_order {l : List String} {s : String} : s ∈ sets.order l ↔ s ∈ l := by
  rw [(sets.perm l).mem_iff, List.mem_dedup]

end SetOrder

/-! ## Brand impersonation -/

/-- `TARGETED_BRANDS`. -/
def targetedBrands : List String :=
  ["microsoft", "google", "apple", "amazon", "paypal", "github", "adobe", "dropbox", "linkedin",
    "chase", "bankofamerica", "netflix"]

/-- What `analyze_sender` uses of other libraries. -/
structure DomainLibrary where
  /-- `str.lower`. -/
  lower : String → String
  /-- `tldextract.extract(domain).domain`. -/
  extractDomain : String → String
  /-- The first label of the domain, decoded from IDNA; `none` if the decoder raises. -/
  decodeIdna : String → Option String

/-- A new row of the table, from its cell on the left on. -/
def levenshteinRow (c1 : Char) : ℕ → List Char → List ℕ → List ℕ
  | left, c2 :: s2, diagonal :: above :: previousRow =>
    let cell := min (min (above + 1) (left + 1)) (diagonal + if c1 ≠ c2 then 1 else 0)
    cell :: levenshteinRow c1 cell s2 (above :: previousRow)
  | _, _, _ => []

/-- The loop over the longer text. -/
def levenshteinRows (s2 : List Char) : ℕ → List Char → List ℕ → List ℕ
  | _, [], previousRow => previousRow
  | i, c1 :: s1, previousRow =>
    levenshteinRows s2 (i + 1) s1 ((i + 1) :: levenshteinRow c1 (i + 1) s2 previousRow)

/-- `levenshtein_distance`. -/
def levenshteinDistance (s1 s2 : String) : ℕ :=
  let (long, short) := if s1.length < s2.length then (s2, s1) else (s1, s2)
  if short.length = 0 then long.length
  else (levenshteinRows short.toList 0 long.toList (List.range (short.length + 1))).getLastD 0

/-- An impersonation that was detected. -/
structure BrandMatch where
  reason : String
  matchedBrand : String
  kind : String
  deriving DecidableEq

section Brand

variable (sets : SetOrder) (library : DomainLibrary)

/-- The check of the display name. -/
def displayNameSpoofing (displayName domain senderBrand : String) : Option BrandMatch :=
  match (sets.order targetedBrands).find? (Text.contains (library.lower displayName)) with
  | some brand =>
    if senderBrand ≠ brand ∧
        ¬[brand, "internal-com"].any (fun b => b.toList.isSuffixOf senderBrand.toList) then
      some {
        reason := "Display name contains brand '" ++ Text.asciiUpper brand ++
          "' but sender domain '" ++ domain ++ "' is unrelated."
        matchedBrand := brand
        kind := "display_name_spoofing"
      }
    else none
  | none => none

/-- The check of the edit distance. -/
def typosquatting (domain senderBrand : String) : Option BrandMatch :=
  ((sets.order targetedBrands).find? fun brand =>
    decide (senderBrand ≠ brand ∧ levenshteinDistance senderBrand brand ∈ [1, 2] ∧
      4 ≤ senderBrand.length)).map fun brand =>
    {
      reason := "Typosquatting detected: sender domain '" ++ domain ++
        "' is visually similar to brand '" ++ Text.asciiUpper brand ++ "'."
      matchedBrand := brand
      kind := "typosquatting"
    }

/-- The check of a domain in Punycode. -/
def homographImpersonation (domain : String) : Option BrandMatch :=
  if "xn--".toList.isPrefixOf domain.toList then
    match library.decodeIdna domain with
    | some decodedUnicode =>
      ((sets.order targetedBrands).find? fun brand =>
        decide (levenshteinDistance decodedUnicode brand ∈ [0, 1, 2])).map fun brand =>
        {
          reason := "IDNA Homograph IDN spoofing detected: Punycode domain '" ++ domain ++
            "' decodes to '" ++ decodedUnicode ++ "' target brand '" ++
            Text.asciiUpper brand ++ "'."
          matchedBrand := brand
          kind := "homograph_impersonation"
        }
    -- the exception is swallowed
    | none => none
  else none

/-- The check of brands with a hyphen. -/
def hyphenImpersonation (domain : String) : Option BrandMatch :=
  ((sets.order targetedBrands).find? fun brand =>
    Text.contains domain (brand ++ "-") || Text.contains domain ("-" ++ brand)).map fun brand =>
    {
      reason := "Subdomain/visual indicator brand impersonation: '" ++ domain ++
        "' contains hyphenated brand '" ++ Text.asciiUpper brand ++ "'."
      matchedBrand := brand
      kind := "hyphen_impersonation"
    }

/-- `analyze_sender`; `none` means that nothing was detected. -/
def analyzeSender (displayName senderEmail : String) : Option BrandMatch :=
  match senderEmail.toList.splitOn '@' with
  | [_, domainChars] =>
    let domain := String.ofList domainChars
    let senderBrand := library.extractDomain (library.lower domain)
    (((displayNameSpoofing sets library displayName domain senderBrand).or
      (typosquatting sets domain senderBrand)).or
      (homographImpersonation sets library domain)).or
      (hyphenImpersonation sets domain)
  | _ => none

variable {sets library}

end Brand

/-! ## Social engineering -/

/-- A tactic, with its keywords and its share of the score. -/
structure TacticRule where
  tactic : String
  keywords : List String
  share : ℚ

/-- `URGENCY_KEYWORDS`, `BEC_KEYWORDS`, `HARVEST_KEYWORDS` and `INVOICE_KEYWORDS`. -/
def tacticRules : List TacticRule :=
  [⟨"urgency_manipulation",
      ["urgent", "immediate", "action required", "suspended", "disable", "unauthorized", "expire",
        "within 24 hours", "due now"], 5 / 2⟩,
    ⟨"bec_impersonation",
      ["wire transfer", "ceo", "payment request", "bank details", "routing number",
        "direct deposit", "gift card", "invoice payment"], 7 / 2⟩,
    ⟨"credential_harvesting",
      ["reset password", "verify account", "security alert", "login request", "confirm identity",
        "update credentials", "sign in attempt"], 3⟩,
    ⟨"financial_fraud",
      ["invoice due", "overdue", "billing receipt", "amount due", "payment invoice",
        "purchase order"], 2⟩]

/-- The result of `analyze_text`. -/
structure BehaviorReport where
  behaviorRiskScore : ℚ
  detectedTactics : List String
  riskIndicators : List String
  socialEngineeringDetected : Bool
  deriving DecidableEq

section Behavior

variable (sets : SetOrder) (lower : String → String)

/-- The keywords of a rule that are in a text. -/
def TacticRule.matches (rule : TacticRule) (textLower : String) : List String :=
  (sets.order rule.keywords).filter (Text.contains textLower)

/-- `analyze_text`. -/
def analyzeText (text : String) : BehaviorReport :=
  let textLower := lower text
  let hits := tacticRules.filter fun rule => !(rule.matches sets textLower).isEmpty
  let tactics := hits.map TacticRule.tactic
  let score := (hits.map TacticRule.share).sum
  {
    behaviorRiskScore := roundDigits 2 (min (score / 10) 1)
    detectedTactics := sets.order tactics
    riskIndicators := sets.order (hits.flatMap fun rule => rule.matches sets textLower)
    socialEngineeringDetected := 0 < tactics.length
  }

variable {sets lower}

end Behavior

end ScamOn.SecurityIntelligence
