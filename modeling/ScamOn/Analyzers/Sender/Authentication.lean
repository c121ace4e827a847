import ScamOn.Lib.Pattern

/-!
# Claims of authentication headers

`DeterministicAuthenticationHeaderInterpreter` reads what the headers of an e-mail claim about
SPF, DKIM, DMARC and ARC, without verifying anything.

* `interpret` is the method; it raises if a mechanism is written with letters that fold to no
  ASCII letter.
* `leadingToken` is the first word of a header, in lower case.
* `interpret_receivedSpf`: a `Received-SPF` header alone has the status of its first word.
-/

namespace ScamOn.Analyzers
namespace Sender

/-! ## Statuses -/

/-- `AuthenticationStatus`. -/
inductive AuthenticationStatus
  | pass | fail | softfail | none | unknown
  deriving DecidableEq

/-- `AuthenticationStatus.value`. -/
def AuthenticationStatus.value : AuthenticationStatus → String
  | .pass => "PASS"
  | .fail => "FAIL"
  | .softfail => "SOFTFAIL"
  | .none => "NONE"
  | .unknown => "UNKNOWN"

/-- `AuthenticationMechanism`. -/
inductive AuthenticationMechanism
  | spf | dkim | dmarc | arc
  deriving DecidableEq

/-- `AuthenticationMechanism(value)`; `none` is `ValueError`. -/
def AuthenticationMechanism.ofValue? (value : Str) : Option AuthenticationMechanism :=
  if value = "spf".toList then some .spf
  else if value = "dkim".toList then some .dkim
  else if value = "dmarc".toList then some .dmarc
  else if value = "arc".toList then some .arc
  else none

/-- `AuthenticationHeaderSource`. -/
inductive AuthenticationHeaderSource
  | authenticationResults | receivedSpf | dkimSignature | arcAuthenticationResults | arcSeal
  deriving DecidableEq

/-- `AuthenticationObservation`. -/
structure AuthenticationObservation where
  status : AuthenticationStatus
  source : AuthenticationHeaderSource
  rawValue : Str
  deriving DecidableEq

/-- `AuthenticationMechanismResult`. -/
structure AuthenticationMechanismResult where
  mechanism : AuthenticationMechanism
  status : AuthenticationStatus
  observedStatuses : List AuthenticationStatus
  headerSources : List AuthenticationHeaderSource
  rawHeaderValues : List Str
  deriving DecidableEq

/-- `AuthenticationAnalysisResult`. -/
structure AuthenticationAnalysisResult where
  spf : AuthenticationMechanismResult
  dkim : AuthenticationMechanismResult
  dmarc : AuthenticationMechanismResult
  arc : AuthenticationMechanismResult
  authenticationResults : List Str
  deriving DecidableEq

/-! ## Reading the headers -/

open Pattern

/-- `s.casefold()`, for the letters that `[a-z]` takes under `re.IGNORECASE`. -/
def casefold (s : Str) : Str :=
  s.flatMap fun c =>
    if c = '\u017F' then ['s']
    else if c = '\u212A' then ['k']
    else if c = '\u0130' then ['i', '\u0307']
    else [c.toLower]

/-- `\s*=\s*(?P<status>[a-z]+)`. -/
def equalsStatus : Pattern :=
  cat [star space, lit "=", star space, group "status" (plus (set isLetterFold))]

/-- `STATUS_PATTERN`. -/
def statusPattern : Pattern :=
  cat [notAfter isLetterFold,
    group "mechanism" (anyOf [litFold "spf", litFold "dkim", litFold "dmarc", litFold "arc"]),
    equalsStatus]

/-- `ARC_CHAIN_VALIDATION_PATTERN`. -/
def arcChainValidationPattern : Pattern := cat [notAfter isLetterFold, litFold "cv", equalsStatus]

/-- `LEADING_STATUS_PATTERN`. -/
def leadingStatusPattern : Pattern :=
  seq atStart (seq (star space) (group "status" (plus (set isLetterFold))))

/-- `STATUS_MAP.get(token, AuthenticationStatus.UNKNOWN)`. -/
def statusOfToken (token : Str) : AuthenticationStatus :=
  if token = "pass".toList then .pass
  else if token = "fail".toList then .fail
  else if token = "softfail".toList then .softfail
  else if token = "none".toList then .none
  else .unknown

/-- `_status`. -/
def statusOf (rawStatus : Str) : AuthenticationStatus := statusOfToken (casefold rawStatus)

/-- The observation of a match of one of the patterns. -/
def observation (source : AuthenticationHeaderSource) (headerValue : Str) (m : Match) :
    AuthenticationObservation :=
  ⟨statusOf ((m.group "status").getD []), source, headerValue⟩

/-- `_authentication_results_observations`; `none` is the `ValueError` of a mechanism. -/
def authenticationResultsObservations (headerValues : List Str) :
    Option (List (AuthenticationMechanism × AuthenticationObservation)) :=
  (headerValues.flatMap fun headerValue =>
      (finditer statusPattern headerValue).map fun m => (headerValue, m)).mapM fun found =>
    (AuthenticationMechanism.ofValue? (casefold ((found.2.group "mechanism").getD []))).map
      fun mechanism => (mechanism, observation .authenticationResults found.1 found.2)

/-- The observations of a pattern that is searched for in every value. -/
def searchedObservations (pattern : Pattern) (source : AuthenticationHeaderSource)
    (headerValues : List Str) : List AuthenticationObservation :=
  headerValues.filterMap fun headerValue =>
    (search pattern headerValue).map (observation source headerValue)

/-- `_received_spf_observations`. -/
def receivedSpfObservations (headerValues : List Str) : List AuthenticationObservation :=
  searchedObservations leadingStatusPattern .receivedSpf headerValues

/-- `_arc_seal_observations`. -/
def arcSealObservations (headerValues : List Str) : List AuthenticationObservation :=
  searchedObservations arcChainValidationPattern .arcSeal headerValues

/-! ## The result -/

/-- `MAX_AUTHENTICATION_HEADER_VALUE_LENGTH`. -/
def maxAuthenticationHeaderValueLength : ℕ := 8192

/-- `_bounded_values`. -/
def boundedValues (values : List Str) : List Str :=
  values.map fun value => value.take maxAuthenticationHeaderValueLength

/-- `_result`. -/
def result (mechanism : AuthenticationMechanism) (observations : List AuthenticationObservation)
    (presenceOnlyValues : List Str) (presenceSource : Option AuthenticationHeaderSource) :
    AuthenticationMechanismResult :=
  let sources := (observations.map (·.source)).eraseDups
  let statuses := (observations.map (·.status)).eraseDups
  let rawValues := (observations.map (·.rawValue)).eraseDups
  let present := if presenceOnlyValues = [] then none else presenceSource
  { mechanism := mechanism
    status := if statuses.length = 1 then statuses.headD .unknown else .unknown
    observedStatuses := statuses
    headerSources := (sources ++ present.toList).eraseDups
    rawHeaderValues := boundedValues
      (if present.isSome then (rawValues ++ presenceOnlyValues).eraseDups else rawValues) }

/-- `interpret`; `none` is `ValueError`. -/
def interpret (getAll : String → List Str) : Option AuthenticationAnalysisResult :=
  (authenticationResultsObservations (getAll "Authentication-Results")).map fun observations =>
    let observationsOf mechanism := (observations.filter (·.1 = mechanism)).map (·.2)
    { spf := result .spf
        (observationsOf .spf ++ receivedSpfObservations (getAll "Received-SPF")) [] none
      dkim := result .dkim (observationsOf .dkim) (getAll "DKIM-Signature") (some .dkimSignature)
      dmarc := result .dmarc (observationsOf .dmarc) [] none
      arc := result .arc (observationsOf .arc ++ arcSealObservations (getAll "ARC-Seal"))
        (getAll "ARC-Authentication-Results") (some .arcAuthenticationResults)
      authenticationResults := boundedValues (getAll "Authentication-Results") }

example : (interpret fun name => if name = "Authentication-Results" then
      ["mx.test; spf=pass; dkim=Fail; dkim=pass".toList] else []).map
        (fun r => (r.spf.status, r.dkim.status, r.dmarc.status)) =
    some (.pass, .unknown, .unknown) := by
  decide

/-! ## The first word of a header -/

/-- The first word of a header, if it begins with one after blanks, in lower case. -/
def leadingToken (header : Str) : Str :=
  casefold ((header.dropWhile Text.isSpace).takeWhile isLetterFold)

/-- No blank is a letter. -/
theorem isLetterFold_of_isSpace {c : Char} (h : Text.isSpace c = true) : isLetterFold c = false := by
  have hmem : c.toNat ∈ Text.whitespace := by simpa [Text.isSpace] using h
  have hall : ∀ n ∈ Text.whitespace, isLetterFold (Char.ofNat n) = false := by decide
  rw [← Char.ofNat_toNat c]
  exact hall _ hmem

theorem allMatches_word_of_space (prev : Option Char) {s : Str}
    (h : s.head?.any Text.isSpace = true) :
    (group "status" (plus (set isLetterFold))).allMatches prev s = [] := by
  cases s with
  | nil => rfl
  | cons c s =>
    have hc : isLetterFold c = false := isLetterFold_of_isSpace (by simpa using h)
    rw [allMatches, plus, allMatches, allMatches_set_of_neg (by simpa using hc)]
    rfl

/-- The pattern of a header finds its first word. -/
theorem search_leadingStatusPattern (header : Str) :
    ((search leadingStatusPattern header).map fun m => (m.group "status").getD []) =
      if (header.dropWhile Text.isSpace).takeWhile isLetterFold = [] then none
      else some ((header.dropWhile Text.isSpace).takeWhile isLetterFold) := by
  rw [leadingStatusPattern, search_atStart_seq, space,
    match?_star_seq fun prev s h => allMatches_word_of_space prev h, match?_group, match?_plus]
  split_ifs
  · rfl
  · rfl

theorem receivedSpfObservations_singleton (header : Str) :
    receivedSpfObservations [header] =
      if (header.dropWhile Text.isSpace).takeWhile isLetterFold = [] then []
      else [⟨statusOf ((header.dropWhile Text.isSpace).takeWhile isLetterFold), .receivedSpf, header⟩] := by
  have hsearch := search_leadingStatusPattern header
  unfold receivedSpfObservations searchedObservations
  split_ifs at hsearch ⊢ with hempty
  · have hnone : search leadingStatusPattern header = none := by simpa using hsearch
    simp [hnone]
  · obtain ⟨m, hm, hgroup⟩ := Option.map_eq_some_iff.1 hsearch
    simp [hm, observation, hgroup]

/-- The headers of an e-mail that has one `Received-SPF` header, and no other of them. -/
def onlyReceivedSpf (header : Str) (name : String) : List Str :=
  if name = "Received-SPF" then [header] else []

/-- **A `Received-SPF` header alone** has the status of its first word. -/
theorem interpret_receivedSpf (header : Str) :
    ∃ r, interpret (onlyReceivedSpf header) = some r ∧
      r.spf.status = statusOfToken (leadingToken header) := by
  refine ⟨{
    spf := result .spf (receivedSpfObservations [header]) [] none
    dkim := result .dkim [] [] (some .dkimSignature)
    dmarc := result .dmarc [] [] none
    arc := result .arc [] [] (some .arcAuthenticationResults)
    authenticationResults := [] }, rfl, ?_⟩
  rw [receivedSpfObservations_singleton, leadingToken]
  split_ifs with hempty
  · rw [hempty]
    rfl
  · rfl

end Sender
end ScamOn.Analyzers
