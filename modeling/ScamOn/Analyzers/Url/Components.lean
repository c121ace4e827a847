import ScamOn.Analyzers.Url.Extractor
import ScamOn.Analyzers.Url.Normalizer
import ScamOn.Lib.Dict
import ScamOn.Lib.Floats

/-!
# The components of a URL, and what is measured of them

The models of the source refuse what is over their limits, and some of them are built
from text that an e-mail brings.  Those are here: the components, the host analysis and
the structural features.

* `parseComponents`, `analyzeHost` and `extractFeatures` answer `none` where the source
  raises.
* `Measurable` is what a URL must be like for all three to succeed, and `measurable_iff`
  says so: besides the limits of the components, lower-casing must not make the host too
  long, and the entropy must not exceed eight bits.
-/

namespace ScamOn.Analyzers
namespace Url

open Chars UrlParse Pattern

/-- What lies outside: Unicode, floating point, the parser of HTML and the list of public
suffixes. -/
structure Platform (F : Type*) where
  unicode : Unicode
  floats : Floats F
  /-- `c.isdigit()`. -/
  isDigit : Char → Bool
  /-- `\w` of a regular expression. -/
  isWord : Char → Bool
  /-- `unicodedata.bidirectional(c)` is one of `_RTL_BIDI`. -/
  isRtl : Char → Bool
  /-- `unicodedata.normalize("NFKC", s)`. -/
  nfkc : Str → Str
  /-- `unicodedata.normalize("NFD", s)`. -/
  nfd : Str → Str
  /-- `unicodedata.normalize("NFKD", s)`. -/
  nfkd : Str → Str
  /-- `tldextract(host).subdomain`. -/
  subdomain : Str → Str
  /-- `HTMLParser.feed(s)`; `none` is an exception. -/
  feed : Str → Option (List HtmlEvent)

variable {F : Type*}

/-- The text is no longer than that, if it is there. -/
def LengthLe (n : ℕ) (o : Option Str) : Prop := ∀ s ∈ o, s.length ≤ n

instance (n : ℕ) (o : Option Str) : Decidable (LengthLe n o) :=
  inferInstanceAs (Decidable (∀ s ∈ o, s.length ≤ n))

/-- `s or None`. -/
def orNone (s : Str) : Option Str := if s = [] then none else some s

/-! ## Components -/

/-- `MAX_SCHEME_LENGTH`. -/
def maxSchemeLength : ℕ := 32

/-- `MAX_HOST_LENGTH`. -/
def maxHostLength : ℕ := 253

/-- `MAX_PATH_LENGTH`. -/
def maxPathLength : ℕ := 4096

/-- `MAX_QUERY_LENGTH`. -/
def maxQueryLength : ℕ := 4096

/-- `MAX_FRAGMENT_LENGTH`. -/
def maxFragmentLength : ℕ := 1024

/-- `MAX_PORT_VALUE`. -/
def maxPortValue : ℕ := 65535

/-- The fields of `ParsedUrlComponents`. -/
structure ComponentFields where
  scheme : Option Str
  username : Option Str
  password : Option Str
  host : Option Str
  port : Option ℕ
  path : Option Str
  query : Option Str
  fragment : Option Str
  isParseable : Bool
  subdomain : Option Str

/-- The limits of `ParsedUrlComponents`. -/
def ComponentFields.WithinLimits (c : ComponentFields) : Prop :=
  LengthLe maxSchemeLength c.scheme ∧ LengthLe maxHostLength c.username ∧
    LengthLe maxHostLength c.password ∧ LengthLe maxHostLength c.host ∧
    (∀ p ∈ c.port, p ≤ maxPortValue) ∧ LengthLe maxPathLength c.path ∧
    LengthLe maxQueryLength c.query ∧ LengthLe maxFragmentLength c.fragment ∧
    LengthLe maxHostLength c.subdomain

instance (c : ComponentFields) : Decidable c.WithinLimits :=
  inferInstanceAs (Decidable (_ ∧ _))

/-- `ParsedUrlComponents`. -/
structure ParsedUrlComponents extends ComponentFields where
  limits : toComponentFields.WithinLimits

/-- What `_parse_components` reads off the parts of a URL. -/
def componentFields (x : Unicode) (r : SplitResult) (port : Option ℕ) : ComponentFields where
  scheme := orNone r.scheme
  username := (userinfo r.netloc).map Prod.fst
  password := (userinfo r.netloc).bind Prod.snd
  host := orNone (hostname x r.netloc)
  port := port
  path := orNone r.path
  query := orNone r.query
  fragment := orNone r.fragment
  isParseable := r.scheme ≠ [] ∨ r.netloc ≠ []
  subdomain := none

/-- `_parse_components`; `none` is an exception. -/
def parseComponents (x : Unicode) (rawUrl : Str) : Option ParsedUrlComponents :=
  match urlsplit x rawUrl with
  | none => none
  | some r =>
    match port r.netloc with
    | none => none
    | some q =>
      if h : (componentFields x r q).WithinLimits then some ⟨componentFields x r q, h⟩ else none

/-! ## The host -/

/-- `UrlHostType`. -/
inductive UrlHostType where
  | domain
  | ipV4
  | ipV6
  | localhost
  | empty
  | invalid
  deriving DecidableEq

/-- The fields of `UrlHostAnalysis`. -/
structure HostFields where
  rawHost : Option Str
  hostType : UrlHostType
  normalizedHost : Option Str
  registeredDomain : Option Str
  effectiveTld : Option Str
  subdomain : Option Str
  subdomainDepth : ℕ
  isIpAddress : Bool
  isLocalhost : Bool
  isPunycode : Bool
  isIdn : Bool

/-- The limits of `UrlHostAnalysis`. -/
def HostFields.WithinLimits (h : HostFields) : Prop :=
  LengthLe maxHostLength h.rawHost ∧ LengthLe maxHostLength h.normalizedHost ∧
    LengthLe maxHostLength h.registeredDomain ∧ LengthLe maxHostLength h.effectiveTld ∧
    LengthLe maxHostLength h.subdomain

instance (h : HostFields) : Decidable h.WithinLimits := inferInstanceAs (Decidable (_ ∧ _))

/-- `UrlHostAnalysis`. -/
structure UrlHostAnalysis extends HostFields where
  limits : toHostFields.WithinLimits

/-- The type of a host that is there. -/
def hostType (host : Str) : UrlHostType :=
  if IpAddress.isIPv4 host then .ipV4
  else if IpAddress.isIPv6 host then .ipV6
  else .domain

/-- The labels of a host that are not empty. -/
def hostLabels (host : Str) : List Str := (host.splitOn '.').filter (· ≠ [])

/-- What `DeterministicUrlHostAnalyzer.analyze` says of a host. -/
def hostFields (x : Unicode) (host : Str) : HostFields :=
  if host = [] then ⟨none, .empty, none, none, none, none, 0, false, false, false, false⟩
  else
    let normalizedHost := x.lower host
    let labels := hostLabels normalizedHost
    { rawHost := some host
      hostType := hostType host
      normalizedHost := some normalizedHost
      registeredDomain := labels.getLast?
      effectiveTld := labels.getLast?
      subdomain :=
        if 2 < labels.length then some (['.'].intercalate (labels.take (labels.length - 2)))
        else none
      subdomainDepth := labels.length - 2
      isIpAddress := hostType host = .ipV4 ∨ hostType host = .ipV6
      isLocalhost := normalizedHost = "localhost".toList
      isPunycode := decide ("xn--".toList <:+: normalizedHost)
      isIdn := host.any fun c => 127 < c.toNat }

/-- `DeterministicUrlHostAnalyzer.analyze`; `none` is an exception. -/
def analyzeHost (x : Unicode) (c : ParsedUrlComponents) : Option UrlHostAnalysis :=
  if h : (hostFields x (c.host.getD [])).WithinLimits then
    some ⟨hostFields x (c.host.getD []), h⟩
  else none

/-! ## Structural features -/

/-- `_reconstruct`. -/
def reconstruct (c : ComponentFields) : Str :=
  let userinfo :=
    match c.username.filter (· ≠ []), c.password.filter (· ≠ []) with
    | some username, some password => username ++ ':' :: password ++ ['@']
    | some username, none => username ++ ['@']
    | none, _ => []
  urlunsplit ⟨c.scheme.getD [], userinfo ++ c.host.getD [] ++ portText c.port, c.path.getD [],
    c.query.getD [], c.fragment.getD []⟩

/-- How often each character occurs, in the order of first occurrence. -/
def frequencies (text : Str) : Dict Char ℕ :=
  text.foldl (fun freq ch => freq.set ch ((freq.get? ch).getD 0 + 1)) ∅

/-- `_shannon_entropy`. -/
def shannonEntropy (fl : Floats F) (text : Str) : F :=
  if text = [] then fl.ofNat 0
  else fl.neg (fl.sum ((frequencies text).values.map fun count =>
    fl.mul (fl.ratio count text.length) (fl.log2 (fl.ratio count text.length))))

/-- `_path_depth`. -/
def pathDepth (path : Str) : ℕ := ((path.splitOn '/').filter (· ≠ [])).length

/-- `_query_param_count`. -/
def queryParamCount (query : Str) : ℕ := if query = [] then 0 else (query.splitOn '&').length

/-- `_subdomain_count`. -/
def subdomainCount (subdomain : Option Str) : ℕ := (hostLabels (subdomain.getD [])).length

/-- `_PERCENT_RE`. -/
def percentRe : Pattern :=
  cat [oneOf ['%'], set IpAddress.isHexDigit, set IpAddress.isHexDigit]

/-- `_EXTENSION_RE`. -/
def extensionRe : Pattern :=
  cat [oneOf ['.'], set Char.isAlphanum, upTo (set Char.isAlphanum) 9, atEnd]

/-- `_has_double_extension`. -/
def hasDoubleExtension (path : Str) : Bool :=
  let filename := (rpartition '/' (path.reverse.dropWhile (· = '/')).reverse).2
  (extensionRe.search (extensionRe.sub [] filename)).isSome

/-- The fields of `UrlStructuralFeatures`. -/
structure FeatureFields (F : Type*) where
  totalLength : ℕ
  hostLength : ℕ
  pathLength : ℕ
  pathDepth : ℕ
  queryParameterCount : ℕ
  fragmentLength : ℕ
  subdomainCount : ℕ
  dotCount : ℕ
  hyphenCount : ℕ
  digitCount : ℕ
  atSignCount : ℕ
  percentEncodedCount : ℕ
  hasCredentials : Bool
  hasPort : Bool
  hasFragment : Bool
  hasQuery : Bool
  usesDefaultPort : Bool
  pathHasDoubleExtension : Bool
  digitRatio : F
  symbolRatio : F
  entropyScore : F

/-- The limits of `UrlStructuralFeatures`. -/
def FeatureFields.WithinLimits (fl : Floats F) (f : FeatureFields F) : Prop :=
  (fl.le (fl.ofNat 0) f.digitRatio ∧ fl.le f.digitRatio (fl.ofNat 1)) ∧
    (fl.le (fl.ofNat 0) f.symbolRatio ∧ fl.le f.symbolRatio (fl.ofNat 1)) ∧
    fl.le (fl.ofNat 0) f.entropyScore ∧ fl.le f.entropyScore (fl.ofNat 8)

instance (fl : Floats F) (f : FeatureFields F) : Decidable (f.WithinLimits fl) :=
  inferInstanceAs (Decidable (_ ∧ _))

/-- `UrlStructuralFeatures`. -/
structure UrlStructuralFeatures (fl : Floats F) extends FeatureFields F where
  limits : toFeatureFields.WithinLimits fl

/-- A share of the characters, nothing of nothing. -/
def share (fl : Floats F) (count total : ℕ) : F :=
  if total = 0 then fl.ofNat 0 else fl.ratio count total

/-- What `StructuralUrlFeatureExtractor.extract` measures. -/
def featureFields (p : Platform F) (c : ComponentFields) : FeatureFields F :=
  let fullUrl := reconstruct c
  let host := c.host.getD []
  let path := c.path.getD []
  let query := c.query.getD []
  let fragment := c.fragment.getD []
  let scheme := p.unicode.lower (c.scheme.getD [])
  let subdomain :=
    if host = [] then none
    else
      match c.subdomain with
      | some subdomain => orNone subdomain
      | none => orNone (p.subdomain host)
  let digits := fullUrl.countP p.isDigit
  let symbols := fullUrl.countP fun ch => ¬ch.isAlphanum ∧ ¬Text.isSpace ch
  { totalLength := fullUrl.length
    hostLength := host.length
    pathLength := path.length
    pathDepth := pathDepth path
    queryParameterCount := queryParamCount query
    fragmentLength := fragment.length
    subdomainCount := subdomainCount subdomain
    dotCount := fullUrl.count '.'
    hyphenCount := fullUrl.count '-'
    digitCount := digits
    atSignCount := fullUrl.count '@'
    percentEncodedCount := (percentRe.finditer fullUrl).length
    hasCredentials := c.username.getD [] ≠ [] ∨ c.password.getD [] ≠ []
    hasPort := c.port.isSome
    hasFragment := fragment ≠ []
    hasQuery := query ≠ []
    usesDefaultPort := c.port.isSome ∧ defaultPort scheme = c.port
    pathHasDoubleExtension := hasDoubleExtension path
    digitRatio := share p.floats digits fullUrl.length
    symbolRatio := share p.floats symbols fullUrl.length
    entropyScore := shannonEntropy p.floats fullUrl }

/-- `StructuralUrlFeatureExtractor.extract`; `none` is an exception. -/
def extractFeatures (p : Platform F) (c : ParsedUrlComponents) :
    Option (UrlStructuralFeatures p.floats) :=
  if h : (featureFields p c.toComponentFields).WithinLimits p.floats then
    some ⟨featureFields p c.toComponentFields, h⟩
  else none

/-! ## When nothing is raised -/

/-- Joined parts are as long as the parts with a separator each, but for one. -/
theorem length_intercalate_succ {sep : Char} {parts : List Str} (h : parts ≠ []) :
    ([sep].intercalate parts).length + 1 = (parts.map (·.length + 1)).sum := by
  induction parts with
  | nil => exact absurd rfl h
  | cons s parts ih =>
    rcases parts with _ | ⟨t, parts⟩
    · simp
    · rw [List.intercalate_cons_cons, List.map_cons, List.sum_cons, ← ih (List.cons_ne_nil _ _)]
      simp only [List.length_append, List.length_singleton]
      omega

/-- Fewer parts make a shorter text. -/
theorem length_intercalate_le_of_sublist {sep : Char} {parts parts' : List Str}
    (h : parts'.Sublist parts) :
    ([sep].intercalate parts').length ≤ ([sep].intercalate parts).length := by
  rcases parts' with _ | ⟨s, rest⟩
  · simp
  · have hne : parts ≠ [] := fun hnil => by
      rw [hnil] at h
      cases h
    have hsum : ((s :: rest).map (·.length + 1)).sum ≤ (parts.map (·.length + 1)).sum :=
      (h.map _).sum_le_sum fun _ _ => Nat.zero_le _
    have hparts : ([sep].intercalate parts).length + 1 = _ := length_intercalate_succ hne
    have hparts' : ([sep].intercalate (s :: rest)).length + 1 = _ :=
      length_intercalate_succ (List.cons_ne_nil s rest)
    omega

/-- The labels of a host together are no longer than the host. -/
theorem length_hostLabels_le {host : Str} {labels : List Str}
    (h : labels.Sublist (hostLabels host)) : (['.'].intercalate labels).length ≤ host.length := by
  have hsub : labels.Sublist (host.splitOn '.') := h.trans List.filter_sublist
  have hle : _ ≤ (['.'].intercalate (host.splitOn '.')).length :=
    length_intercalate_le_of_sublist hsub
  rwa [List.intercalate_splitOn] at hle

/-- The host analysis fails only if lower-casing makes the host too long. -/
theorem hostFields_withinLimits_iff {x : Unicode} {host : Str} (h : host.length ≤ maxHostLength) :
    (hostFields x host).WithinLimits ↔ host ≠ [] → (x.lower host).length ≤ maxHostLength := by
  unfold hostFields
  by_cases hempty : host = []
  · rw [if_pos hempty]
    simp [HostFields.WithinLimits, LengthLe, hempty]
  rw [if_neg hempty]
  constructor
  · intro hlimits _
    exact hlimits.2.1 _ rfl
  · intro hlower
    have hnormalized := hlower hempty
    have hlabels : ∀ labels, labels.Sublist (hostLabels (x.lower host)) →
        (['.'].intercalate labels).length ≤ maxHostLength :=
      fun labels hsub => (length_hostLabels_le hsub).trans hnormalized
    have hlast : LengthLe maxHostLength (hostLabels (x.lower host)).getLast? := by
      intro label hlabel
      have hsub := List.singleton_sublist.2 (List.mem_of_getLast? hlabel)
      simpa using hlabels [label] hsub
    refine ⟨?_, ?_, hlast, hlast, ?_⟩
    · rintro s ⟨⟩
      exact h
    · rintro s ⟨⟩
      exact hnormalized
    · dsimp only
      split_ifs
      · rintro s ⟨⟩
        exact hlabels _ (List.take_sublist _ _)
      · rintro s ⟨⟩

theorem share_bounds {fl : Floats F} (hfl : fl.Lawful) {count total : ℕ} (h : count ≤ total) :
    fl.le (fl.ofNat 0) (share fl count total) ∧ fl.le (share fl count total) (fl.ofNat 1) := by
  unfold share
  split_ifs with hzero
  · exact ⟨hfl.zero_le 0, hfl.zero_le 1⟩
  · have hpos : 0 < total := Nat.pos_of_ne_zero hzero
    exact ⟨hfl.ratio_nonneg count total hpos, hfl.ratio_le_one count total hpos h⟩

theorem frequencies_append_singleton (text : Str) (ch : Char) :
    frequencies (text ++ [ch]) =
      (frequencies text).set ch (((frequencies text).get? ch).getD 0 + 1) := by
  unfold frequencies
  rw [List.foldl_append, List.foldl_cons, List.foldl_nil]

/-- A character that is counted occurs, and no oftener than there are characters. -/
theorem frequencies_bounds (text : Str) {ch : Char} {count : ℕ}
    (h : (frequencies text).get? ch = some count) : 0 < count ∧ count ≤ text.length := by
  induction text using List.reverseRecOn generalizing ch count with
  | nil => cases h
  | append_singleton text c ih =>
    rw [frequencies_append_singleton, Dict.get?_set] at h
    rw [List.length_append, List.length_singleton]
    split_ifs at h with hch
    · cases h
      rcases hcount : (frequencies text).get? c with _ | before
      · simp
      · have hbefore := ih hcount
        simp only [Option.getD_some]
        omega
    · have hbefore := ih h
      omega

theorem shannonEntropy_nonneg {fl : Floats F} (hfl : fl.Lawful) (text : Str) :
    fl.le (fl.ofNat 0) (shannonEntropy fl text) = true := by
  unfold shannonEntropy
  split_ifs with hempty
  · exact hfl.zero_le 0
  refine hfl.neg_nonneg _ (hfl.sum_nonpos _ fun q hq => ?_)
  obtain ⟨count, hcount, rfl⟩ := List.mem_map.1 hq
  obtain ⟨⟨ch, count⟩, hentry, rfl⟩ := List.mem_map.1 hcount
  obtain ⟨hpos, hle⟩ := frequencies_bounds text (Dict.mem_entries_iff.1 hentry)
  exact hfl.mul_nonpos _ _ (hfl.ratio_nonneg _ _ (hpos.trans_le hle))
    (hfl.log2_nonpos _ _ hpos hle)

/-- The features are within their limits if the entropy is. -/
theorem featureFields_withinLimits_iff {p : Platform F} (hfl : p.floats.Lawful)
    (c : ComponentFields) :
    (featureFields p c).WithinLimits p.floats ↔
      p.floats.le (shannonEntropy p.floats (reconstruct c)) (p.floats.ofNat 8) = true := by
  constructor
  · exact fun hlimits => hlimits.2.2.2
  · intro hentropy
    exact ⟨share_bounds hfl List.countP_le_length, share_bounds hfl List.countP_le_length,
      shannonEntropy_nonneg hfl _, hentropy⟩

theorem analyzeHost_isSome_iff {x : Unicode} (c : ParsedUrlComponents) :
    (analyzeHost x c).isSome ↔
      (c.host.getD [] ≠ [] → (x.lower (c.host.getD [])).length ≤ maxHostLength) := by
  have hhost : (c.host.getD []).length ≤ maxHostLength := by
    rcases hc : c.host with _ | host
    · exact Nat.zero_le _
    · exact c.limits.2.2.2.1 host hc
  rw [← hostFields_withinLimits_iff hhost]
  unfold analyzeHost
  split_ifs with hlimits
  · simpa using hlimits
  · simpa using hlimits

theorem extractFeatures_isSome_iff {p : Platform F} (hfl : p.floats.Lawful)
    (c : ParsedUrlComponents) :
    (extractFeatures p c).isSome ↔
      p.floats.le (shannonEntropy p.floats (reconstruct c.toComponentFields)) (p.floats.ofNat 8)
        = true := by
  rw [← featureFields_withinLimits_iff hfl]
  unfold extractFeatures
  split_ifs with hlimits
  · simpa using hlimits
  · simpa using hlimits

@[simp] theorem orNone_getD (s : Str) : (orNone s).getD [] = s := by
  unfold orNone
  split_ifs with hempty
  · exact hempty.symm
  · rfl

theorem parseComponents_eq_some_iff {x : Unicode} {rawUrl : Str} {c : ParsedUrlComponents} :
    parseComponents x rawUrl = some c ↔
      ∃ r q, urlsplit x rawUrl = some r ∧ port r.netloc = some q ∧
        c.toComponentFields = componentFields x r q := by
  unfold parseComponents
  constructor
  · intro h
    rcases hr : urlsplit x rawUrl with _ | r
    · rw [hr] at h
      cases h
    rw [hr] at h
    rcases hq : port r.netloc with _ | q
    · simp only [hq] at h
      cases h
    simp only [hq] at h
    split_ifs at h with hlimits
    cases h
    exact ⟨r, q, rfl, hq, rfl⟩
  · rintro ⟨r, q, hr, hq, hc⟩
    obtain ⟨fields, hlimits⟩ := c
    have hfields : fields = componentFields x r q := hc
    subst hfields
    simp only [hr, hq]
    exact dif_pos hlimits

/-- **A URL that can be taken in**: it is parsed, its port is a port, its components are
within their limits, also in lower case, and its entropy is at most eight bits. -/
def Measurable (p : Platform F) (rawUrl : Str) : Prop :=
  ∃ r q, urlsplit p.unicode rawUrl = some r ∧ port r.netloc = some q ∧
    (componentFields p.unicode r q).WithinLimits ∧
    (hostname p.unicode r.netloc ≠ [] →
      (p.unicode.lower (hostname p.unicode r.netloc)).length ≤ maxHostLength) ∧
    p.floats.le (shannonEntropy p.floats (reconstruct (componentFields p.unicode r q)))
      (p.floats.ofNat 8) = true

/-- **Measuring succeeds** exactly on those URLs. -/
theorem measurable_iff {p : Platform F} (hfl : p.floats.Lawful) {rawUrl : Str} :
    Measurable p rawUrl ↔ ∃ c, parseComponents p.unicode rawUrl = some c ∧
      (analyzeHost p.unicode c).isSome ∧ (extractFeatures p c).isSome := by
  have hhost : ∀ r q, (componentFields p.unicode r q).host.getD [] = hostname p.unicode r.netloc :=
    fun r q => orNone_getD _
  constructor
  · rintro ⟨r, q, hr, hq, hlimits, hlower, hentropy⟩
    refine ⟨⟨_, hlimits⟩, parseComponents_eq_some_iff.2 ⟨r, q, hr, hq, rfl⟩, ?_, ?_⟩
    · rw [analyzeHost_isSome_iff, hhost]
      exact hlower
    · exact (extractFeatures_isSome_iff hfl _).2 hentropy
  · rintro ⟨c, hc, hanalyze, hextract⟩
    obtain ⟨r, q, hr, hq, hfields⟩ := parseComponents_eq_some_iff.1 hc
    refine ⟨r, q, hr, hq, hfields ▸ c.limits, ?_, ?_⟩
    · rw [analyzeHost_isSome_iff, hfields, hhost] at hanalyze
      exact hanalyze
    · rw [← hfields]
      exact (extractFeatures_isSome_iff hfl c).1 hextract

end Url
end ScamOn.Analyzers
