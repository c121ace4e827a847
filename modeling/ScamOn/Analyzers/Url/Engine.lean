import ScamOn.Analyzers.Url.Observations
import ScamOn.Lib.Loop

/-!
# The URL intelligence of an e-mail

`UrlIntelligenceEngine.analyze` extracts the URLs of an e-mail, keeps one for each text up
to letter case, and runs all analyzers on it.  Nothing guards the analyzers that can raise,
so one URL decides about the e-mail.

* `chooseUrls` is the choice, `representative` says what it comes to.
* `analyze_eq_some_iff`: there are results exactly if every chosen URL is `Measurable`.
* `analyze_lossless_iff`: when results are there for every URL that was extracted.
* `url_lost`: two e-mails for which they are not.
-/

namespace ScamOn.Analyzers
namespace Url

open Chars UrlParse

variable {F : Type}

/-! ## The source -/

/-- `HtmlContext`. -/
structure HtmlContext where
  tag : String
  attr : String
  snippet : Option Str

/-- `RedirectMechanism`. -/
inductive RedirectMechanism where
  | http
  | html
  | javascript
  deriving DecidableEq

/-- `RedirectResult`. -/
structure RedirectResult where
  mechanism : RedirectMechanism
  detected : Bool
  target : Option Str
  detail : String

/-- `ReputationResult`. -/
structure ReputationResult where
  providerName : String
  queried : Bool
  available : Bool
  detail : String

/-- `UrlEvidence`. -/
structure UrlEvidence where
  source : String
  detail : String
  observed : Bool
  deriving DecidableEq

/-- `FinalUrlIntelligence`. -/
structure FinalUrlIntelligence (fl : Floats F) where
  extracted : ExtractedUrl
  components : ParsedUrlComponents
  normalized : NormalizedUrl
  host : UrlHostAnalysis
  unicodeAnalysis : UrlUnicodeAnalysis
  structuralFeatures : UrlStructuralFeatures fl
  shortener : UrlShortenerAnalysis
  suspiciousPatterns : List SuspiciousPatternMatch
  htmlContext : Option HtmlContext
  redirectResult : RedirectResult
  reputationResult : ReputationResult
  evidence : List UrlEvidence

/-- `_html_context`. -/
def htmlContextOf (url : ExtractedUrl) : Option HtmlContext :=
  match url.htmlContext with
  | some snippet => some ⟨"a", "href", some snippet⟩
  | none => if url.source = .htmlAnchor then some ⟨"a", "href", none⟩ else none

/-- `_redirect_result`. -/
def redirectResult (url : ExtractedUrl) : RedirectResult :=
  if url.source = .htmlAnchor then ⟨.html, true, some url.rawValue, "html anchor href"⟩
  else ⟨.http, false, none, "no redirect signal"⟩

/-- `_reputation_result`, of the provider that is never asked. -/
def reputationResult : ReputationResult := ⟨"null", false, false, "provider stub"⟩

/-- An artifact, if it was observed. -/
def evidenceIf (found : Bool) (source detail : String) : List UrlEvidence :=
  if found then [⟨source, detail, true⟩] else []

/-- `_build_evidence`. -/
def buildEvidence (normalized : NormalizedUrl) (shortener : UrlShortenerAnalysis)
    (patterns : List SuspiciousPatternMatch) (context : Option HtmlContext)
    (redirect : RedirectResult) (reputation : ReputationResult)
    (unicodeAnalysis : UrlUnicodeAnalysis) (observations : List HyperlinkObservation) :
    List UrlEvidence :=
  evidenceIf normalized.isValid "normalization" "canonicalized" ++
    evidenceIf shortener.isShortened "shortener" "matched shortener" ++
    evidenceIf (¬patterns.isEmpty) "anomaly" "suspicious pattern detected" ++
    evidenceIf context.isSome "html" "html context captured" ++
    evidenceIf (¬observations.isEmpty) "hyperlink" "html hyperlink observations detected" ++
    evidenceIf redirect.detected "redirect" "redirect signal observed" ++
    evidenceIf reputation.queried "reputation" "provider queried" ++
    evidenceIf (unicodeAnalysis.containsNonAscii ∨ unicodeAnalysis.hasMixedScripts) "unicode"
      "unicode characteristics observed"

/-- One turn of the loop of `analyze` over the chosen URLs; `none` is an exception. -/
def analyzeUrl (p : Platform F) (observations : List HyperlinkObservation) (url : ExtractedUrl) :
    Option (FinalUrlIntelligence p.floats) := do
  let components ← parseComponents p.unicode url.rawValue
  let normalized := normalize p.unicode url.rawValue
  let host ← analyzeHost p.unicode components
  let unicodeAnalysis := analyzeUnicode p components.toComponentFields
  let structuralFeatures ← extractFeatures p components
  let shortener := detectShortener p.unicode components.toComponentFields
  let patterns :=
    patternIf shortener.isShortened .knownShortener "URL host matches a known shortener service" ++
      analyzeAnomalies p.unicode components.toComponentFields
  let context := htmlContextOf url
  let redirect := redirectResult url
  return ⟨url, components, normalized, host, unicodeAnalysis, structuralFeatures, shortener,
    patterns, context, redirect, reputationResult,
    buildEvidence normalized shortener patterns context redirect reputationResult unicodeAnalysis
      observations⟩

/-- One turn of the loop that fills `chosen_urls`. -/
def chooseUrl (x : Unicode) (chosen : Dict Str ExtractedUrl) (url : ExtractedUrl) :
    Dict Str ExtractedUrl :=
  match chosen.get? (x.lower url.rawValue) with
  | none => chosen.set (x.lower url.rawValue) url
  | some existing =>
    if url.source = .htmlAnchor ∧ existing.source ≠ .htmlAnchor then
      chosen.set (x.lower url.rawValue) url
    else chosen

/-- `chosen_urls`. -/
def chooseUrls (x : Unicode) (urls : List ExtractedUrl) : Dict Str ExtractedUrl :=
  urls.foldl (chooseUrl x) ∅

/-- The URLs that the engine extracts. -/
def extractUrls (p : Platform F) (email : EmailInput) : List ExtractedUrl :=
  CompositeUrlExtractor.extract p.unicode p.feed email

/-- `UrlIntelligenceEngine.analyze`; `none` is an exception. -/
def analyze (p : Platform F) (email : EmailInput) :
    Option (List (FinalUrlIntelligence p.floats)) :=
  let extracted := extractUrls p email
  if extracted = [] then some []
  else
    (chooseUrls p.unicode extracted).values.mapM
      (analyzeUrl p (analyzeHyperlinks p extracted))

/-! ## The choice -/

/-- The URLs with a given text in lower case. -/
def group (x : Unicode) (urls : List ExtractedUrl) (key : Str) : List ExtractedUrl :=
  urls.filter fun url => x.lower url.rawValue = key

def isAnchor (url : ExtractedUrl) : Bool := url.source = .htmlAnchor

/-- **The one that stands for its group**: the first anchor, or else the first. -/
def representative (x : Unicode) (urls : List ExtractedUrl) (key : Str) : Option ExtractedUrl :=
  ((group x urls key).find? isAnchor).or (group x urls key).head?

/-- What one turn of the loop makes of a group's representative. -/
def prefer (existing : Option ExtractedUrl) (url : ExtractedUrl) : ExtractedUrl :=
  match existing with
  | none => url
  | some e => if isAnchor url ∧ ¬isAnchor e then url else e

variable {x : Unicode} {urls : List ExtractedUrl} {url : ExtractedUrl} {key : Str}

theorem get?_chooseUrl (chosen : Dict Str ExtractedUrl) :
    (chooseUrl x chosen url).get? key =
      if x.lower url.rawValue = key then some (prefer (chosen.get? key) url)
      else chosen.get? key := by
  unfold chooseUrl
  rcases hexisting : chosen.get? (x.lower url.rawValue) with _ | e
  · rw [Dict.get?_set]
    by_cases hkey : x.lower url.rawValue = key
    · rw [if_pos hkey.symm, if_pos hkey, ← hkey, hexisting]
      rfl
    · rw [if_neg (Ne.symm hkey), if_neg hkey]
  · dsimp only
    split_ifs with hprefer hkey hkey
    · rw [Dict.get?_set, if_pos hkey.symm, ← hkey, hexisting, prefer,
        if_pos ⟨by simpa [isAnchor] using hprefer.1, by simpa [isAnchor] using hprefer.2⟩]
    · rw [Dict.get?_set_of_ne _ _ (Ne.symm hkey)]
    · rw [← hkey, hexisting, prefer, if_neg]
      simpa [isAnchor] using hprefer
    · rfl

theorem group_append (x : Unicode) (urls : List ExtractedUrl) (url : ExtractedUrl) (key : Str) :
    group x (urls ++ [url]) key =
      if x.lower url.rawValue = key then group x urls key ++ [url] else group x urls key := by
  unfold group
  rw [List.filter_append]
  by_cases hkey : x.lower url.rawValue = key
  · rw [if_pos hkey, List.filter_cons_of_pos (by simpa using hkey), List.filter_nil]
  · rw [if_neg hkey, List.filter_cons_of_neg (by simpa using hkey), List.filter_nil,
      List.append_nil]

theorem representative_append (x : Unicode) (urls : List ExtractedUrl) (url : ExtractedUrl)
    (key : Str) :
    representative x (urls ++ [url]) key =
      if x.lower url.rawValue = key then some (prefer (representative x urls key) url)
      else representative x urls key := by
  unfold representative
  rw [group_append]
  split_ifs with hkey
  · generalize group x urls key = members
    rw [List.find?_append]
    rcases hanchor : members.find? isAnchor with _ | anchor
    · rcases members with _ | ⟨first, rest⟩
      · by_cases hurl : isAnchor url = true
        · simp [prefer, hurl]
        · simp [prefer, hurl]
      · have hfirst : ¬isAnchor first = true := by
          exact List.find?_eq_none.1 hanchor first (List.mem_cons_self ..)
        by_cases hurl : isAnchor url = true
        · simp [prefer, hurl, hfirst]
        · simp [prefer, hurl]
    · have hkeep : isAnchor anchor = true := List.find?_some hanchor
      simp [prefer, hkeep]
  · rfl

/-- **What the loop chooses** for a group is its representative. -/
theorem get?_chooseUrls (x : Unicode) (urls : List ExtractedUrl) (key : Str) :
    (chooseUrls x urls).get? key = representative x urls key := by
  induction urls using List.reverseRecOn with
  | nil => rfl
  | append_singleton urls url ih =>
    unfold chooseUrls at ih ⊢
    rw [List.foldl_append, List.foldl_cons, List.foldl_nil, get?_chooseUrl, representative_append,
      ih]

/-- Only a member stands for a group. -/
theorem representative_spec (h : representative x urls key = some url) :
    url ∈ urls ∧ x.lower url.rawValue = key := by
  have hmem : url ∈ group x urls key := by
    unfold representative at h
    rcases hanchor : (group x urls key).find? isAnchor with _ | anchor
    · rw [hanchor, Option.none_or] at h
      exact List.mem_of_head? h
    · rw [hanchor, Option.some_or] at h
      cases h
      exact List.mem_of_find?_eq_some hanchor
  simpa [group] using hmem

theorem mem_values_chooseUrls :
    url ∈ (chooseUrls x urls).values ↔ representative x urls (x.lower url.rawValue) = some url := by
  unfold Dict.values
  rw [List.mem_map]
  constructor
  · rintro ⟨⟨key, url'⟩, hentry, rfl⟩
    have hget := Dict.mem_entries_iff.1 hentry
    rw [get?_chooseUrls] at hget
    rw [(representative_spec hget).2]
    exact hget
  · intro h
    refine ⟨(x.lower url.rawValue, url), Dict.mem_entries_iff.2 ?_, rfl⟩
    rw [get?_chooseUrls]
    exact h

/-! ## The results -/

variable {p : Platform F} {email : EmailInput}

theorem analyzeUrl_extracted {observations : List HyperlinkObservation}
    {r : FinalUrlIntelligence p.floats} (h : analyzeUrl p observations url = some r) :
    r.extracted = url := by
  unfold analyzeUrl at h
  simp only [Option.bind_eq_bind, Option.bind_eq_some_iff] at h
  obtain ⟨_, -, _, -, _, -, hr⟩ := h
  cases hr
  rfl

/-- The analyzers raise nothing exactly on the URLs that can be measured. -/
theorem analyzeUrl_isSome_iff (hfl : p.floats.Lawful) (observations : List HyperlinkObservation) :
    (∃ r, analyzeUrl p observations url = some r) ↔ Measurable p url.rawValue := by
  rw [measurable_iff hfl]
  unfold analyzeUrl
  simp only [Option.bind_eq_bind, Option.bind_eq_some_iff, Option.isSome_iff_exists]
  constructor
  · rintro ⟨r, c, hc, host, hhost, features, hfeatures, -⟩
    exact ⟨c, hc, ⟨host, hhost⟩, ⟨features, hfeatures⟩⟩
  · rintro ⟨c, hc, ⟨host, hhost⟩, ⟨features, hfeatures⟩⟩
    exact ⟨_, c, hc, host, hhost, features, hfeatures, rfl⟩

/-- **There are results** exactly if every chosen URL has one; they are these. -/
theorem analyze_eq_some_iff {results : List (FinalUrlIntelligence p.floats)} :
    analyze p email = some results ↔
      (chooseUrls p.unicode (extractUrls p email)).values.map
        (analyzeUrl p (analyzeHyperlinks p (extractUrls p email))) = results.map some := by
  rw [← Loop.mapM_eq_some_iff]
  unfold analyze
  dsimp only
  split_ifs with hempty
  · rw [hempty]
    rfl
  · rfl

/-! ## Nothing is lost -/

/-- Same scheme and host up to letter case, same path and same query. -/
def SameUrl (x : Unicode) (a b : Str) : Prop :=
  ∃ ra rb, urlsplit x a = some ra ∧ urlsplit x b = some rb ∧ ra.scheme = rb.scheme ∧
    x.lower (hostname x ra.netloc) = x.lower (hostname x rb.netloc) ∧ ra.path = rb.path ∧
    ra.query = rb.query

/-- **Nothing is lost**: there are results, and one for each URL that was extracted. -/
def Lossless (p : Platform F) (email : EmailInput) : Prop :=
  ∃ results, analyze p email = some results ∧
    ∀ url ∈ extractUrls p email, ∃ r ∈ results,
      SameUrl p.unicode url.rawValue r.extracted.rawValue

/-- The URL stands for its group. -/
def IsRepresentative (x : Unicode) (urls : List ExtractedUrl) (url : ExtractedUrl) : Prop :=
  representative x urls (x.lower url.rawValue) = some url

theorem mem_chosen_iff :
    url ∈ (chooseUrls x urls).values ↔ url ∈ urls ∧ IsRepresentative x urls url :=
  mem_values_chooseUrls.trans ⟨fun h => ⟨(representative_spec h).1, h⟩, fun h => h.2⟩

/-- The results are about the URLs that stand for a group. -/
theorem mem_results {results : List (FinalUrlIntelligence p.floats)}
    (h : analyze p email = some results) {r : FinalUrlIntelligence p.floats} (hr : r ∈ results) :
    r.extracted ∈ extractUrls p email ∧
      IsRepresentative p.unicode (extractUrls p email) r.extracted := by
  rw [analyze_eq_some_iff] at h
  have hmem : some r ∈ results.map some := List.mem_map_of_mem hr
  rw [← h] at hmem
  obtain ⟨url, hurl, hanalyze⟩ := List.mem_map.1 hmem
  rw [analyzeUrl_extracted hanalyze]
  exact mem_chosen_iff.1 hurl

/-- Each of these URLs has a result. -/
theorem exists_result {results : List (FinalUrlIntelligence p.floats)}
    (h : analyze p email = some results) (hurl : url ∈ extractUrls p email)
    (hrep : IsRepresentative p.unicode (extractUrls p email) url) :
    ∃ r ∈ results, analyzeUrl p (analyzeHyperlinks p (extractUrls p email)) url = some r := by
  rw [analyze_eq_some_iff] at h
  have hmem : analyzeUrl p (analyzeHyperlinks p (extractUrls p email)) url ∈ results.map some := by
    rw [← h]
    exact List.mem_map_of_mem (mem_chosen_iff.2 ⟨hurl, hrep⟩)
  obtain ⟨r, hr, hanalyze⟩ := List.mem_map.1 hmem
  exact ⟨r, hr, hanalyze.symm⟩

/-- **When nothing is lost.**  Every URL that stands for its group can be measured, and
every URL that another one stands for has the scheme, host, path and query of a URL that
stands for a group. -/
theorem analyze_lossless_iff (hfl : p.floats.Lawful) (email : EmailInput) :
    Lossless p email ↔
      (∀ url ∈ extractUrls p email, IsRepresentative p.unicode (extractUrls p email) url →
        Measurable p url.rawValue) ∧
      ∀ url ∈ extractUrls p email, ¬IsRepresentative p.unicode (extractUrls p email) url →
        ∃ url' ∈ extractUrls p email, IsRepresentative p.unicode (extractUrls p email) url' ∧
          SameUrl p.unicode url.rawValue url'.rawValue := by
  constructor
  · rintro ⟨results, hresults, hlossless⟩
    refine ⟨fun url hurl hrep => ?_, fun url hurl _ => ?_⟩
    · obtain ⟨r, -, hr⟩ := exists_result hresults hurl hrep
      exact (analyzeUrl_isSome_iff hfl _).1 ⟨r, hr⟩
    · obtain ⟨r, hr, hsame⟩ := hlossless url hurl
      obtain ⟨hextracted, hrep⟩ := mem_results hresults hr
      exact ⟨r.extracted, hextracted, hrep, hsame⟩
  · rintro ⟨hmeasurable, hkept⟩
    have hanalyze : ∀ url ∈ (chooseUrls p.unicode (extractUrls p email)).values,
        ∃ r, analyzeUrl p (analyzeHyperlinks p (extractUrls p email)) url = some r := by
      intro url hurl
      obtain ⟨hextracted, hrep⟩ := mem_chosen_iff.1 hurl
      exact (analyzeUrl_isSome_iff hfl _).2 (hmeasurable url hextracted hrep)
    obtain ⟨results, hresults⟩ := Loop.exists_mapM_eq_some hanalyze
    rw [Loop.mapM_eq_some_iff, ← analyze_eq_some_iff] at hresults
    refine ⟨results, hresults, fun url hurl => ?_⟩
    -- a URL that stands for its group has a result of its own
    have hstands : ∃ url' ∈ extractUrls p email,
        IsRepresentative p.unicode (extractUrls p email) url' ∧
          SameUrl p.unicode url.rawValue url'.rawValue := by
      by_cases hrep : IsRepresentative p.unicode (extractUrls p email) url
      · obtain ⟨parts, q, hparts, -⟩ := hmeasurable url hurl hrep
        exact ⟨url, hurl, hrep, parts, parts, hparts, hparts, rfl, rfl, rfl, rfl⟩
      · exact hkept url hurl hrep
    obtain ⟨url', hurl', hrep', hsame⟩ := hstands
    obtain ⟨r, hr, hanalyzed⟩ := exists_result hresults hurl' hrep'
    refine ⟨r, hr, ?_⟩
    rw [analyzeUrl_extracted hanalyzed]
    exact hsame

/-! ## Three e-mails -/

/-- A platform for ASCII texts without markup. -/
def asciiPlatform : Platform ℚ where
  unicode := asciiUnicode
  floats := Floats.dyadic
  isDigit := Char.isDigit
  isWord c := c.isAlphanum ∨ c = '_'
  isRtl _ := false
  nfkc s := s
  nfd s := s
  nfkd s := s
  subdomain host := ['.'].intercalate ((hostLabels host).take ((hostLabels host).length - 2))
  feed s := some [.data s]

/-- An e-mail with the subject `s` and a given body. -/
def textEmail (body : Str) (h : 1 ≤ body.length ∧ body.length ≤ 2000000) : EmailInput :=
  ⟨"s".toList, body, by decide, h⟩

theorem length_no_context : ∀ c ∈ (none : Option Str), c.length ≤ maxExtractionContextLength := by
  intro c hc
  cases hc

/-- The URL that the scan finds at a position of a body. -/
def foundUrl (raw : Str) (position : ℕ) (hne : raw ≠ []) (hlength : raw.length ≤ maxRawUrlLength) :
    ExtractedUrl :=
  ⟨raw, .bodyText, position, none, hne, hlength, length_no_context⟩

def plainEmail : EmailInput := textEmail "ftp://ab".toList (by decide)

def plainParts : SplitResult := ⟨"ftp".toList, "ab".toList, [], [], []⟩

theorem analyze_lossless_plainEmail : Lossless asciiPlatform plainEmail := by
  have hurls : extractUrls asciiPlatform plainEmail =
      [foundUrl "ftp://ab".toList 0 (by decide) (by decide)] := by
    decide +kernel
  have hrep : IsRepresentative asciiUnicode [foundUrl "ftp://ab".toList 0 (by decide) (by decide)]
      (foundUrl "ftp://ab".toList 0 (by decide) (by decide)) := by
    unfold IsRepresentative
    decide +kernel
  refine (analyze_lossless_iff Floats.lawful_dyadic plainEmail).2 ⟨?_, ?_⟩
  · rw [hurls]
    rintro url hurl -
    rw [List.mem_singleton.1 hurl]
    refine ⟨plainParts, none, ?_, ?_, ?_, ?_, ?_⟩ <;> decide +kernel
  · rw [hurls]
    intro url hurl hnot
    rw [List.mem_singleton.1 hurl] at hnot
    exact absurd hrep hnot

/-- A port that is none. -/
def badPortEmail : EmailInput := textEmail "http://a:99999/".toList (by decide)

/-- Two URLs that differ in the case of their paths. -/
def twoCasesEmail : EmailInput := textEmail "http://h/A http://h/a".toList (by decide)

def upperUrl : ExtractedUrl := foundUrl "http://h/A".toList 0 (by decide) (by decide)

def lowerUrl : ExtractedUrl := foundUrl "http://h/a".toList 11 (by decide) (by decide)

/-- **Two ways of losing a URL**: a port out of range raises, and of two URLs that differ in
the case of their paths one has no result. -/
theorem url_lost :
    Floats.dyadic.Lawful ∧ (analyze asciiPlatform badPortEmail).isNone = true ∧
      ¬Lossless asciiPlatform badPortEmail ∧ ¬Lossless asciiPlatform twoCasesEmail := by
  have hnone : (analyze asciiPlatform badPortEmail).isNone = true := by decide +kernel
  refine ⟨Floats.lawful_dyadic, hnone, ?_, ?_⟩
  · rintro ⟨results, hresults, -⟩
    rw [hresults] at hnone
    cases hnone
  · rintro ⟨results, hresults, hlossless⟩
    have hurls : extractUrls asciiPlatform twoCasesEmail = [upperUrl, lowerUrl] := by
      decide +kernel
    obtain ⟨r, hr, ra, rb, hra, hrb, -, -, hpath, -⟩ :=
      hlossless lowerUrl (by rw [hurls]; simp)
    obtain ⟨hmem, hrep⟩ := mem_results hresults hr
    rw [hurls] at hmem hrep
    simp only [List.mem_cons, List.not_mem_nil, or_false] at hmem
    rcases hmem with heq | heq
    · have hlower : (urlsplit asciiUnicode lowerUrl.rawValue).map SplitResult.path =
          some "/a".toList := by
        decide +kernel
      have hupper : (urlsplit asciiUnicode upperUrl.rawValue).map SplitResult.path =
          some "/A".toList := by
        decide +kernel
      rw [heq] at hrb
      rw [show asciiPlatform.unicode = asciiUnicode from rfl] at hra hrb
      rw [hra, Option.map_some, Option.some.injEq] at hlower
      rw [hrb, Option.map_some, Option.some.injEq] at hupper
      rw [hlower, hupper] at hpath
      exact absurd hpath (by decide)
    · rw [heq] at hrep
      exact absurd hrep (by unfold IsRepresentative; decide +kernel)

end Url
end ScamOn.Analyzers
