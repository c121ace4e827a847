import Mathlib.Data.Char
import Mathlib.Data.List.Dedup
import Mathlib.Data.List.Lex
import Mathlib.Data.List.Sort
import Mathlib.Order.Bounds.Basic
import ScamOn.ThreatIntel.Manager
import ScamOn.UrlIntelligence.RedirectExpander

/-!
# The URL pipeline

`analyze_urls` collects the links of an e-mail and of its QR codes, sorts them, asks the
threat feeds about the first of them, follows its redirects, and opens the page that it
leads to in the sandbox.

* `targetUrls` are the links, `primaryUrl?` the one that is looked at.
* `Outside` are the answers from outside: the threat feeds, the resolver, the servers.
* `analyzeUrls` is the pipeline and `runSandbox` the sandbox.
* `Keeps` says that what is reported of one e-mail is reported of another.
* `keeps_iff`: more links hide nothing, whatever the answers are, exactly if the first link
  is still the same.
-/

namespace ScamOn.UrlIntelligence

open Chars UrlParse Parsing

/-! ## Data -/

/-- `ExtractedURLDTO`, as far as the pipeline reads it. -/
structure ExtractedUrl where
  url : Str
  isMismatched : Bool
  isShortened : Bool
  deriving DecidableEq

/-- `ParsedEmail`, as far as the pipeline reads it. -/
structure ParsedEmail where
  parsedId : Uuid
  tenantId : Uuid
  messageId : String
  urls : List ExtractedUrl

/-- `ContentAnalysisResult`, as far as the pipeline reads it. -/
structure ContentAnalysis where
  qrExtractedUrls : List Str

/-- `MediaStatus`, as far as the sandbox sets it. -/
inductive MediaStatus
  | skipped | unavailable | failed | success
  deriving DecidableEq, Repr

/-- `URLSandboxResultDTO`; a screenshot is referred to by the URL it is of. -/
structure SandboxResult where
  sandboxStatus : MediaStatus
  finalPageTitle : Option String
  capturedFormActions : List String
  hasCredentialInputs : Bool
  scriptExecutionCount : ℕ
  screenshotOf : Option Str

/-- `URLAnalysisResult`. -/
structure UrlAnalysisResult where
  parsedId : Uuid
  tenantId : Uuid
  messageId : String
  extractedUrlsCount : ℕ
  hasMismatchedUrls : Bool
  hasShortenedUrls : Bool
  ssrfViolationDetected : Bool
  redirectChain : RedirectChain
  sandboxResult : SandboxResult
  threatFeedsFlagged : List String

/-- `ThreatIntelObservation`, as far as the pipeline reads it. -/
structure Observation where
  providerName : String
  malicious : Bool
  deriving DecidableEq

/-- What leaves an analysis that fails: the `KeyError` of a cache without room, or a URL that
cannot be taken apart. -/
inductive AnalysisError
  | cacheWithoutRoom
  | url (e : UrlError)

/-- `str.lower`, on texts of the other kind. -/
def lowerString (x : Unicode) (s : String) : String := String.ofList (x.lower s.toList)

/-- What an analysis meets outside: the manager with its providers and what each of them answers
about a target, the expander with the resolver, the servers, whether there is a browser, and the
answer of the validator to the sandbox. -/
structure Outside (x : Unicode) where
  manager : ThreatIntel.Manager (lowerString x) Observation
  attempts : String → String → ThreatIntel.Attempt Observation
  now : ℚ
  storedAt : ℚ
  expander : RedirectExpander
  net : Internet
  browserAvailable : Bool
  sandboxValidate : Str → Bool × Str

/-! ## The sandbox -/

/-- The parts of a URL that are suspicious. -/
def suspiciousKeywords : List String :=
  ["login", "verify", "account", "banking", "secure", "signin", "reset"]

/-- The parts of a URL that ask for credentials. -/
def credentialKeywords : List String := ["login", "bank", "account", "verify"]

section Pipeline

variable (x : Unicode)

/-- `should_trigger_sandbox`. -/
def shouldTriggerSandbox (url : Str) (isShortened isMismatched isRedirected : Bool) : Bool :=
  isShortened || isMismatched || isRedirected ||
    suspiciousKeywords.any fun kw => isPart kw (x.lower url)

/-- `run_sandbox`. -/
def runSandbox (out : Outside x) (url : Str) (isShortened isMismatched isRedirected : Bool) :
    SandboxResult :=
  if shouldTriggerSandbox x url isShortened isMismatched isRedirected = false then
    ⟨.skipped, none, [], false, 0, none⟩
  else if out.browserAvailable = false then ⟨.unavailable, none, [], false, 0, none⟩
  else if (out.sandboxValidate url).1 = false then
    ⟨.failed, some "SSRF_BLOCKED", [], false, 0, none⟩
  else
    let hasCredentials := credentialKeywords.any fun kw => isPart kw (x.lower url)
    { sandboxStatus := .success
      finalPageTitle := some (if hasCredentials then "Security Alert - Verify Account" else "Target Page")
      capturedFormActions := if hasCredentials then ["https://phishing-portal.com/submit"] else []
      hasCredentialInputs := hasCredentials
      scriptExecutionCount := 3
      screenshotOf := some url }

/-! ## The pipeline -/

/-- `sorted(list(set(target_urls)))`. -/
def targetUrls (parsed : ParsedEmail) (contentRes : Option ContentAnalysis) : List Str :=
  (parsed.urls.map (·.url) ++ (contentRes.map (·.qrExtractedUrls)).getD []).dedup.insertionSort (· ≤ ·)

/-- The URL that is looked up and followed. -/
def primaryUrl? (parsed : ParsedEmail) (contentRes : Option ContentAnalysis) : Option Str :=
  (targetUrls parsed contentRes).head?

/-- `lookup_indicator(primary_url, URL)`. -/
def lookupPrimary (out : Outside x) (primaryUrl : Str) : ThreatIntel.Answer Observation :=
  (out.manager.lookupIndicator {
    target := String.ofList primaryUrl
    targetType := .url
    now := out.now
    storedAt := out.storedAt
    attempts := out.attempts (Text.strip (String.ofList primaryUrl)) }).2

/-- What is found out about the primary URL: the feeds that flag it, and its chain. -/
def examine (out : Outside x) (primaryUrl : Str) :
    Except AnalysisError (List String × RedirectChain) :=
  match (lookupPrimary x out primaryUrl).observations with
  | none => .error .cacheWithoutRoom
  | some observations =>
    match (expandUrl x out.net out.expander primaryUrl).2 with
    | .error e => .error (.url e)
    | .ok chain => .ok ((observations.filter (·.malicious)).map (·.providerName), chain)

/-- `analyze_urls`. -/
def analyzeUrls (out : Outside x) (parsed : ParsedEmail) (contentRes : Option ContentAnalysis) :
    Except AnalysisError UrlAnalysisResult :=
  let urls := targetUrls parsed contentRes
  let hasMismatched := parsed.urls.any (·.isMismatched)
  let hasShortened := parsed.urls.any (·.isShortened)
  let result (ssrfViolation : Bool) (chain : RedirectChain) (sandbox : SandboxResult)
      (flaggedFeeds : List String) : UrlAnalysisResult := {
    parsedId := parsed.parsedId
    tenantId := parsed.tenantId
    messageId := parsed.messageId
    extractedUrlsCount := urls.length
    hasMismatchedUrls := hasMismatched
    hasShortenedUrls := hasShortened
    ssrfViolationDetected := ssrfViolation
    redirectChain := chain
    sandboxResult := sandbox
    threatFeedsFlagged := flaggedFeeds.dedup.insertionSort (· ≤ ·) }
  match primaryUrl? parsed contentRes with
  | none => .ok (result false ⟨[], [], 0, false, false, []⟩ ⟨.skipped, none, [], false, 0, none⟩ [])
  | some primaryUrl =>
    match examine x out primaryUrl with
    | .error e => .error e
    | .ok (flaggedFeeds, chain) =>
      .ok (result (chain.hops.any fun hop => !hop.isSsrfSafe) chain
        (runSandbox x out chain.finalDestinationUrl hasShortened hasMismatched
          (decide (1 < chain.totalHops))) flaggedFeeds)

end Pipeline

/-! ## What is reported -/

/-- The links of an e-mail and of its QR codes. -/
def links (parsed : ParsedEmail) (contentRes : Option ContentAnalysis) : Set Str :=
  {u | (∃ e ∈ parsed.urls, e.url = u) ∨ u ∈ (contentRes.map (·.qrExtractedUrls)).getD []}

/-- What an analysis can report. -/
inductive Finding
  | ssrfViolation
  | flagged (feed : String)
  | mismatchedLink
  | shortenedLink

/-- The analysis returns, and reports it. -/
def Reports : Except AnalysisError UrlAnalysisResult → Finding → Prop
  | .error _, _ => False
  | .ok a, .ssrfViolation => a.ssrfViolationDetected = true
  | .ok a, .flagged feed => feed ∈ a.threatFeedsFlagged
  | .ok a, .mismatchedLink => a.hasMismatchedUrls = true
  | .ok a, .shortenedLink => a.hasShortenedUrls = true

/-- What is reported of the first is reported of the second. -/
def Keeps (r r' : Except AnalysisError UrlAnalysisResult) : Prop :=
  ∀ finding, Reports r finding → Reports r' finding

instance (r : Except AnalysisError UrlAnalysisResult) (finding : Finding) :
    Decidable (Reports r finding) :=
  match r, finding with
  | .error _, _ => isFalse id
  | .ok a, .ssrfViolation => inferInstanceAs (Decidable (a.ssrfViolationDetected = true))
  | .ok a, .flagged feed => inferInstanceAs (Decidable (feed ∈ a.threatFeedsFlagged))
  | .ok a, .mismatchedLink => inferInstanceAs (Decidable (a.hasMismatchedUrls = true))
  | .ok a, .shortenedLink => inferInstanceAs (Decidable (a.hasShortenedUrls = true))

/-! ## What an analysis depends on -/

variable {x : Unicode} {P Q : ParsedEmail} {cP cQ : Option ContentAnalysis} {p q : Str}

@[simp] theorem mem_targetUrls {u : Str} : u ∈ targetUrls P cP ↔ u ∈ links P cP := by
  unfold targetUrls links
  rw [List.mem_insertionSort, List.mem_dedup, List.mem_append, List.mem_map]
  rfl

/-- The primary URL is the least of the links. -/
theorem primaryUrl?_eq_some_iff : primaryUrl? P cP = some p ↔ IsLeast (links P cP) p := by
  have hsorted : (targetUrls P cP).Pairwise (· ≤ ·) := List.pairwise_insertionSort _ _
  unfold primaryUrl?
  cases htargets : targetUrls P cP with
  | nil =>
    constructor
    · intro h
      cases h
    · rintro ⟨hp, -⟩
      rw [← mem_targetUrls, htargets] at hp
      cases hp
  | cons a rest =>
    have ha : IsLeast (links P cP) a := by
      refine ⟨mem_targetUrls.1 (htargets ▸ List.mem_cons_self ..), fun u hu => ?_⟩
      rw [← mem_targetUrls, htargets] at hu
      rw [htargets] at hsorted
      rcases List.mem_cons.1 hu with rfl | hu
      · exact le_refl u
      · exact List.rel_of_pairwise_cons hsorted hu
    constructor
    · intro h
      cases h
      exact ha
    · intro hp
      exact congrArg some (ha.unique hp)

/-- What is found out about a URL depends on the URL without the blanks around it. -/
theorem examine_congr (out : Outside x) (h : strip p = strip q) :
    examine x out p = examine x out q := by
  have hclean : Text.strip (String.ofList p) = Text.strip (String.ofList q) := by
    rw [Text.strip_ofList, Text.strip_ofList, h]
  have hlookup : lookupPrimary x out p = lookupPrimary x out q := by
    unfold lookupPrimary ThreatIntel.Manager.lookupIndicator ThreatIntel.Lookup.cacheKey
      ThreatIntel.Lookup.targetClean
    simp only [hclean]
  have hcanonical : normalizeUrlCanonical x p = normalizeUrlCanonical x q := by
    unfold normalizeUrlCanonical
    rw [h]
  have hexpand : expandUrl x out.net out.expander p = expandUrl x out.net out.expander q := by
    unfold expandUrl
    rw [hcanonical]
  unfold examine
  rw [hlookup, hexpand]

/-- More links keep what is reported, if the primary URL is found out to be the same. -/
theorem keeps_of_examine_eq (out : Outside x) (hurls : ∀ e ∈ P.urls, e ∈ Q.urls)
    (hp : primaryUrl? P cP = some p) (hq : primaryUrl? Q cQ = some q)
    (h : examine x out p = examine x out q) :
    Keeps (analyzeUrls x out P cP) (analyzeUrls x out Q cQ) := by
  have hany : ∀ f : ExtractedUrl → Bool, P.urls.any f = true → Q.urls.any f = true := by
    intro f hf
    obtain ⟨e, he, hfe⟩ := List.any_eq_true.1 hf
    exact List.any_eq_true.2 ⟨e, hurls e he, hfe⟩
  unfold analyzeUrls
  simp only [hp, hq, ← h]
  cases hexamine : examine x out p with
  | error e => exact fun finding hfinding => absurd hfinding id
  | ok found =>
    intro finding hfinding
    cases finding with
    | ssrfViolation => exact hfinding
    | flagged feed => exact hfinding
    | mismatchedLink => exact hany _ hfinding
    | shortenedLink => exact hany _ hfinding

/-- An e-mail without links has nothing to report. -/
theorem keeps_of_no_primaryUrl (out : Outside x) (hp : primaryUrl? P cP = none)
    (r : Except AnalysisError UrlAnalysisResult) : Keeps (analyzeUrls x out P cP) r := by
  have hurls : P.urls = [] := by
    have htargets : targetUrls P cP = [] := List.head?_eq_none_iff.1 hp
    rw [List.eq_nil_iff_forall_not_mem]
    intro e he
    have hmem : e.url ∈ targetUrls P cP := mem_targetUrls.2 (.inl ⟨e, he, rfl⟩)
    rw [htargets] at hmem
    cases hmem
  unfold analyzeUrls
  simp only [hp, hurls]
  intro finding hfinding
  cases finding with
  | flagged feed => exact absurd hfinding List.not_mem_nil
  | _ => cases hfinding

/-! ## A feed that knows one URL -/

section OneFeed

variable (x) in
/-- One feed that flags one URL, no cached answer, and a validator that refuses everything. -/
def oneFeed (bad : String) : Outside x where
  manager := .init (ThreatIntel.Registry.empty.register "PhishTank") 300 1000
  attempts target _ := ⟨0, 0, 0, 0, .ok (if target = bad then some ⟨"PhishTank", true⟩ else none)⟩
  now := 0
  storedAt := 0
  expander := ⟨fun _ _ => (false, "0.0.0.0".toList), 5⟩
  net := ⟨fun _ _ _ => [], fun _ _ => 0, fun _ _ _ => .error ""⟩
  browserAvailable := false
  sandboxValidate _ := (false, "0.0.0.0".toList)

/-- A provider that was never asked is asked. -/
theorem consult_unused (outcome : Option Observation) :
    ((⟨∅, ∅⟩ : ThreatIntel.Guards).consult "PhishTank" ⟨0, 0, 0, 0, .ok outcome⟩).2 =
      .answered outcome := by
  have hacquired : ((ThreatIntel.RateLimiter.init 0).acquire 0).2 = true := by decide +kernel
  have hallowed : ((ThreatIntel.CircuitBreaker.init 0).allowRequest 0).2 = true := by decide +kernel
  unfold ThreatIntel.Guards.consult ThreatIntel.Guards.breaker ThreatIntel.Guards.limiter
  simp only [Dict.get?_empty, Option.getD_none, hallowed, hacquired, Bool.true_eq_false, if_false]

theorem lookupPrimary_oneFeed (bad : String) (p : Str) :
    (lookupPrimary x (oneFeed x bad) p).observations =
      some (if Text.strip (String.ofList p) = bad then [⟨"PhishTank", true⟩] else []) := by
  -- the cache is empty, so the feed is asked, and there is room for its answer
  show some (ThreatIntel.observationsOf ((⟨∅, ∅⟩ : ThreatIntel.Guards).consultAll
    ((oneFeed x bad).attempts (Text.strip (String.ofList p))) ["PhishTank"]).2) = _
  unfold ThreatIntel.Guards.consultAll ThreatIntel.Guards.consultAll oneFeed
  simp only [consult_unused, ThreatIntel.observationsOf]
  split_ifs
  · rfl
  · rfl

theorem expandUrl_oneFeed (bad : String) (p : Str) :
    ∃ chain, (expandUrl x (oneFeed x bad).net (oneFeed x bad).expander p).2 = .ok chain :=
  ⟨_, rfl⟩

/-- The URL is flagged exactly if it is the one the feed knows. -/
theorem reports_oneFeed (bad : String) : Reports (analyzeUrls x (oneFeed x bad) P cP)
    (.flagged "PhishTank") ↔
      ∃ p, primaryUrl? P cP = some p ∧ Text.strip (String.ofList p) = bad := by
  unfold analyzeUrls
  cases hp : primaryUrl? P cP with
  | none => simp [Reports]
  | some p =>
    obtain ⟨chain, hchain⟩ := expandUrl_oneFeed (x := x) bad p
    have hexamine : examine x (oneFeed x bad) p =
        .ok (if Text.strip (String.ofList p) = bad then ["PhishTank"] else [], chain) := by
      unfold examine
      rw [lookupPrimary_oneFeed, hchain]
      split_ifs
      · rfl
      · rfl
    simp only [hexamine, Reports, List.mem_insertionSort, List.mem_dedup]
    split_ifs with hbad
    · simp [hbad]
    · simp [hbad]

end OneFeed

/-! ## More links -/

/-- **More links hide nothing**, whatever the feeds, the resolver, the servers and the sandbox
answer, exactly if the least link is the same, up to the blanks around it. -/
theorem keeps_iff (x : Unicode) (P Q : ParsedEmail) (cP cQ : Option ContentAnalysis)
    (hurls : ∀ e ∈ P.urls, e ∈ Q.urls) :
    (∀ out : Outside x, Keeps (analyzeUrls x out P cP) (analyzeUrls x out Q cQ)) ↔
      ∀ p, IsLeast (links P cP) p → ∃ q, IsLeast (links Q cQ) q ∧ strip q = strip p := by
  simp only [← primaryUrl?_eq_some_iff]
  constructor
  · intro h p hp
    have hflagged : Reports (analyzeUrls x (oneFeed x (Text.strip (String.ofList p))) P cP)
        (.flagged "PhishTank") := (reports_oneFeed _).2 ⟨p, hp, rfl⟩
    obtain ⟨q, hq, hstrip⟩ := (reports_oneFeed _).1 (h _ _ hflagged)
    rw [Text.strip_ofList, Text.strip_ofList] at hstrip
    exact ⟨q, hq, String.ofList_injective hstrip⟩
  · intro h out
    cases hp : primaryUrl? P cP with
    | none => exact keeps_of_no_primaryUrl out hp _
    | some p =>
      obtain ⟨q, hq, hstrip⟩ := h p hp
      exact keeps_of_examine_eq out hurls hp hq (examine_congr out hstrip.symm)

/-- An e-mail with these links. -/
def emailWith (urls : List String) : ParsedEmail :=
  ⟨.ofNat 1, .ofNat 2, "<m@site.test>", urls.map fun url => ⟨url.toList, false, false⟩⟩

/-- No feed that knows anything, and servers that answer every request. -/
def quietOutside : Outside asciiUnicode where
  manager := .init .empty 300 1000
  attempts _ _ := ⟨0, 0, 0, 0, .ok none⟩
  now := 0
  storedAt := 0
  expander := ⟨publicValidator.validateUrl asciiUnicode, 5⟩
  net := ⟨fun _ _ _ => ["93.184.216.34".toList], fun _ _ => 0, fun _ _ _ => .ok ⟨200, none, []⟩⟩
  browserAvailable := false
  sandboxValidate := publicValidator.validateUrl asciiUnicode 6

/-- A link that sorts after the others changes nothing. -/
theorem keeps_iff_later_link :
    Keeps (analyzeUrls asciiUnicode quietOutside (emailWith ["http://a.test/"]) none)
      (analyzeUrls asciiUnicode quietOutside (emailWith ["http://a.test/", "http://b.test/"])
        none) := by
  have hsub : ∀ e ∈ (emailWith ["http://a.test/"]).urls,
      e ∈ (emailWith ["http://a.test/", "http://b.test/"]).urls := by
    decide +kernel
  refine (keeps_iff asciiUnicode _ _ none none hsub).2 (fun p hp => ⟨p, ?_, rfl⟩) quietOutside
  have hfirst : primaryUrl? (emailWith ["http://a.test/"]) none = some "http://a.test/".toList := by
    decide +kernel
  have hsecond : primaryUrl? (emailWith ["http://a.test/", "http://b.test/"]) none =
      some "http://a.test/".toList := by
    decide +kernel
  rw [← primaryUrl?_eq_some_iff, hfirst] at hp
  rw [← primaryUrl?_eq_some_iff, hsecond, hp]

/-- A link to the metadata of the cloud is reported.  With one more link, that sorts before it,
it is not. -/
theorem link_hides_violation :
    (∀ e ∈ (emailWith ["http://169.254.169.254/latest"]).urls,
      e ∈ (emailWith ["http://169.254.169.254/latest", "http://0.site.test/"]).urls) ∧
    Reports (analyzeUrls asciiUnicode quietOutside
      (emailWith ["http://169.254.169.254/latest"]) none) .ssrfViolation ∧
    ¬Reports (analyzeUrls asciiUnicode quietOutside
      (emailWith ["http://169.254.169.254/latest", "http://0.site.test/"]) none) .ssrfViolation := by
  refine ⟨?_, ?_, ?_⟩
  · decide +kernel
  · decide +kernel
  · decide +kernel

end ScamOn.UrlIntelligence
