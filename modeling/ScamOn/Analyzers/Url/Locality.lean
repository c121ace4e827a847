import ScamOn.Analyzers.Url.Engine

/-!
# What the engine says of one URL

`UrlIntelligenceEngine.analyze` runs the analyzers on each chosen URL by itself, but the
hyperlink analyzer on all of the e-mail, and puts down with every URL whether it observed
anything.

* `findingsOf` is what is said of a URL in an e-mail; `SameFindings` compares two of them.
* `findingsOf_eq`: a URL that no other one is equal to up to letter case is said what the
  analyzers say of it, if no other URL makes the e-mail fail.
* `sameFindings_iff`: two observations about other URLs make a difference exactly if there are
  some in one e-mail and none in the other.
* `findings_alike_iff`: when two e-mails say the same of a URL.
-/

namespace ScamOn.Analyzers
namespace Url

variable {F : Type} {p : Platform F} {email email' : EmailInput} {url : ExtractedUrl}

/-- What the engine says of a URL: nothing, if it raises. -/
def findingsOf (p : Platform F) (email : EmailInput) (url : ExtractedUrl) :
    Option (FinalUrlIntelligence p.floats) :=
  (analyze p email).bind fun results => results.find? fun r => r.extracted = url

/-- The same evidence, patterns, shortener, host, Unicode and normalisation results. -/
structure SameFindings (r r' : FinalUrlIntelligence p.floats) : Prop where
  evidence : r.evidence = r'.evidence
  suspiciousPatterns : r.suspiciousPatterns = r'.suspiciousPatterns
  shortener : r.shortener = r'.shortener
  host : r.host = r'.host
  unicodeAnalysis : r.unicodeAnalysis = r'.unicodeAnalysis
  normalized : r.normalized = r'.normalized

/-- The URL is there, and no other one is equal to it up to letter case. -/
structure Alone (p : Platform F) (email : EmailInput) (url : ExtractedUrl) : Prop where
  mem : url ∈ extractUrls p email
  eq : ∀ other ∈ extractUrls p email,
    p.unicode.lower other.rawValue = p.unicode.lower url.rawValue → other = url

/-- Every URL that stands for its group can be measured: the engine does not raise. -/
def AllMeasurable (p : Platform F) (email : EmailInput) : Prop :=
  ∀ url ∈ extractUrls p email, IsRepresentative p.unicode (extractUrls p email) url →
    Measurable p url.rawValue

/-- Some link of the e-mail is of a kind that the hyperlink analyzer puts down. -/
def HasObservations (p : Platform F) (email : EmailInput) : Prop :=
  ∃ url ∈ extractUrls p email, hyperlinkCategories p url ≠ []

/-! ## One URL -/

theorem Alone.isRepresentative (h : Alone p email url) :
    IsRepresentative p.unicode (extractUrls p email) url := by
  have hgroup : ∀ other ∈ group p.unicode (extractUrls p email) (p.unicode.lower url.rawValue),
      other = url := by
    intro other hother
    obtain ⟨hmem, hkey⟩ := List.mem_filter.1 hother
    exact h.eq other hmem (by simpa using hkey)
  have hself : url ∈ group p.unicode (extractUrls p email) (p.unicode.lower url.rawValue) :=
    List.mem_filter.2 ⟨h.mem, by simp⟩
  unfold IsRepresentative representative
  cases hanchor : (group p.unicode (extractUrls p email)
      (p.unicode.lower url.rawValue)).find? isAnchor with
  | some anchor =>
    rw [Option.some_or, hgroup anchor (List.mem_of_find?_eq_some hanchor)]
  | none =>
    rw [Option.none_or]
    obtain ⟨first, rest, hcons⟩ := List.exists_cons_of_ne_nil (List.ne_nil_of_mem hself)
    rw [hcons, List.head?_cons, hgroup first (by rw [hcons]; exact List.mem_cons_self ..)]

theorem analyze_isSome_iff (hfl : p.floats.Lawful) (email : EmailInput) :
    (∃ results, analyze p email = some results) ↔ AllMeasurable p email := by
  simp only [analyze_eq_some_iff]
  constructor
  · rintro ⟨results, h⟩ url hurl hrep
    obtain ⟨r, _, hr⟩ := exists_result (analyze_eq_some_iff.2 h) hurl hrep
    exact (analyzeUrl_isSome_iff hfl _).1 ⟨r, hr⟩
  · intro h
    have hall : ∀ url ∈ (chooseUrls p.unicode (extractUrls p email)).values,
        ∃ r, analyzeUrl p (analyzeHyperlinks p (extractUrls p email)) url = some r := by
      intro url hurl
      obtain ⟨hmem, hrep⟩ := mem_chosen_iff.1 hurl
      exact (analyzeUrl_isSome_iff hfl _).2 (h url hmem hrep)
    obtain ⟨results, hresults⟩ := Loop.exists_mapM_eq_some hall
    exact ⟨results, Loop.mapM_eq_some_iff.1 hresults⟩

/-- A result about a URL is what the analyzers say of it. -/
theorem analyzeUrl_of_mem_results {results : List (FinalUrlIntelligence p.floats)}
    (h : analyze p email = some results) {r : FinalUrlIntelligence p.floats} (hr : r ∈ results) :
    analyzeUrl p (analyzeHyperlinks p (extractUrls p email)) r.extracted = some r := by
  rw [analyze_eq_some_iff] at h
  have hmem : some r ∈ results.map some := List.mem_map_of_mem hr
  rw [← h] at hmem
  obtain ⟨url, _, hanalyze⟩ := List.mem_map.1 hmem
  rwa [analyzeUrl_extracted hanalyze]

/-- **What is said of a URL that is alone** is what the analyzers say of it. -/
theorem findingsOf_eq {results : List (FinalUrlIntelligence p.floats)} (hurl : Alone p email url)
    (h : analyze p email = some results) :
    findingsOf p email url = analyzeUrl p (analyzeHyperlinks p (extractUrls p email)) url := by
  obtain ⟨r, hr, hanalyze⟩ := exists_result h hurl.mem hurl.isRepresentative
  have hfind : (results.find? fun r => r.extracted = url).isSome := by
    rw [List.find?_isSome]
    exact ⟨r, hr, by simpa using analyzeUrl_extracted hanalyze⟩
  obtain ⟨r', hr'⟩ := Option.isSome_iff_exists.1 hfind
  have hextracted : r'.extracted = url := by simpa using List.find?_some hr'
  rw [findingsOf, h, Option.bind_some, hr', ← hextracted]
  exact (analyzeUrl_of_mem_results h (List.mem_of_find?_eq_some hr')).symm

/-! ## Observations about other URLs -/

theorem hasObservations_iff (p : Platform F) (email : EmailInput) :
    HasObservations p email ↔ analyzeHyperlinks p (extractUrls p email) ≠ [] := by
  unfold HasObservations analyzeHyperlinks
  simp [List.flatMap_eq_nil_iff]

theorem evidenceIf_inj {found found' : Bool} {source detail : String} :
    evidenceIf found source detail = evidenceIf found' source detail ↔ found = found' := by
  cases found <;> cases found' <;> simp [evidenceIf]

theorem buildEvidence_eq_iff {normalized : NormalizedUrl} {shortener : UrlShortenerAnalysis}
    {patterns : List SuspiciousPatternMatch} {context : Option HtmlContext}
    {redirect : RedirectResult} {reputation : ReputationResult}
    {unicodeAnalysis : UrlUnicodeAnalysis} {observations observations' : List HyperlinkObservation} :
    buildEvidence normalized shortener patterns context redirect reputation unicodeAnalysis
        observations =
      buildEvidence normalized shortener patterns context redirect reputation unicodeAnalysis
        observations' ↔ (observations ≠ [] ↔ observations' ≠ []) := by
  unfold buildEvidence
  simp only [List.append_left_inj, List.append_right_inj, evidenceIf_inj]
  cases observations <;> cases observations' <;> simp

/-- **Observations matter by their being there only.** -/
theorem sameFindings_iff {observations observations' : List HyperlinkObservation}
    {r r' : FinalUrlIntelligence p.floats} (h : analyzeUrl p observations url = some r)
    (h' : analyzeUrl p observations' url = some r') :
    SameFindings r r' ↔ (observations ≠ [] ↔ observations' ≠ []) := by
  unfold analyzeUrl at h h'
  simp only [Option.bind_eq_bind, Option.bind_eq_some_iff] at h h'
  obtain ⟨c, hc, host, hhost, features, hfeatures, hr⟩ := h
  obtain ⟨c', hc', host', hhost', features', hfeatures', hr'⟩ := h'
  rw [hc, Option.some.injEq] at hc'
  subst hc'
  rw [hhost, Option.some.injEq] at hhost'
  subst hhost'
  cases hr
  cases hr'
  constructor
  · intro hsame
    exact buildEvidence_eq_iff.1 hsame.evidence
  · intro hobs
    exact ⟨buildEvidence_eq_iff.2 hobs, rfl, rfl, rfl, rfl, rfl⟩

/-! ## Two e-mails -/

/-- Either some URL makes the e-mail fail, or the URL has its findings. -/
theorem findingsOf_cases (hfl : p.floats.Lawful) (h : Alone p email url) :
    (¬AllMeasurable p email ∧ findingsOf p email url = none) ∨
      (AllMeasurable p email ∧ ∃ r, findingsOf p email url = some r ∧
        analyzeUrl p (analyzeHyperlinks p (extractUrls p email)) url = some r) := by
  cases hanalyze : analyze p email with
  | none =>
    refine .inl ⟨fun hall => ?_, by rw [findingsOf, hanalyze, Option.bind_none]⟩
    obtain ⟨results, hresults⟩ := (analyze_isSome_iff hfl email).2 hall
    rw [hanalyze] at hresults
    cases hresults
  | some results =>
    have hall := (analyze_isSome_iff hfl email).1 ⟨results, hanalyze⟩
    obtain ⟨r, _, hr⟩ := exists_result hanalyze h.mem h.isRepresentative
    exact .inr ⟨hall, r, (findingsOf_eq h hanalyze).trans hr, hr⟩

/-- **When two e-mails say the same of a URL** that is alone in both: other URLs make both or
neither of them fail, and if they do not fail, links are observed in both or in neither. -/
theorem findings_alike_iff (hfl : p.floats.Lawful) (h : Alone p email url)
    (h' : Alone p email' url) :
    Option.Rel SameFindings (findingsOf p email url) (findingsOf p email' url) ↔
      (AllMeasurable p email ↔ AllMeasurable p email') ∧
        (AllMeasurable p email → (HasObservations p email ↔ HasObservations p email')) := by
  rcases findingsOf_cases hfl h with ⟨hall, hnone⟩ | ⟨hall, r, hsome, hr⟩
  · rcases findingsOf_cases hfl h' with ⟨hall', hnone'⟩ | ⟨hall', r', hsome', hr'⟩
    · rw [hnone, hnone']
      exact ⟨fun _ => ⟨iff_of_false hall hall', fun h => absurd h hall⟩, fun _ => .none⟩
    · rw [hnone, hsome']
      exact ⟨fun hrel => (by cases hrel), fun hboth => absurd (hboth.1.2 hall') hall⟩
  · rcases findingsOf_cases hfl h' with ⟨hall', hnone'⟩ | ⟨hall', r', hsome', hr'⟩
    · rw [hsome, hnone']
      exact ⟨fun hrel => (by cases hrel), fun hboth => absurd (hboth.1.1 hall) hall'⟩
    · rw [hsome, hsome', hasObservations_iff, hasObservations_iff]
      constructor
      · intro hrel
        cases hrel with
        | some hsame =>
          exact ⟨iff_of_true hall hall', fun _ => (sameFindings_iff hr hr').1 hsame⟩
      · intro hboth
        exact .some ((sameFindings_iff hr hr').2 (hboth.2 hall))

/-! ## A link to somewhere else -/

def linkBody : Str := "http://a/ <a href='mailto:b'>b</a>".toList

/-- A platform that reports the tags of one body. -/
def linkPlatform : Platform ℚ :=
  { asciiPlatform with
    feed := fun s =>
      if s = linkBody then
        some [.data "http://a/ ".toList,
          .startTag ['a'] [("href".toList, some "mailto:b".toList)], .data ['b'], .endTag ['a']]
      else some [.data s] }

def noLinkEmail : EmailInput := textEmail "http://a/".toList (by decide)

def linkEmail : EmailInput := textEmail linkBody (by decide)

def sharedUrl : ExtractedUrl := foundUrl "http://a/".toList 0 (by decide) (by decide)

/-- What the link is extracted as. -/
def mailtoUrl : ExtractedUrl where
  rawValue := "mailto:b".toList
  source := .htmlAnchor
  position := 0
  htmlContext := some "<a href=\"mailto:b\">".toList
  rawValue_ne_nil := by decide
  rawValue_length := by decide
  htmlContext_length := by decide

theorem alone_noLinkEmail : Alone linkPlatform noLinkEmail sharedUrl := by
  have hurls : extractUrls linkPlatform noLinkEmail = [sharedUrl] := by decide +kernel
  refine ⟨by rw [hurls]; exact List.mem_singleton_self _, fun other hother _ => ?_⟩
  rw [hurls] at hother
  exact List.mem_singleton.1 hother

theorem alone_linkEmail : Alone linkPlatform linkEmail sharedUrl := by
  have hurls : extractUrls linkPlatform linkEmail = [sharedUrl, mailtoUrl] := by decide +kernel
  refine ⟨by rw [hurls]; exact List.mem_cons_self .., fun other hother heq => ?_⟩
  rw [hurls] at hother
  rcases List.mem_cons.1 hother with rfl | hother
  · rfl
  · rw [List.mem_singleton.1 hother] at heq
    exact absurd heq (by decide +kernel)

/-- **The evidence of a URL changes with a link to somewhere else.** -/
theorem evidence_of_other_link :
    Alone linkPlatform noLinkEmail sharedUrl ∧ Alone linkPlatform linkEmail sharedUrl ∧
      ¬Option.Rel SameFindings (findingsOf linkPlatform noLinkEmail sharedUrl)
        (findingsOf linkPlatform linkEmail sharedUrl) := by
  have hwithout : (findingsOf linkPlatform noLinkEmail sharedUrl).map
      (fun r => r.evidence.map (·.source)) = some ["normalization"] := by decide +kernel
  have hwith : (findingsOf linkPlatform linkEmail sharedUrl).map
      (fun r => r.evidence.map (·.source)) = some ["normalization", "hyperlink"] := by
    decide +kernel
  refine ⟨alone_noLinkEmail, alone_linkEmail, fun hrel => ?_⟩
  generalize findingsOf linkPlatform noLinkEmail sharedUrl = a at hrel hwithout
  generalize findingsOf linkPlatform linkEmail sharedUrl = b at hrel hwith
  cases hrel with
  | none => cases hwith
  | some hsame =>
    rw [Option.map_some, Option.some.injEq] at hwith hwithout
    rw [hsame.evidence, hwith] at hwithout
    exact absurd hwithout (by decide)

theorem findings_alike_iff_link :
    linkPlatform.floats.Lawful ∧ Alone linkPlatform noLinkEmail sharedUrl ∧
      Alone linkPlatform linkEmail sharedUrl ∧
      (Option.Rel SameFindings (findingsOf linkPlatform noLinkEmail sharedUrl)
          (findingsOf linkPlatform linkEmail sharedUrl) ↔
        (AllMeasurable linkPlatform noLinkEmail ↔ AllMeasurable linkPlatform linkEmail) ∧
          (AllMeasurable linkPlatform noLinkEmail →
            (HasObservations linkPlatform noLinkEmail ↔ HasObservations linkPlatform linkEmail))) :=
  ⟨Floats.lawful_dyadic, alone_noLinkEmail, alone_linkEmail,
    findings_alike_iff Floats.lawful_dyadic alone_noLinkEmail alone_linkEmail⟩

end Url
end ScamOn.Analyzers
