import ScamOn.Lib.HtmlEvents
import ScamOn.Lib.Pattern
import ScamOn.Lib.UrlParse

/-!
# Finding the URLs of an e-mail

The three extractors: one scans body and subject with a regular expression, one collects
what attributes and scripts of the HTML in the body hold, and one joins the two and drops
repetitions.

* `ExtractedUrl` carries the limits of its fields, so what is extracted is within them.
* How `HTMLParser` finds the tags is a parameter.
* `CompositeUrlExtractor.extract` is the list of URLs that the engine works on.
-/

namespace ScamOn.Analyzers
namespace Url

open Chars Pattern

/-! ## Data -/

/-- `MAX_RAW_URL_LENGTH`. -/
def maxRawUrlLength : ℕ := 8192

/-- `MAX_EXTRACTION_CONTEXT_LENGTH`. -/
def maxExtractionContextLength : ℕ := 512

/-- `UrlExtractionSource`. -/
inductive UrlExtractionSource where
  | bodyText
  | subject
  | headerSender
  | headerReplyTo
  | htmlAnchor
  | htmlImage
  | htmlForm
  | cssUrl
  | metaRefresh
  | inlineStyle
  | svgReference
  | jsString
  deriving DecidableEq

/-- `ExtractedUrl`. -/
structure ExtractedUrl where
  rawValue : Str
  source : UrlExtractionSource
  position : ℕ
  htmlContext : Option Str
  rawValue_ne_nil : rawValue ≠ []
  rawValue_length : rawValue.length ≤ maxRawUrlLength
  htmlContext_length : ∀ c ∈ htmlContext, c.length ≤ maxExtractionContextLength
  deriving DecidableEq

/-- `EmailInput`, as far as URLs are concerned. -/
structure EmailInput where
  subject : Str
  bodyText : Str
  subject_length : 1 ≤ subject.length ∧ subject.length ≤ 998
  bodyText_length : 1 ≤ bodyText.length ∧ bodyText.length ≤ 2000000

/-- The URL within its limits, if it is. -/
def extractedUrl? (raw : Str) (source : UrlExtractionSource) (position : ℕ)
    (context : Option Str) : Option ExtractedUrl :=
  if h : raw ≠ [] ∧ raw.length ≤ maxRawUrlLength then
    some ⟨raw, source, position, context.map (·.take maxExtractionContextLength), h.1, h.2, by
      intro c hc
      obtain ⟨d, -, rfl⟩ := Option.map_eq_some_iff.1 hc
      exact List.length_take_le _ _⟩
  else none

/-! ## Plain text -/

/-- `_URL_BODY_CHARS`. -/
def isUrlBodyChar (c : Char) : Bool :=
  ¬Text.isSpace c ∧ ¬"\"<>[]\x7b\x7d|\\^`".toList.contains c ∧ ¬c.toNat ≤ 0x1f ∧ c.toNat ≠ 0x7f

/-- `_SCHEME_PATTERN`. -/
def schemePattern : Pattern :=
  cat [anyOf [cat [litFold "http", opt (litFold "s")], litFold "ftp", litFold "mailto", litFold "data",
    litFold "javascript"], litFold "://"]

/-- `_URL_RE`. -/
def urlRe : Pattern := cat [alt schemePattern (litFold "www."), plus (set isUrlBodyChar)]

/-- `_TRAILING_PUNCTUATION`. -/
def isTrailingPunctuation (c : Char) : Bool := ".,;:!?\"')".toList.contains c

/-- `_strip_trailing`. -/
def stripTrailing (value : Str) : Str := (value.reverse.dropWhile isTrailingPunctuation).reverse

namespace RegexUrlExtractor

/-- The loop of `_scan` over the matches. -/
def scanLoop (max : ℕ) (source : UrlExtractionSource) :
    List ExtractedUrl → List (ℕ × Pattern.Match) → List ExtractedUrl
  | extracted, [] => extracted
  | extracted, (position, m) :: rest =>
    if max ≤ extracted.length then extracted
    else
      match extractedUrl? (stripTrailing m.text) source position none with
      | some url => scanLoop max source (extracted ++ [url]) rest
      | none => scanLoop max source extracted rest

/-- `_scan`. -/
def scan (max : ℕ) (text : Str) (source : UrlExtractionSource) : List ExtractedUrl :=
  scanLoop max source [] (urlRe.spans text)

/-- `extract`. -/
def extract (max : ℕ) (email : EmailInput) : List ExtractedUrl :=
  scan max email.bodyText .bodyText ++ scan max email.subject .subject

end RegexUrlExtractor

/-! ## HTML -/

/-- `_CSS_URL_RE`. -/
def cssUrlRe : Pattern :=
  cat [litFold "url(", star space, opt (oneOf ['\'', '"']),
    group "1" (plus (set fun c => ¬Text.isSpace c ∧ ¬['\'', '"', ')'].contains c)),
    opt (oneOf ['\'', '"']), star space, litFold ")"]

/-- `_JS_STRING_RE`. -/
def jsStringRe : Pattern :=
  cat [oneOf ['"', '\''],
    group "1" (cat [alt (cat [litFold "http", opt (litFold "s")]) (litFold "ftp"), litFold "://",
      plus (set fun c => ¬Text.isSpace c ∧ ¬['"', '\'', '<', '>'].contains c)]),
    oneOf ['"', '\'']]

/-- The expression that finds the target of a refresh. -/
def metaRefreshRe : Pattern :=
  cat [litFold "url", star space, litFold "=", star space, opt (oneOf ['\'', '"']),
    group "1" (plus (set fun c => ¬Text.isSpace c ∧ ¬['\'', '"', ';'].contains c))]

namespace UrlHTMLParser

/-- `_UrlHTMLParser`. -/
structure State where
  found : List ExtractedUrl
  inScript : Bool

/-- `_add`. -/
def add (raw : Str) (source : UrlExtractionSource) (context : Option Str)
    (found : List ExtractedUrl) : List ExtractedUrl :=
  match extractedUrl? (strip raw) source 0 (context.filter (· ≠ [])) with
  | some url => found ++ [url]
  | none => found

/-- `_tag_context`. -/
def tagContext (tag : Str) (attrs : List (Str × Option Str)) : Str :=
  '<' :: tag ++ attrs.flatMap (fun attr =>
    match attr.2 with
    | some value => ' ' :: attr.1 ++ '=' :: '"' :: value ++ ['"']
    | none => ' ' :: attr.1) ++ ['>']

/-- `_attr`. -/
def attr? (attrs : List (Str × Option Str)) (name : String) : Option Str :=
  (attrs.find? fun attr => attr.1 = name.toList).bind Prod.snd

/-- `_add` of an attribute, if it is there. -/
def addAttr (attrs : List (Str × Option Str)) (name : String) (source : UrlExtractionSource)
    (context : Str) (found : List ExtractedUrl) : List ExtractedUrl :=
  match attr? attrs name with
  | some value => add value source (some context) found
  | none => found

/-- `part.strip().split()[0]`, or nothing. -/
def firstWord (part : Str) : Str := (strip part).takeWhile fun c => ¬Text.isSpace c

/-- The URLs of `srcset`. -/
def addSrcset (attrs : List (Str × Option Str)) (context : Str) (found : List ExtractedUrl) :
    List ExtractedUrl :=
  match attr? attrs "srcset" with
  | some srcset =>
    (srcset.splitOn ',').foldl (fun found part =>
      if firstWord part = [] then found else add (firstWord part) .htmlImage (some context) found)
      found
  | none => found

/-- The URLs that a tag's own attributes hold. -/
def addTagUrls (x : Unicode) (tagLower : Str) (attrs : List (Str × Option Str)) (context : Str)
    (found : List ExtractedUrl) : List ExtractedUrl :=
  if tagLower = "a".toList then addAttr attrs "href" .htmlAnchor context found
  else if tagLower = "img".toList then
    addSrcset attrs context (addAttr attrs "src" .htmlImage context found)
  else if tagLower = "form".toList then addAttr attrs "action" .htmlForm context found
  else if tagLower = "meta".toList then
    if x.lower ((attr? attrs "http-equiv").getD []) = "refresh".toList then
      match (metaRefreshRe.search ((attr? attrs "content").getD [])).bind (·.group "1") with
      | some url => add url .metaRefresh (some context) found
      | none => found
    else found
  else if tagLower = "link".toList then addAttr attrs "href" .cssUrl context found
  else if tagLower = "image".toList ∨ tagLower = "svg:image".toList ∨ tagLower = "use".toList then
    addAttr attrs "xlink:href" .svgReference context
      (addAttr attrs "href" .svgReference context found)
  else found

/-- The URLs of an expression's group, wherever it matches. -/
def addMatches (r : Pattern) (text : Str) (source : UrlExtractionSource) (context : Option Str)
    (found : List ExtractedUrl) : List ExtractedUrl :=
  (r.finditer text).foldl (fun found m => add ((m.group "1").getD []) source context found) found

/-- `handle_starttag`. -/
def handleStarttag (x : Unicode) (s : State) (tag : Str) (attrs : List (Str × Option Str)) :
    State :=
  let tagLower := x.lower tag
  let context := tagContext tag attrs
  let found := addTagUrls x tagLower attrs context s.found
  { found := addMatches cssUrlRe ((attr? attrs "style").getD []) .inlineStyle (some context) found
    inScript := s.inScript ∨ tagLower = "script".toList }

/-- `handle_endtag`. -/
def handleEndtag (x : Unicode) (s : State) (tag : Str) : State :=
  if x.lower tag = "script".toList then { s with inScript := false } else s

/-- `handle_data`. -/
def handleData (s : State) (data : Str) : State :=
  if s.inScript then { s with found := addMatches jsStringRe data .jsString none s.found } else s

/-- The callback for an event. -/
def handle (x : Unicode) (s : State) : HtmlEvent → State
  | .startTag tag attrs => handleStarttag x s tag attrs
  | .endTag tag => handleEndtag x s tag
  | .data data => handleData s data

end UrlHTMLParser

/-- `HtmlUrlExtractor.extract`; the parser reports nothing when it raises. -/
def HtmlUrlExtractor.extract (x : Unicode) (feed : Str → Option (List HtmlEvent))
    (email : EmailInput) : List ExtractedUrl :=
  match feed email.bodyText with
  | some events => (events.foldl (UrlHTMLParser.handle x) ⟨[], false⟩).found
  | none => []

/-! ## Both -/

/-- `_MAX_URLS_PER_SOURCE`. -/
def maxUrlsPerSource : ℕ := 512

/-- The URLs without those that repeat value and source of an earlier one. -/
def dropRepeated (seen : List (Str × UrlExtractionSource)) : List ExtractedUrl → List ExtractedUrl
  | [] => []
  | url :: urls =>
    if (url.rawValue, url.source) ∈ seen then dropRepeated seen urls
    else url :: dropRepeated ((url.rawValue, url.source) :: seen) urls

/-- `CompositeUrlExtractor.extract`. -/
def CompositeUrlExtractor.extract (x : Unicode) (feed : Str → Option (List HtmlEvent))
    (email : EmailInput) : List ExtractedUrl :=
  dropRepeated [] (RegexUrlExtractor.extract maxUrlsPerSource email ++
    HtmlUrlExtractor.extract x feed email)

end Url
end ScamOn.Analyzers
