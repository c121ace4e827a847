import ScamOn.Analyzers.Url.Components

/-!
# What is observed of a URL

The analyzers that only look: at the characters of a URL, at its host as a shortening
service, at its structure, and at the tag it was found in.  None of them can fail: what
they record is a flag, one of a few fixed texts, or text that is within its limits already.
-/

namespace ScamOn.Analyzers
namespace Url

open Chars UrlParse Pattern

variable {F : Type*}

/-! ## Characters -/

/-- `UnicodeScriptCategory`. -/
inductive UnicodeScriptCategory where
  | latin
  | cyrillic
  | greek
  | arabic
  | cjk
  | devanagari
  | other
  deriving DecidableEq

/-- `_SCRIPT_RANGES`. -/
def scriptRanges : List (ℕ × ℕ × UnicodeScriptCategory) :=
  [(0x0041, 0x007A, .latin), (0x00C0, 0x024F, .latin), (0x0250, 0x02AF, .latin),
    (0x1E00, 0x1EFF, .latin), (0x0400, 0x04FF, .cyrillic), (0x0500, 0x052F, .cyrillic),
    (0x0370, 0x03FF, .greek), (0x1F00, 0x1FFF, .greek), (0x0600, 0x06FF, .arabic),
    (0x0750, 0x077F, .arabic), (0x4E00, 0x9FFF, .cjk), (0x3400, 0x4DBF, .cjk),
    (0x20000, 0x2A6DF, .cjk), (0x0900, 0x097F, .devanagari)]

/-- `_script_of`. -/
def scriptOf (c : Char) : Option UnicodeScriptCategory :=
  if isAscii c then if isAsciiAlpha c then some .latin else none
  else
    match scriptRanges.find? fun range => range.1 ≤ c.toNat ∧ c.toNat ≤ range.2.1 with
    | some range => some range.2.2
    | none => some .other

/-- `_detect_scripts`. -/
def detectScripts (text : Str) : List UnicodeScriptCategory :=
  text.foldl (fun seen c =>
    match scriptOf c with
    | some script => if script ∈ seen then seen else seen ++ [script]
    | none => seen) []

/-- `_CONFUSABLES`. -/
def confusables : List (ℕ × Char) :=
  [(0x0430, 'a'), (0x0435, 'e'), (0x043e, 'o'), (0x0440, 'r'), (0x0441, 'c'), (0x0445, 'x'),
    (0x0443, 'y'), (0x0456, 'i'), (0x0458, 'j'), (0x0455, 's'), (0x0501, 'd'), (0x0503, 'g'),
    (0x03bf, 'o'), (0x03b1, 'a'), (0x03b5, 'e'), (0x03c1, 'p'), (0x03bd, 'v'), (0x03c5, 'u'),
    (0x00e0, 'a'), (0x00e1, 'a'), (0x00e2, 'a'), (0x00e4, 'a'), (0x00e5, 'a'), (0x00e8, 'e'),
    (0x00e9, 'e'), (0x00ea, 'e'), (0x00eb, 'e'), (0x00ec, 'i'), (0x00ed, 'i'), (0x00ee, 'i'),
    (0x00ef, 'i'), (0x00f2, 'o'), (0x00f3, 'o'), (0x00f4, 'o'), (0x00f6, 'o'), (0x00f9, 'u'),
    (0x00fa, 'u'), (0x00fb, 'u'), (0x00fc, 'u'), (0x00fd, 'y'), (0x00ff, 'y'), (0x00f1, 'n'),
    (0x00e7, 'c')] ++
  -- the full-width letters
  (List.range 26).map fun i => (0xff41 + i, Char.ofNat (97 + i))

/-- `_find_confusables`. -/
def findConfusables (text : Str) : List (Char × Char) :=
  text.foldl (fun seen c =>
    match confusables.lookup c.toNat with
    | some letter => if (c, letter) ∈ seen then seen else seen ++ [(c, letter)]
    | none => seen) []

/-- `_has_punycode`. -/
def hasPunycode (x : Unicode) (host : Str) : Bool :=
  (host.splitOn '.').any fun label => "xn--".toList.isPrefixOf (x.lower label)

/-- `_PCT_RE`. -/
def pctRe : Pattern := plus percentRe

/-- `_has_percent_encoded_unicode`. -/
def hasPercentEncodedUnicode (text : Str) : Bool :=
  (pctRe.finditer text).any fun m =>
    let bytes := Percent.unquoteToBytes m.text
    match Percent.decodeStrictUpto bytes.length bytes with
    | some decoded => decoded.any fun c => ¬isAscii c
    | none => false

/-- `_normalization_form`. -/
def normalizationForm (p : Platform F) (text : Str) : String :=
  if allAscii text then "NONE"
  else if p.unicode.nfc text = text then "NFC"
  else if p.nfkc text = text then "NFKC"
  else if p.nfd text = text then "NFD"
  else if p.nfkd text = text then "NFKD"
  else "NONE"

/-- `UrlUnicodeAnalysis`. -/
structure UrlUnicodeAnalysis where
  containsNonAscii : Bool
  containsPunycode : Bool
  containsPercentEncodedUnicode : Bool
  detectedScripts : List UnicodeScriptCategory
  hasMixedScripts : Bool
  hasRtlCharacters : Bool
  normalizationForm : String
  confusableCharacters : List (Char × Char)

/-- `DeterministicUrlUnicodeAnalyzer.analyze`. -/
def analyzeUnicode (p : Platform F) (c : ComponentFields) : UrlUnicodeAnalysis :=
  let host := c.host.getD []
  let path := c.path.getD []
  let query := c.query.getD []
  let allText := host ++ path ++ query ++ c.scheme.getD []
  { containsNonAscii := ¬allAscii allText
    containsPunycode := host ≠ [] ∧ hasPunycode p.unicode host
    containsPercentEncodedUnicode := hasPercentEncodedUnicode (path ++ query)
    detectedScripts := detectScripts host
    hasMixedScripts := 2 ≤ (detectScripts host).length
    hasRtlCharacters := allText.any p.isRtl
    normalizationForm := normalizationForm p host
    confusableCharacters := findConfusables host }

/-! ## Shortening services -/

/-- `_default_registry`. -/
def shortenerServices : List (String × List String) :=
  [("bit.ly", ["bitly.com"]), ("tinyurl.com", ["tinyurl.com"]), ("t.co", ["twitter.com", "x.com"]),
    ("ow.ly", []), ("goo.gl", []), ("is.gd", []), ("tiny.cc", [])]

/-- `_normalize_host`. -/
def normalizeHost (x : Unicode) (host : Str) : Str :=
  let value := x.lower (strip host)
  if "www.".toList.isPrefixOf value then value.drop 4 else value

/-- `ShortenerRegistry.match`. -/
def matchShortener (x : Unicode) (host : Str) : Option String :=
  if host = [] ∨ normalizeHost x host = [] then none
  else
    (shortenerServices.find? fun service =>
      (service.1 :: service.2).any fun name =>
        normalizeHost x host = normalizeHost x name.toList).map Prod.fst

/-- `UrlShortenerAnalysis`. -/
structure UrlShortenerAnalysis where
  isShortened : Bool
  matchedShortenerHost : Option String

/-- `DeterministicUrlShortenerDetector.detect`. -/
def detectShortener (x : Unicode) (c : ComponentFields) : UrlShortenerAnalysis :=
  let matched := matchShortener x (c.host.getD [])
  ⟨matched.isSome, matched⟩

/-! ## Structure -/

/-- `SuspiciousPatternCategory`, as far as the analyzers use it. -/
inductive SuspiciousPatternCategory where
  | ipAddressHost
  | credentialInUrl
  | excessiveSubdomains
  | longPath
  | encodedPayload
  | nonStandardPort
  | knownShortener
  deriving DecidableEq

/-- `SuspiciousPatternMatch`. -/
structure SuspiciousPatternMatch where
  category : SuspiciousPatternCategory
  detail : String
  deriving DecidableEq

/-- The keywords that the engine gives to the anomaly analyzer. -/
def suspiciousKeywords : List String := ["login", "verify", "secure", "account"]

/-- `_has_unusual_port`. -/
def hasUnusualPort (x : Unicode) (c : ComponentFields) : Bool :=
  c.port.isSome ∧ c.port ≠ defaultPort (x.lower (c.scheme.getD []))

/-- `_has_repeated_separators`. -/
def hasRepeatedSeparators (text : Str) : Bool :=
  "--".toList <:+: text ∨ "//".toList <:+: text ∨ ['\\', '\\'] <:+: text

/-- A match, if it is one. -/
def patternIf (found : Bool) (category : SuspiciousPatternCategory) (detail : String) :
    List SuspiciousPatternMatch :=
  if found then [⟨category, detail⟩] else []

/-- `StructuralUrlAnomalyAnalyzer.analyze`. -/
def analyzeAnomalies (x : Unicode) (c : ComponentFields) : List SuspiciousPatternMatch :=
  let host := c.host.getD []
  let path := c.path.getD []
  let query := c.query.getD []
  let fullUrl := x.lower (c.scheme.getD [] ++ host ++ path ++ query)
  if c.isParseable then
    patternIf (IpAddress.isIPv4 host ∨ IpAddress.isIPv6 host) .ipAddressHost
        "host uses an IP address instead of a domain name" ++
      patternIf (c.username.getD [] ≠ [] ∨ c.password.getD [] ≠ []) .credentialInUrl
        "URL embeds credentials in the authority component" ++
      patternIf (63 < host.length) .excessiveSubdomains "hostname is unusually long" ++
      patternIf (3 < subdomainCount c.subdomain) .excessiveSubdomains
        "hostname contains excessive subdomains" ++
      patternIf (120 < fullUrl.length) .longPath "URL length exceeds the common threshold" ++
      patternIf (suspiciousKeywords.any fun keyword => keyword.toList <:+: x.lower fullUrl)
        .encodedPayload "URL contains suspicious keywords" ++
      patternIf (percentRe.search (path ++ query)).isSome .encodedPayload
        "URL contains encoded characters" ++
      patternIf (hasUnusualPort x c) .nonStandardPort "URL uses a non-standard port" ++
      patternIf (hasRepeatedSeparators (path ++ query)) .encodedPayload
        "URL contains repeated separators"
  else []

/-! ## Hyperlinks -/

/-- `HyperlinkObservationCategory`, as far as the analyzer uses it. -/
inductive HyperlinkObservationCategory where
  | hiddenUrl
  | javascriptLink
  | mailtoLink
  | telephoneLink
  | emptyHref
  | imageHyperlink
  | buttonLink
  | metaRefresh
  deriving DecidableEq

/-- `HyperlinkObservation`; the limits are those of the URL it is about. -/
structure HyperlinkObservation where
  category : HyperlinkObservationCategory
  url : ExtractedUrl

/-- `_HIDDEN_STYLE_RE`. -/
def hiddenStyleRe : Pattern :=
  alt (cat [litFold "display", star space, litFold ":", star space, litFold "none"])
    (cat [litFold "visibility", star space, litFold ":", star space, litFold "hidden"])

/-- `_ZERO_DIM_RE`. -/
def zeroDimRe : Pattern :=
  cat [alt (litFold "width") (litFold "height"), star space, litFold "=", star space,
    opt (oneOf ['"', '\'']), litFold "0", opt (oneOf ['"', '\''])]

/-- `_ROLE_BUTTON_RE`. -/
def roleButtonRe : Pattern :=
  cat [litFold "role", star space, litFold "=", star space, oneOf ['"', '\''], litFold "button",
    oneOf ['"', '\'']]

/-- `_IMG_IN_CONTEXT_RE`. -/
def imgInContextRe (p : Platform F) : Pattern :=
  cat [litFold "<img", look fun _ rest => ¬(rest.head?.any p.isWord)]

/-- The expression of `_style_from_context`. -/
def styleRe : Pattern :=
  cat [litFold "style", star space, litFold "=", star space, oneOf ['"', '\''],
    group "1" (star (set fun c => ¬['"', '\''].contains c)), oneOf ['"', '\'']]

/-- `_is_hidden`. -/
def isHidden (ctx : Str) : Bool :=
  let style := ((styleRe.search ctx).bind (·.group "1")).getD []
  (hiddenStyleRe.search style).isSome ∨ (zeroDimRe.search ctx).isSome

/-- The category that the scheme of a link decides. -/
def schemeCategory (hrefLower : Str) : Option HyperlinkObservationCategory :=
  if "javascript:".toList.isPrefixOf hrefLower then some .javascriptLink
  else if "mailto:".toList.isPrefixOf hrefLower then some .mailtoLink
  else if "tel:".toList.isPrefixOf hrefLower then some .telephoneLink
  else none

/-- The categories of a link. -/
def hyperlinkCategories (p : Platform F) (url : ExtractedUrl) :
    List HyperlinkObservationCategory :=
  let ctx := url.htmlContext.getD []
  if url.source = .metaRefresh then [.metaRefresh]
  else if url.source ≠ .htmlAnchor then []
  else if url.rawValue.all Text.isSpace then [.emptyHref]
  else
    match schemeCategory ((p.unicode.lower url.rawValue).dropWhile Text.isSpace) with
    | some category => [category]
    | none =>
      (if isHidden ctx then [.hiddenUrl] else []) ++
        (if ((imgInContextRe p).search ctx).isSome then [.imageHyperlink] else []) ++
        (if (roleButtonRe.search ctx).isSome then [.buttonLink] else [])

/-- `DeterministicHyperlinkAnalyzer.analyze`. -/
def analyzeHyperlinks (p : Platform F) (urls : List ExtractedUrl) : List HyperlinkObservation :=
  urls.flatMap fun url => (hyperlinkCategories p url).map fun category => ⟨category, url⟩

end Url
end ScamOn.Analyzers
