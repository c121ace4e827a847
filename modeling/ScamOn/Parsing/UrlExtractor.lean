import ScamOn.Lib.UrlJoin

/-!
# Canonical URLs

`normalize_url_canonical` gives scheme and authority of a URL in lower case, without a
default port or a dot at the end.  It never raises: a URL that cannot be taken apart stays as
it is.

* `knownShorteners` are the domains of link shorteners, `isShortener` looks for them.
-/

namespace ScamOn.Parsing

open Chars UrlParse

/-- `KNOWN_SHORTENERS`. -/
def knownShorteners : List Str :=
  ["bit.ly", "tinyurl.com", "t.co", "goo.gl", "ow.ly", "is.gd", "buff.ly", "adf.ly"].map String.toList

/-- The domain is that of a shortener, or lies under it. -/
def isShortener (domain : Str) : Bool :=
  knownShorteners.any fun short => domain = short || ('.' :: short).isSuffixOf domain

/-- The authority without the default port of its scheme. -/
def dropDefaultPort (scheme netloc : Str) : Str :=
  if scheme = "http".toList && ":80".toList.isSuffixOf netloc then netloc.take (netloc.length - 3)
  else if scheme = "https".toList && ":443".toList.isSuffixOf netloc then
    netloc.take (netloc.length - 4)
  else netloc

/-- The authority without a dot at its end. -/
def dropTrailingDot (netloc : Str) : Str :=
  if netloc.getLast? = some '.' then netloc.dropLast else netloc

/-- `normalize_url_canonical`. -/
def normalizeUrlCanonical (x : Unicode) (url : Str) : Str :=
  let cleaned := strip url
  if cleaned = [] then []
  else
    match urlparse x [] cleaned with
    | none => cleaned
    | some parsed =>
      let scheme := if x.lower parsed.scheme = [] then "http".toList else x.lower parsed.scheme
      let netloc := dropTrailingDot (dropDefaultPort scheme (x.lower parsed.netloc))
      urlunparse ⟨scheme, netloc, parsed.path, parsed.params, parsed.query, parsed.fragment⟩

example : normalizeUrlCanonical asciiUnicode " HTTPS://Example.COM.:443/A;b?c#d".toList =
    "https://example.com/A;b?c#d".toList := by
  decide +kernel

end ScamOn.Parsing
