import ScamOn.Lib.UrlParse

/-!
# Joining URLs

`urllib.parse.urlparse`, `urlunparse` and `urljoin`: a URL with the parameters of its last
path segment, and what a reference means seen from a base URL.

* `urlparse` and `urljoin` answer `none` where Python raises `ValueError`; the default scheme
  plays no part in that (`isSome_urlparse_iff`).
* `isSome_urljoin`: two URLs that can be taken apart can be joined.
-/

namespace ScamOn.UrlParse

open Chars

/-! ## Parameters -/

/-- `urlparse(url)`. -/
structure ParseResult where
  scheme : Str
  netloc : Str
  path : Str
  params : Str
  query : Str
  fragment : Str
  deriving DecidableEq

/-- `uses_params`. -/
def usesParams : List Str :=
  ["", "ftp", "hdl", "prospero", "http", "imap", "https", "shttp", "rtsp", "rtsps", "rtspu", "sip",
    "sips", "mms", "sftp", "tel"].map String.toList

/-- `_splitparams`: the last segment of the path is cut at its first semicolon. -/
def splitParams (path : Str) : Str × Str :=
  match rpartition '/' path with
  | (some before, segment) =>
    (before ++ '/' :: (partition ';' segment).1, (partition ';' segment).2.getD [])
  | (none, segment) => ((partition ';' segment).1, (partition ';' segment).2.getD [])

/-- `urlparse(url, scheme)`; `none` is `ValueError`. -/
def urlparse (x : Unicode) (scheme url : Str) : Option ParseResult :=
  (urlsplit x url).map fun r =>
    let scheme := if r.scheme = [] then scheme else r.scheme
    let cut := if usesParams.contains scheme && r.path.contains ';' then splitParams r.path
      else (r.path, [])
    ⟨scheme, r.netloc, cut.1, cut.2, r.query, r.fragment⟩

/-- `urlunparse(components)`. -/
def urlunparse (r : ParseResult) : Str :=
  urlunsplit ⟨r.scheme, r.netloc, r.path ++ withDelim ';' r.params, r.query, r.fragment⟩

/-! ## References -/

/-- `uses_relative`. -/
def usesRelative : List Str :=
  ["", "ftp", "http", "gopher", "nntp", "imap", "wais", "file", "https", "shttp", "mms", "prospero",
    "rtsp", "rtsps", "rtspu", "sftp", "svn", "svn+ssh", "ws", "wss"].map String.toList

/-- The segments of a path, seen from the path of the base. -/
def joinSegments (base path : Str) : List Str :=
  if path.head? = some '/' then path.splitOn '/'
  else
    let baseParts := base.splitOn '/'
    let dir := if baseParts.getLast? = some [] then baseParts else baseParts.dropLast
    -- empty segments are taken out, except for the first and the last
    match dir ++ path.splitOn '/' with
    | [] => []
    | first :: rest => first :: (rest.dropLast.filter (· ≠ []) ++ rest.getLast?.toList)

/-- The path without its dot segments. -/
def resolveSegments (segments : List Str) : List Str :=
  let resolved := segments.foldl (fun resolved seg =>
    if seg = ['.', '.'] then resolved.dropLast
    else if seg = ['.'] then resolved
    else resolved ++ [seg]) []
  if segments.getLast? = some ['.'] || segments.getLast? = some ['.', '.'] then resolved ++ [[]]
  else resolved

/-- `urljoin(base, url)`; `none` is `ValueError`. -/
def urljoin (x : Unicode) (base url : Str) : Option Str :=
  if base = [] then some url
  else if url = [] then some base
  else
    match urlparse x [] base with
    | none => none
    | some b =>
      match urlparse x b.scheme url with
      | none => none
      | some r =>
        if r.scheme ≠ b.scheme || !usesRelative.contains r.scheme then some url
        else if usesNetloc.contains r.scheme && r.netloc ≠ [] then some (urlunparse r)
        else
          let netloc := if usesNetloc.contains r.scheme then b.netloc else r.netloc
          if r.path = [] && r.params = [] then
            let query := if r.query = [] then b.query else r.query
            some (urlunparse ⟨r.scheme, netloc, b.path, b.params, query, r.fragment⟩)
          else
            let joined := ['/'].intercalate (resolveSegments (joinSegments b.path r.path))
            let path := if joined = [] then ['/'] else joined
            some (urlunparse ⟨r.scheme, netloc, path, r.params, r.query, r.fragment⟩)

example : urljoin asciiUnicode "http://a/b/c/d;p?q".toList "../g;x".toList =
    some "http://a/b/g;x".toList := by
  decide +kernel

variable {x : Unicode}

/-- Whether a URL can be taken apart does not depend on the default scheme. -/
theorem isSome_urlparse_iff (scheme url : Str) :
    (urlparse x scheme url).isSome = (urlsplit x url).isSome := by
  rw [urlparse, Option.isSome_map]

theorem isSome_urljoin {base url : Str} (hbase : (urlsplit x base).isSome = true)
    (hurl : (urlsplit x url).isSome = true) : (urljoin x base url).isSome = true := by
  unfold urljoin
  by_cases hbase' : base = []
  · rw [if_pos hbase']
    rfl
  rw [if_neg hbase']
  by_cases hurl' : url = []
  · rw [if_pos hurl']
    rfl
  rw [if_neg hurl']
  rw [← isSome_urlparse_iff (x := x) [] base] at hbase
  obtain ⟨b, hb⟩ := Option.isSome_iff_exists.1 hbase
  rw [← isSome_urlparse_iff (x := x) b.scheme url] at hurl
  obtain ⟨r, hr⟩ := Option.isSome_iff_exists.1 hurl
  simp only [hb, hr]
  split_ifs <;> rfl

end ScamOn.UrlParse
