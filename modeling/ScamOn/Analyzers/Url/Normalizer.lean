import ScamOn.Lib.Percent
import ScamOn.Lib.UrlParse

/-!
# The canonical form of a URL

`CanonicalUrlNormalizer.normalize` takes a URL apart, rewrites scheme, authority, path and
query, and puts the parts together again.  It never raises: what it cannot read comes
back as invalid.

* `normalize` follows the source; `Unicode` is the part of the Unicode database it uses.
* `canonical` is what it makes of the parts, `normalize_eq_some_iff` says that this is all.
* `resolveDotSegments_resolveDotSegments`: dot segments are resolved once and for all.
* `canonicalPath_canonicalPath`: the rewriting of the path is idempotent.
-/

namespace ScamOn.Analyzers
namespace Url

open Chars UrlParse Percent

/-! ## The source -/

/-- `MAX_NORMALIZED_URL_LENGTH`. -/
def maxNormalizedUrlLength : ℕ := 8192

/-- `_DEFAULT_PORTS.get(scheme)`. -/
def defaultPort (scheme : Str) : Option ℕ :=
  if scheme = "http".toList then some 80
  else if scheme = "https".toList then some 443
  else if scheme = "ftp".toList then some 21
  else none

/-- `_PATH_SAFE`: letters, digits, and some more. -/
def pathSafe (c : Char) : Bool := c.isAlphanum ∨ c ∈ "-._~:@!$&'()*+,;=/".toList

/-- `_normalize_percent_encoding(value, safe=_PATH_SAFE)`. -/
def normalizePercentEncoding (value : Str) : Str × Bool :=
  let reencoded := quote pathSafe (unquote value)
  (reencoded, reencoded ≠ value)

/-- The body of the loop of `_resolve_dot_segments`. -/
def pushSegment (resolved : List Str) (seg : Str) : List Str :=
  if seg = ['.'] then resolved
  else if seg = ['.', '.'] then
    match resolved.getLast? with
    | some last => if last ≠ [] then resolved.dropLast else resolved
    | none => resolved
  else resolved ++ [seg]

/-- `_resolve_dot_segments`. -/
def resolveDotSegments (path : Str) : Str × Bool :=
  if ¬"/./".toList <:+: path ∧ ¬"/../".toList <:+: path ∧ ¬"/.".toList <:+ path ∧
      ¬"/..".toList <:+ path then
    (path, false)
  else
    let result := ['/'].intercalate ((path.splitOn '/').foldl pushSegment [])
    let result :=
      if path.head? = some '/' ∧ result.head? ≠ some '/' then '/' :: result else result
    (result, result ≠ path)

/-- `_idna_encode_host`. -/
def idnaEncodeHost (x : Unicode) (host : Str) : Str × Bool :=
  if allAscii host then (host, false)
  else
    match x.idna host with
    | some encoded => (encoded, encoded ≠ host)
    | none => (host, false)

/-- `_nfc_normalize`. -/
def nfcNormalize (x : Unicode) (value : Str) : Str × Bool := (x.nfc value, x.nfc value ≠ value)

/-- `NormalizedUrl`. -/
structure NormalizedUrl where
  rawValue : Str
  normalizedValue : Option Str
  isValid : Bool
  actions : List String

/-- The invalid result for a raw URL. -/
def invalid (rawUrl : Str) : NormalizedUrl := ⟨rawUrl.take maxNormalizedUrlLength, none, false, []⟩

/-- `username`, `password` and the `@` after them, as they are written. -/
def userinfoText (netloc : Str) : Str :=
  match userinfo netloc with
  | none => []
  | some (username, none) => username ++ ['@']
  | some (username, some password) => username ++ ':' :: password ++ ['@']

/-- The host as it is written, to see whether it has upper-case letters. -/
def rawHostPart (netloc : Str) : Str :=
  let part := if userinfoText netloc = [] then netloc else ((partition '@' netloc).2).getD netloc
  if ':' ∈ part then ((rpartition ':' part).1).getD part else part

/-- The port, unless it is the default one. -/
def keepPort (scheme : Str) (port : Option ℕ) : Option ℕ :=
  match port with
  | some p => if defaultPort scheme = some p then none else some p
  | none => none

/-- `f":{port}"`, or nothing. -/
def portText (port : Option ℕ) : Str :=
  match port with
  | some p => ':' :: Nat.toDigits 10 p
  | none => []

/-- The path without a lone slash, for the schemes that have one. -/
def dropTrailingSlash (scheme path : Str) : Str :=
  if path = ['/'] ∧ (scheme = "http".toList ∨ scheme = "https".toList ∨ scheme = "ftp".toList) then
    []
  else path

/-- An action, if it was taken. -/
def action (name : String) (taken : Bool) : List String := if taken then [name] else []

/-- Steps 1 to 8 of `_apply`; `none` is an exception. -/
def rewrite (x : Unicode) (rawUrl : Str) (parsed : SplitResult) (scheme : Str)
    (actions : List String) : Option NormalizedUrl :=
  let originalScheme := if ':' ∈ rawUrl then (partition ':' rawUrl).1 else []
  let scheme := scheme.map Char.toLower
  let host := hostname x parsed.netloc
  match port parsed.netloc with
  | none => none
  | some port =>
    let kept := keepPort scheme port
    let encoded := normalizePercentEncoding parsed.path
    let resolved := resolveDotSegments encoded.1
    let path := dropTrailingSlash scheme resolved.1
    let idnaHost := idnaEncodeHost x host
    let nfcPath := nfcNormalize x path
    let nfcQuery := nfcNormalize x parsed.query
    let newNetloc := userinfoText parsed.netloc ++ idnaHost.1 ++ portText kept
    let normalized := urlunsplit ⟨scheme, newNetloc, nfcPath.1, nfcQuery.1, []⟩
    if maxNormalizedUrlLength < normalized.length then some (invalid rawUrl)
    else
      some
        { rawValue := rawUrl.take maxNormalizedUrlLength
          normalizedValue := some normalized
          isValid := true
          actions := actions ++
            action "scheme_lowercased" (originalScheme ≠ x.lower originalScheme) ++
            action "host_lowercased"
              (rawHostPart parsed.netloc ≠ x.lower (rawHostPart parsed.netloc)) ++
            action "default_port_removed" (kept ≠ port) ++
            action "path_encoding_normalized" encoded.2 ++
            action "dot_segments_resolved" resolved.2 ++
            action "fragment_removed" (parsed.fragment ≠ []) ++
            action "trailing_slash_removed" (path ≠ resolved.1) ++
            action "host_idna_encoded" idnaHost.2 ++
            action "path_nfc_normalized" nfcPath.2 ++
            action "query_nfc_normalized" nfcQuery.2 }

/-- `_apply`; `none` is an exception. -/
def apply (x : Unicode) (rawUrl : Str) : Option NormalizedUrl :=
  match urlsplit x rawUrl with
  | none => none
  | some parsed =>
    if parsed.scheme ≠ [] then rewrite x rawUrl parsed parsed.scheme []
    else if "www.".toList <+: x.lower rawUrl then
      let rawUrl := "http://".toList ++ rawUrl
      match urlsplit x rawUrl with
      | none => none
      | some parsed => rewrite x rawUrl parsed "http".toList ["scheme_added"]
    else some (invalid rawUrl)

/-- `normalize`. -/
def normalize (x : Unicode) (rawUrl : Str) : NormalizedUrl :=
  if rawUrl.all Text.isSpace then invalid rawUrl
  else (apply x rawUrl).getD (invalid rawUrl)

/-! ## The canonical form of the parts -/

/-- The host as it is written back. -/
def writtenHost (x : Unicode) (netloc : Str) : Str := (idnaEncodeHost x (hostname x netloc)).1

/-- The authority as it is written back, if its port can be read. -/
def canonicalNetloc (x : Unicode) (scheme netloc : Str) : Option Str :=
  (port netloc).map fun port =>
    userinfoText netloc ++ writtenHost x netloc ++ portText (keepPort scheme port)

/-- The path as it is written back. -/
def canonicalPath (x : Unicode) (scheme path : Str) : Str :=
  x.nfc (dropTrailingSlash scheme (resolveDotSegments (normalizePercentEncoding path).1).1)

/-- The parts as they are written back. -/
def canonical (x : Unicode) (r : SplitResult) : Option SplitResult :=
  (canonicalNetloc x r.scheme r.netloc).map fun netloc =>
    ⟨r.scheme, netloc, canonicalPath x r.scheme r.path, x.nfc r.query, []⟩

/-- The URL that is taken apart: one that begins with `www.` gets a scheme. -/
def parse (x : Unicode) (rawUrl : Str) : Option SplitResult :=
  (urlsplit x rawUrl).bind fun parsed =>
    if parsed.scheme ≠ [] then some parsed
    else if "www.".toList <+: x.lower rawUrl then urlsplit x ("http://".toList ++ rawUrl)
    else none

variable {x : Unicode} {u v : Str} {r r' : SplitResult}

/-- With a scheme in front, the scheme is found. -/
theorem urlsplit_http (h : urlsplit x ("http://".toList ++ u) = some r) :
    r.scheme = "http".toList := by
  have hclean : cleanUrl ("http://".toList ++ u) =
      "http".toList ++ ':' :: ('/' :: '/' :: u.filter fun c => ¬isUnsafe c) := by
    show List.filter _ ('h' :: 't' :: 't' :: 'p' :: ':' :: '/' :: '/' :: u) = _
    simp [isUnsafe]
  have hscheme : (splitScheme (cleanUrl ("http://".toList ++ u))).1 = "http".toList := by
    have hchars : "http".toList.all isSchemeChar = true := by decide
    rw [hclean]
    exact congrArg Prod.fst (splitScheme_append ⟨'h', "ttp".toList, rfl, by decide⟩
      (List.all_eq_true.1 hchars) (by decide) _)
  unfold urlsplit at h
  dsimp only at h
  split_ifs at h
  cases h
  exact hscheme

theorem parse_scheme (h : parse x u = some r) :
    (∃ url, urlsplit x url = some r) ∧ r.scheme ≠ [] := by
  unfold parse at h
  obtain ⟨parsed, hparsed, h⟩ := Option.bind_eq_some_iff.1 h
  split_ifs at h with hscheme hwww
  · cases h
    exact ⟨⟨u, hparsed⟩, hscheme⟩
  · refine ⟨⟨_, h⟩, ?_⟩
    rw [urlsplit_http h]
    decide

/-- What `rewrite` makes of the parts. -/
theorem rewrite_normalizedValue {rawUrl : Str} {actions : List String}
    (hlower : r.scheme.map Char.toLower = r.scheme) :
    (∃ n, rewrite x rawUrl r r.scheme actions = some n ∧ n.isValid = true ∧
      n.normalizedValue = some v) ↔
    ∃ r', canonical x r = some r' ∧ urlunsplit r' = v ∧ v.length ≤ maxNormalizedUrlLength := by
  unfold rewrite canonical canonicalNetloc
  rw [hlower]
  dsimp only
  rcases port r.netloc with _ | port
  · simp
  simp only [Option.map_some, Option.some.injEq, exists_eq_left']
  change (∃ n, (if maxNormalizedUrlLength < (urlunsplit ⟨r.scheme, userinfoText r.netloc ++
    writtenHost x r.netloc ++ portText (keepPort r.scheme port), canonicalPath x r.scheme r.path,
    x.nfc r.query, []⟩).length then _ else _) = some n ∧ _) ↔ _
  by_cases hlength : maxNormalizedUrlLength < (urlunsplit ⟨r.scheme, userinfoText r.netloc ++
    writtenHost x r.netloc ++ portText (keepPort r.scheme port), canonicalPath x r.scheme r.path,
    x.nfc r.query, []⟩).length
  · rw [if_pos hlength]
    constructor
    · rintro ⟨n, hn, hvalid, -⟩
      cases hn
      cases hvalid
    · rintro ⟨rfl, hle⟩
      exact absurd hle (not_le.2 hlength)
  · rw [if_neg hlength]
    constructor
    · rintro ⟨n, hn, -, hv⟩
      cases hn
      cases hv
      exact ⟨rfl, not_lt.1 hlength⟩
    · rintro ⟨rfl, -⟩
      exact ⟨_, rfl, rfl, rfl⟩

theorem parsed_scheme_lower {url : Str} (h : urlsplit x url = some r) (hscheme : r.scheme ≠ []) :
    r.scheme.map Char.toLower = r.scheme :=
  (urlsplit_components h hscheme).1.scheme_lower

/-- What `apply` makes of a URL. -/
theorem apply_normalizedValue :
    (∃ n, apply x u = some n ∧ n.isValid = true ∧ n.normalizedValue = some v) ↔
      ∃ r r', parse x u = some r ∧ canonical x r = some r' ∧ urlunsplit r' = v ∧
        v.length ≤ maxNormalizedUrlLength := by
  -- where `urlsplit` raises, there is nothing on either side
  have hraises : (∃ n, (none : Option NormalizedUrl) = some n ∧ n.isValid = true ∧
      n.normalizedValue = some v) ↔
      ∃ r r', (none : Option SplitResult) = some r ∧ canonical x r = some r' ∧
        urlunsplit r' = v ∧ v.length ≤ maxNormalizedUrlLength := by
    simp
  unfold apply parse
  rcases hparsed : urlsplit x u with _ | parsed
  · exact hraises
  simp only [Option.bind_some]
  by_cases hscheme : parsed.scheme = []
  · rw [if_neg (not_not.2 hscheme), if_neg (not_not.2 hscheme)]
    by_cases hwww : "www.".toList <+: x.lower u
    · rw [if_pos hwww, if_pos hwww]
      rcases hparsed' : urlsplit x ("http://".toList ++ u) with _ | parsed'
      · exact hraises
      · have hhttp := urlsplit_http hparsed'
        have hlower := parsed_scheme_lower hparsed' (by rw [hhttp]; decide)
        simp only [← hhttp, rewrite_normalizedValue hlower, Option.some.injEq, exists_and_left,
          exists_eq_left']
    · rw [if_neg hwww, if_neg hwww]
      constructor
      · rintro ⟨n, hn, hvalid, -⟩
        cases hn
        cases hvalid
      · rintro ⟨_, _, hnone, -⟩
        cases hnone
  · rw [if_pos hscheme, if_pos hscheme,
      rewrite_normalizedValue (parsed_scheme_lower hparsed hscheme)]
    simp only [Option.some.injEq, exists_and_left, exists_eq_left']

/-- **What `normalize` makes of a URL.** -/
theorem normalize_eq_some_iff :
    ((normalize x u).isValid = true ∧ (normalize x u).normalizedValue = some v) ↔
      u.all Text.isSpace = false ∧ ∃ r r', parse x u = some r ∧ canonical x r = some r' ∧
        urlunsplit r' = v ∧ v.length ≤ maxNormalizedUrlLength := by
  rw [← apply_normalizedValue]
  unfold normalize
  by_cases hblank : u.all Text.isSpace = true
  · rw [if_pos hblank]
    constructor
    · rintro ⟨hvalid, -⟩
      cases hvalid
    · rintro ⟨hnot, -⟩
      rw [hblank] at hnot
      cases hnot
  · rw [if_neg hblank]
    rcases hn : apply x u with _ | n
    · constructor
      · rintro ⟨hvalid, -⟩
        cases hvalid
      · rintro ⟨-, n, hn, -⟩
        cases hn
    · simp only [Option.getD_some, Option.some.injEq, exists_eq_left']
      exact ⟨fun h => ⟨by simpa using hblank, h⟩, fun h => h.2⟩

theorem rewrite_isSome {rawUrl scheme : Str} {actions : List String} {n : NormalizedUrl}
    (h : rewrite x rawUrl r scheme actions = some n) : n.normalizedValue.isSome = n.isValid := by
  unfold rewrite at h
  dsimp only at h
  generalize port r.netloc = port at h
  rcases port with _ | port
  · cases h
  dsimp only at h
  generalize (if ':' ∈ rawUrl then (partition ':' rawUrl).1 else []) = original at h
  split_ifs at h
  · cases h
    rfl
  · cases h
    rfl

theorem apply_isSome {n : NormalizedUrl} (h : apply x u = some n) :
    n.normalizedValue.isSome = n.isValid := by
  unfold apply at h
  rcases hparsed : urlsplit x u with _ | parsed
  · rw [hparsed] at h
    cases h
  simp only [hparsed] at h
  split_ifs at h
  · exact rewrite_isSome h
  · rcases hparsed' : urlsplit x ("http://".toList ++ u) with _ | parsed'
    · rw [hparsed'] at h
      cases h
    · rw [hparsed'] at h
      exact rewrite_isSome h
  · cases h
    rfl

/-- A valid result has a value, and no other has. -/
theorem isSome_normalizedValue (x : Unicode) (u : Str) :
    (normalize x u).normalizedValue.isSome = (normalize x u).isValid := by
  unfold normalize
  split_ifs
  · rfl
  · rcases hn : apply x u with _ | n
    · rfl
    · exact apply_isSome hn

theorem exists_normalizedValue (h : (normalize x u).isValid = true) :
    ∃ v, (normalize x u).normalizedValue = some v := by
  rw [← Option.isSome_iff_exists, isSome_normalizedValue, h]

/-! ## The path -/

theorem pathSafe_percent : pathSafe '%' = false := by
  decide

theorem quoted_slash : Quoted pathSafe ['/'] :=
  quoted_singleton (by decide) (by decide)

/-- What stands in a quoted path. -/
theorem quoted_path_chars {path : Str} (h : Quoted pathSafe path) :
    allAscii path = true ∧ ∀ c ∈ path, c ≠ '?' ∧ c ≠ '#' ∧ isUnsafe c = false := by
  obtain ⟨d, rfl⟩ := h
  refine ⟨List.all_eq_true.2 fun c hc => (mem_quote hc).1, fun c hc => ?_⟩
  obtain ⟨-, hkind⟩ := mem_quote hc
  refine ⟨?_, ?_, ?_⟩
  · rintro rfl
    exact absurd hkind (by decide)
  · rintro rfl
    exact absurd hkind (by decide)
  · by_contra hunsafe
    simp only [isUnsafe, decide_eq_false_iff_not, not_not] at hunsafe
    rcases hunsafe with rfl | rfl | rfl <;> exact absurd hkind (by decide)

theorem splitOn_quotedPath (d : Str) :
    (quote pathSafe d).splitOn '/' = (d.splitOn '/').map (quote pathSafe) := by
  refine splitOn_quote (by decide) (fun c hc hmem => hc ?_) d
  exact mem_quote_singleton hmem ⟨by decide, by decide⟩

/-- A segment that is neither `.` nor `..`. -/
def NoDots (seg : Str) : Prop := seg ≠ ['.'] ∧ seg ≠ ['.', '.']

/-- What the loop over the segments leaves on its stack. -/
theorem mem_pushSegment {resolved : List Str} {seg s : Str} (h : s ∈ pushSegment resolved seg) :
    s ∈ resolved ∨ (s = seg ∧ NoDots seg) := by
  unfold pushSegment at h
  split_ifs at h with hdot hdots
  · exact .inl h
  · rcases hlast : resolved.getLast? with _ | last
    · rw [hlast] at h
      exact .inl h
    · rw [hlast] at h
      dsimp only at h
      split_ifs at h
      · exact .inl (List.dropLast_subset _ h)
      · exact .inl h
  · rcases List.mem_append.1 h with h | h
    · exact .inl h
    · exact .inr ⟨List.mem_singleton.1 h, hdot, hdots⟩

theorem mem_foldl_pushSegment {segments resolved : List Str} {s : Str}
    (h : s ∈ segments.foldl pushSegment resolved) :
    s ∈ resolved ∨ (s ∈ segments ∧ NoDots s) := by
  induction segments generalizing resolved with
  | nil => exact .inl h
  | cons seg segments ih =>
    rcases ih h with hmem | ⟨hmem, hdots⟩
    · rcases mem_pushSegment hmem with hmem | ⟨rfl, hdots⟩
      · exact .inl hmem
      · exact .inr ⟨List.mem_cons_self .., hdots⟩
    · exact .inr ⟨List.mem_cons_of_mem _ hmem, hdots⟩

theorem foldl_pushSegment_of_noDots {segments : List Str} (h : ∀ s ∈ segments, NoDots s)
    (resolved : List Str) : segments.foldl pushSegment resolved = resolved ++ segments := by
  induction segments generalizing resolved with
  | nil => simp
  | cons seg segments ih =>
    have hseg : NoDots seg := h seg (List.mem_cons_self ..)
    rw [List.foldl_cons, pushSegment, if_neg hseg.1, if_neg hseg.2,
      ih fun s hs => h s (List.mem_cons_of_mem _ hs), List.append_assoc]
    rfl

/-- A path without dot segments stays. -/
theorem resolveDotSegments_of_noDots {path : Str} (h : ∀ s ∈ path.splitOn '/', NoDots s) :
    (resolveDotSegments path).1 = path := by
  have hresult : ['/'].intercalate ((path.splitOn '/').foldl pushSegment []) = path := by
    rw [foldl_pushSegment_of_noDots h, List.nil_append, List.intercalate_splitOn]
  unfold resolveDotSegments
  split_ifs
  · rfl
  · dsimp only
    rw [hresult, if_neg (fun hhead => hhead.2 hhead.1)]

/-- The path that the loop makes has no dot segments. -/
theorem noDots_splitOn_intercalate {segments : List Str} (hdots : ∀ s ∈ segments, NoDots s)
    (hslash : ∀ s ∈ segments, '/' ∉ s) :
    ∀ s ∈ (['/'].intercalate segments).splitOn '/', NoDots s := by
  intro s hs
  rcases hempty : segments with _ | ⟨seg, rest⟩
  · rw [hempty] at hs
    simp only [List.intercalate_nil, List.splitOn_nil, List.mem_singleton] at hs
    subst hs
    exact ⟨by decide, by decide⟩
  · rw [List.splitOn_intercalate '/' hslash (by rw [hempty]; simp)] at hs
    exact hdots s hs

/-- **Resolving dot segments** is idempotent. -/
theorem resolveDotSegments_resolveDotSegments (path : Str) :
    (resolveDotSegments (resolveDotSegments path).1).1 = (resolveDotSegments path).1 := by
  by_cases hquiet : ¬"/./".toList <:+: path ∧ ¬"/../".toList <:+: path ∧
      ¬"/.".toList <:+ path ∧ ¬"/..".toList <:+ path
  · have hsame : (resolveDotSegments path).1 = path := by
      rw [resolveDotSegments, if_pos hquiet]
    rw [hsame, hsame]
  · refine resolveDotSegments_of_noDots ?_
    have hresult : ∀ s ∈ (['/'].intercalate ((path.splitOn '/').foldl pushSegment [])).splitOn '/',
        NoDots s := by
      refine noDots_splitOn_intercalate (fun s hs => ?_) fun s hs => ?_
      · rcases mem_foldl_pushSegment hs with hnil | ⟨-, hdots⟩
        · cases hnil
        · exact hdots
      · rcases mem_foldl_pushSegment hs with hnil | ⟨hmem, -⟩
        · cases hnil
        · exact not_mem_of_mem_splitOn hmem
    rw [resolveDotSegments, if_neg hquiet]
    dsimp only
    split_ifs
    · intro s hs
      rw [List.splitOn_cons_eq_if_modifyHead, if_pos (by simp)] at hs
      rcases List.mem_cons.1 hs with rfl | hs
      · exact ⟨by decide, by decide⟩
      · exact hresult s hs
    · exact hresult

theorem quoted_resolveDotSegments {path : Str} (h : Quoted pathSafe path) :
    Quoted pathSafe (resolveDotSegments path).1 := by
  have hsegments : ∀ s ∈ path.splitOn '/', Quoted pathSafe s := by
    obtain ⟨d, rfl⟩ := h
    intro s hs
    rw [splitOn_quotedPath, List.mem_map] at hs
    obtain ⟨e, -, rfl⟩ := hs
    exact ⟨e, rfl⟩
  have hresult : Quoted pathSafe
      (['/'].intercalate ((path.splitOn '/').foldl pushSegment [])) := by
    refine Quoted.intercalate quoted_slash fun s hs => ?_
    rcases mem_foldl_pushSegment hs with hnil | ⟨hmem, -⟩
    · cases hnil
    · exact hsegments s hmem
  unfold resolveDotSegments
  split_ifs
  · exact h
  · dsimp only
    split_ifs
    · exact quoted_slash.append hresult
    · exact hresult

theorem head?_resolveDotSegments {path : Str} (h : path.head? = some '/') :
    (resolveDotSegments path).1.head? = some '/' := by
  unfold resolveDotSegments
  split_ifs
  · exact h
  · dsimp only
    split_ifs with hadd
    · rfl
    · by_contra hhead
      exact hadd ⟨h, hhead⟩

theorem quoted_dropTrailingSlash {scheme path : Str} (h : Quoted pathSafe path) :
    Quoted pathSafe (dropTrailingSlash scheme path) := by
  unfold dropTrailingSlash
  split_ifs
  · exact ⟨[], rfl⟩
  · exact h

theorem quoted_canonicalPath (hx : Lawful x) (scheme path : Str) :
    canonicalPath x scheme path =
        dropTrailingSlash scheme (resolveDotSegments (quote pathSafe (unquote path))).1 ∧
      Quoted pathSafe (canonicalPath x scheme path) := by
  have hquoted : Quoted pathSafe
      (dropTrailingSlash scheme (resolveDotSegments (quote pathSafe (unquote path))).1) :=
    quoted_dropTrailingSlash (quoted_resolveDotSegments ⟨_, rfl⟩)
  have heq : canonicalPath x scheme path =
      dropTrailingSlash scheme (resolveDotSegments (quote pathSafe (unquote path))).1 :=
    hx.nfc_ascii _ (quoted_path_chars hquoted).1
  exact ⟨heq, heq ▸ hquoted⟩

/-- **The rewriting of the path** is idempotent. -/
theorem canonicalPath_canonicalPath (hx : Lawful x) (scheme path : Str) :
    canonicalPath x scheme (canonicalPath x scheme path) = canonicalPath x scheme path := by
  obtain ⟨heq, hquoted⟩ := quoted_canonicalPath hx scheme path
  rw [(quoted_canonicalPath hx scheme _).1, hquoted.requote pathSafe_percent, heq]
  generalize hresolved : (resolveDotSegments (quote pathSafe (unquote path))).1 = resolved
  have hfixed : (resolveDotSegments resolved).1 = resolved := by
    rw [← hresolved]
    exact resolveDotSegments_resolveDotSegments _
  by_cases hslash : resolved = ['/'] ∧
      (scheme = "http".toList ∨ scheme = "https".toList ∨ scheme = "ftp".toList)
  · have hdrop : dropTrailingSlash scheme resolved = [] := if_pos hslash
    rw [hdrop]
    rfl
  · have hkeep : dropTrailingSlash scheme resolved = resolved := if_neg hslash
    rw [hkeep, hfixed, hkeep]

/-- A path that is empty or begins with a slash stays so. -/
theorem canonicalPath_head (hx : Lawful x) (scheme : Str) {path : Str}
    (h : path = [] ∨ path.head? = some '/') :
    canonicalPath x scheme path = [] ∨ (canonicalPath x scheme path).head? = some '/' := by
  rw [(quoted_canonicalPath hx scheme path).1]
  unfold dropTrailingSlash
  split_ifs with hslash
  · exact .inl rfl
  rcases path with _ | ⟨c, path⟩
  · exact .inl rfl
  · right
    rcases h with h | h
    · cases h
    cases h
    have hunquote := head?_unquote (c := '/') (by decide) path
    rcases hdecoded : unquote ('/' :: path) with _ | ⟨c, rest⟩
    · rw [hdecoded] at hunquote
      cases hunquote
    · rw [hdecoded] at hunquote
      cases hunquote
      refine head?_resolveDotSegments ?_
      rw [quote_cons]
      rfl

end Url
end ScamOn.Analyzers
