import ScamOn.Analyzers.Url.DotSegments
import ScamOn.Analyzers.Url.Idempotence

/-!
# Equivalent spellings of a URL

The normalizer reads a URL that begins with `www.` as one of `http`, unless it reads a scheme from
it, and normalises paths and queries to NFC, the paths after they have been percent-encoded.

* `resolveDotSegments_quote`: dot segments are resolved alike before and after encoding.
* `canonicalPath_eq_iff`: two paths are written alike exactly if they decode to texts that resolve
  alike, so that NFC has no part in it.
* `spellings_iff`: when the two spellings of a `www.` URL, and two canonically equivalent URLs, are
  normalised alike.
-/

namespace ScamOn.Analyzers
namespace Url

open Chars UrlParse Percent DotSegments

/-! ## Resolving and encoding -/

theorem splitOn_append_sep (a b : Str) (sep : Char) :
    (a ++ sep :: b).splitOn sep = a.splitOn sep ++ b.splitOn sep := by
  induction a with
  | nil => simp [List.splitOn_cons_eq_if_modifyHead]
  | cons c a ih =>
    rw [List.cons_append, List.splitOn_cons_eq_if_modifyHead, List.splitOn_cons_eq_if_modifyHead, ih]
    split_ifs
    · rfl
    · rcases hparts : a.splitOn sep with _ | ⟨head, tail⟩
      · exact absurd hparts (List.splitOn_ne_nil sep a)
      · rfl

/-- The path has none of the marks of a dot segment. -/
def Quiet (path : Str) : Prop :=
  ¬"/./".toList <:+: path ∧ ¬"/../".toList <:+: path ∧ ¬"/.".toList <:+ path ∧ ¬"/..".toList <:+ path

theorem mem_tail_splitOn {path : Str} {d : Str} (hd : '/' ∉ d)
    (h : '/' :: (d ++ ['/']) <:+: path ∨ '/' :: d <:+ path) : d ∈ (path.splitOn '/').tail := by
  have halone : d.splitOn '/' = [d] := by
    have happend := splitOn_append_of_not_mem hd []
    rw [List.append_nil] at happend
    simpa using happend
  rcases h with ⟨a, b, rfl⟩ | ⟨a, rfl⟩
  · have hpath : a ++ '/' :: (d ++ ['/']) ++ b = a ++ '/' :: (d ++ '/' :: b) := by simp
    rw [hpath, splitOn_append_sep, splitOn_append_sep, halone]
    rcases hfirst : a.splitOn '/' with _ | ⟨first, rest⟩
    · exact absurd hfirst (List.splitOn_ne_nil '/' a)
    · simp
  · rw [splitOn_append_sep, halone]
    rcases hfirst : a.splitOn '/' with _ | ⟨first, rest⟩
    · exact absurd hfirst (List.splitOn_ne_nil '/' a)
    · simp

/-- The marks of dot segments are those of the segments behind a slash. -/
theorem quiet_iff (path : Str) : Quiet path ↔ ∀ s ∈ (path.splitOn '/').tail, NoDots s := by
  constructor
  · intro h
    rcases hparts : path.splitOn '/' with _ | ⟨first, rest⟩
    · exact absurd hparts (List.splitOn_ne_nil '/' path)
    have hpath : path = first ++ slashed rest := by
      have hslashed := slashed_splitOn path
      rw [hparts, slashed_cons] at hslashed
      exact (List.cons.inj hslashed).2.symm
    have hin : ∀ mark : Str, mark <:+: slashed rest → mark <:+: path := fun mark hmark => by
      rw [hpath]
      exact hmark.trans (List.suffix_append _ _).isInfix
    have hsuffix : ∀ mark : Str, mark <:+ slashed rest → mark <:+ path := fun mark hmark => by
      rw [hpath]
      exact hmark.trans (List.suffix_append _ _)
    exact noDots_of_quiet ⟨fun hmark => h.1 (hin _ hmark), fun hmark => h.2.1 (hin _ hmark),
      fun hmark => h.2.2.1 (hsuffix _ hmark), fun hmark => h.2.2.2 (hsuffix _ hmark)⟩
  · intro h
    have hdot : '/' ∉ ['.'] := by decide
    have hdots : '/' ∉ ['.', '.'] := by decide
    exact ⟨fun hmark => (h _ (mem_tail_splitOn hdot (.inl hmark))).1 rfl,
      fun hmark => (h _ (mem_tail_splitOn hdots (.inl hmark))).2 rfl,
      fun hmark => (h _ (mem_tail_splitOn hdot (.inr hmark))).1 rfl,
      fun hmark => (h _ (mem_tail_splitOn hdots (.inr hmark))).2 rfl⟩

theorem quote_eq_iff (s t : Str) : quote pathSafe s = quote pathSafe t ↔ s = t := by
  constructor
  · intro h
    rw [← unquote_quote pathSafe_percent s, h, unquote_quote pathSafe_percent]
  · exact fun h => h ▸ rfl

theorem quote_dot : quote pathSafe ['.'] = ['.'] := by decide

theorem quote_dots : quote pathSafe ['.', '.'] = ['.', '.'] := by decide

theorem quote_slash : quote pathSafe ['/'] = ['/'] := by decide

theorem quote_eq_dot_iff (s : Str) : quote pathSafe s = ['.'] ↔ s = ['.'] := by
  rw [← quote_eq_iff s, quote_dot]

theorem quote_eq_dots_iff (s : Str) : quote pathSafe s = ['.', '.'] ↔ s = ['.', '.'] := by
  rw [← quote_eq_iff s, quote_dots]

theorem quote_eq_nil_iff (s : Str) : quote pathSafe s = [] ↔ s = [] := by
  rw [← quote_eq_iff s, quote_nil]

theorem noDots_quote (s : Str) : NoDots (quote pathSafe s) ↔ NoDots s := by
  unfold NoDots
  rw [ne_eq, ne_eq, quote_eq_dot_iff, quote_eq_dots_iff]

theorem quiet_quote (d : Str) : Quiet (quote pathSafe d) ↔ Quiet d := by
  rw [quiet_iff, quiet_iff, splitOn_quotedPath, ← List.map_tail]
  simp only [List.forall_mem_map, noDots_quote]

/-- The loop works on encoded segments as on those they encode. -/
theorem pushSegment_quote (resolved : List Str) (seg : Str) :
    pushSegment (resolved.map (quote pathSafe)) (quote pathSafe seg) =
      (pushSegment resolved seg).map (quote pathSafe) := by
  unfold pushSegment
  simp only [quote_eq_dot_iff, quote_eq_dots_iff]
  split_ifs
  · rfl
  · rw [List.getLast?_map]
    rcases resolved.getLast? with _ | last
    · rfl
    · simp only [Option.map_some, ne_eq, quote_eq_nil_iff]
      split_ifs
      · rfl
      · exact List.map_dropLast.symm
  · simp

theorem foldl_pushSegment_quote (segments resolved : List Str) :
    (segments.map (quote pathSafe)).foldl pushSegment (resolved.map (quote pathSafe)) =
      (segments.foldl pushSegment resolved).map (quote pathSafe) := by
  induction segments generalizing resolved with
  | nil => rfl
  | cons seg segments ih => rw [List.map_cons, List.foldl_cons, pushSegment_quote, ih, List.foldl_cons]

theorem intercalate_quote (segments : List Str) :
    ['/'].intercalate (segments.map (quote pathSafe)) =
      quote pathSafe (['/'].intercalate segments) := by
  induction segments with
  | nil => rfl
  | cons s rest ih =>
    rcases rest with _ | ⟨t, rest⟩
    · rw [List.map_singleton, List.intercalate_singleton, List.intercalate_singleton]
    · rw [List.map_cons, List.map_cons, List.intercalate_cons_cons, List.intercalate_cons_cons,
        ← List.map_cons, ih, quote_append, quote_append, quote_slash]

theorem head?_quote (d : Str) : (quote pathSafe d).head? = some '/' ↔ d.head? = some '/' := by
  rcases d with _ | ⟨c, d⟩
  · exact Iff.rfl
  rw [quote_cons, List.head?_cons, Option.some.injEq]
  constructor
  · intro h
    rcases hfirst : quote pathSafe [c] with _ | ⟨e, rest⟩
    · cases (quote_eq_nil_iff [c]).1 hfirst
    · rw [hfirst] at h
      obtain rfl : e = '/' := Option.some.inj h
      exact mem_quote_singleton (hfirst ▸ List.mem_cons_self ..) ⟨by decide, by decide⟩
  · rintro rfl
    rw [quote_slash]
    rfl

/-- **Dot segments are resolved alike** before and after encoding. -/
theorem resolveDotSegments_quote (d : Str) :
    (resolveDotSegments (quote pathSafe d)).1 = quote pathSafe (resolveDotSegments d).1 := by
  have hquiet := quiet_quote d
  unfold Quiet at hquiet
  have hresult : ['/'].intercalate (((quote pathSafe d).splitOn '/').foldl pushSegment []) =
      quote pathSafe (['/'].intercalate ((d.splitOn '/').foldl pushSegment [])) := by
    rw [splitOn_quotedPath, ← intercalate_quote]
    exact congrArg _ (foldl_pushSegment_quote (d.splitOn '/') [])
  unfold resolveDotSegments
  simp only [hquiet, hresult, head?_quote, ne_eq]
  split_ifs
  · rfl
  · rw [quote_cons, quote_slash]
    rfl
  · rfl

/-! ## Paths -/

/-- A decoded path with its dot segments resolved, a lone slash counting as no path. -/
def resolvedPath (scheme decoded : Str) : Str :=
  dropTrailingSlash scheme (resolveDotSegments decoded).1

theorem dropTrailingSlash_quote (scheme d : Str) :
    dropTrailingSlash scheme (quote pathSafe d) = quote pathSafe (dropTrailingSlash scheme d) := by
  have hslash : quote pathSafe d = ['/'] ↔ d = ['/'] := by
    rw [← quote_eq_iff d, quote_slash]
  unfold dropTrailingSlash
  simp only [hslash]
  split_ifs
  · rfl
  · rfl

variable {x : Unicode} {u v : Str} {r s : SplitResult}

theorem canonicalPath_eq_quote (hx : Lawful x) (scheme path : Str) :
    canonicalPath x scheme path = quote pathSafe (resolvedPath scheme (unquote path)) := by
  rw [(quoted_canonicalPath hx scheme path).1, resolveDotSegments_quote, dropTrailingSlash_quote]
  rfl

/-- **Two paths are written alike** exactly if they decode to texts that resolve alike: NFC has no
part in it. -/
theorem canonicalPath_eq_iff (hx : Lawful x) (scheme path path' : Str) :
    canonicalPath x scheme path = canonicalPath x scheme path' ↔
      resolvedPath scheme (unquote path) = resolvedPath scheme (unquote path') := by
  rw [canonicalPath_eq_quote hx, canonicalPath_eq_quote hx, quote_eq_iff]

/-- URLs that differ in their paths are different. -/
theorem path_eq_of_urlunsplit_eq (hr : Components r) (hs : Components s)
    (hscheme : r.scheme = s.scheme) (hquery : r.query = s.query)
    (h : urlunsplit r = urlunsplit s) : r.path = s.path := by
  rw [urlunsplit_eq (ne_nil_of_scheme_head hr.scheme_head),
    urlunsplit_eq (ne_nil_of_scheme_head hs.scheme_head), hscheme, hr.fragment, hs.fragment] at h
  have htail := (List.cons.inj (List.append_cancel_left h)).2
  have hread := splitNetloc_joinNetloc hr (endsPath_withDelim r.query [])
  have hread' := splitNetloc_joinNetloc hs (endsPath_withDelim s.query [])
  rw [hscheme, htail, hread', hquery] at hread
  exact (List.append_cancel_right (Prod.ext_iff.1 hread).2).symm

/-! ## Results -/

/-- The URL is valid and normalised to `v`. -/
def NormalizesTo (x : Unicode) (u v : Str) : Prop :=
  (normalize x u).isValid = true ∧ (normalize x u).normalizedValue = some v

/-- The two URLs have the same validity and the same value. -/
def SameResult (x : Unicode) (u v : Str) : Prop :=
  (normalize x u).isValid = (normalize x v).isValid ∧
    (normalize x u).normalizedValue = (normalize x v).normalizedValue

theorem sameResult_iff (x : Unicode) (u u' : Str) :
    SameResult x u u' ↔ ∀ v, NormalizesTo x u v ↔ NormalizesTo x u' v := by
  have hvalue : ∀ u v, NormalizesTo x u v ↔ (normalize x u).normalizedValue = some v := by
    intro u v
    refine ⟨fun h => h.2, fun h => ⟨?_, h⟩⟩
    rw [← isSome_normalizedValue, h]
    rfl
  unfold SameResult
  rw [← isSome_normalizedValue, ← isSome_normalizedValue, and_iff_right_of_imp fun h => by rw [h]]
  simp only [hvalue]
  exact ⟨fun h v => by rw [h], fun h => Option.ext h⟩

/-- The URL is not read, or its form is too long. -/
def Refused (x : Unicode) (u : Str) : Prop :=
  ∀ r r', parse x u = some r → canonical x r = some r' →
    maxNormalizedUrlLength < (urlunsplit r').length

theorem refused_iff (hblank : u.all Text.isSpace = false) :
    Refused x u ↔ ∀ v, ¬NormalizesTo x u v := by
  constructor
  · intro h v hv
    obtain ⟨-, r, r', hparse, hcanonical, rfl, hlength⟩ := normalize_eq_some_iff.1 hv
    exact absurd hlength (Nat.not_le.2 (h r r' hparse hcanonical))
  · intro h r r' hparse hcanonical
    by_contra hlength
    exact h _ (normalize_eq_some_iff.2 ⟨hblank, r, r', hparse, hcanonical, rfl, Nat.not_lt.1 hlength⟩)

/-! ## URLs that begin with www. -/

/-- Lower-casing works by the character on ASCII characters in front. -/
def LowersFront (x : Unicode) : Prop :=
  ∀ s t, allAscii s = true → s.map Char.toLower <+: x.lower (s ++ t)

/-- The URL begins with `www.`, in any letter case. -/
def BeginsWithWww (u : Str) : Prop := ∃ front rest, u = front ++ rest ∧ front.map Char.toLower = "www.".toList

theorem isAscii_of_toLower {c : Char} (h : isAscii c.toLower = true) : isAscii c = true := by
  by_cases hupper : c.val ≥ 'A'.val ∧ c.val ≤ 'Z'.val
  · have hlt : c.toNat < 128 := lt_of_le_of_lt hupper.2 (by decide)
    simpa [isAscii] using hlt
  · have hsame : c.toLower = c := dif_neg hupper
    rwa [hsame] at h

/-- The first character is a `w`. -/
theorem BeginsWithWww.head (h : BeginsWithWww u) :
    ∃ c rest, u = c :: rest ∧ (c = 'w' ∨ c = 'W') := by
  obtain ⟨front, rest, rfl, hfront⟩ := h
  rcases front with _ | ⟨c, front⟩
  · cases hfront
  · have hc : c.toLower = 'w' := (List.cons.inj hfront).1
    have hascii : c.toNat < 128 := by
      have hlower := isAscii_of_toLower (c := c) (by rw [hc]; decide)
      simpa [isAscii] using hlower
    refine ⟨c, front ++ rest, rfl, ?_⟩
    refine of_ascii_cases (P := fun c => c.toLower = 'w' → c = 'w' ∨ c = 'W') ?_ hascii hc
    decide

theorem BeginsWithWww.lower (hfront : LowersFront x) (h : BeginsWithWww u) :
    "www.".toList <+: x.lower u := by
  obtain ⟨front, rest, rfl, hlower⟩ := h
  rw [← hlower]
  refine hfront front rest (List.all_eq_true.2 fun c hc => isAscii_of_toLower ?_)
  have hmem : c.toLower ∈ "www.".toList := hlower ▸ List.mem_map_of_mem hc
  exact List.all_eq_true.1 (show "www.".toList.all isAscii = true by decide) _ hmem

theorem BeginsWithWww.not_blank (h : BeginsWithWww u) : u.all Text.isSpace = false := by
  obtain ⟨c, rest, rfl, hc⟩ := h.head
  rcases hc with rfl | rfl
  · rfl
  · rfl

theorem BeginsWithWww.cleanUrl (h : BeginsWithWww u) :
    ∃ c rest, cleanUrl u = c :: rest ∧ (c = 'w' ∨ c = 'W') := by
  obtain ⟨c, rest, rfl, hc⟩ := h.head
  refine ⟨c, rest.filter fun c => ¬isUnsafe c, ?_, hc⟩
  rcases hc with rfl | rfl
  · rfl
  · rfl

/-- A scheme that is read from such a URL begins with a `w`. -/
theorem BeginsWithWww.scheme (h : BeginsWithWww u) :
    (splitScheme (UrlParse.cleanUrl u)).1.head? ≠ some 'h' := by
  obtain ⟨c, rest, hclean, hc⟩ := h.cleanUrl
  rw [hclean]
  have hcolon : c ≠ ':' := by
    rcases hc with rfl | rfl
    · decide
    · decide
  have hlower : c.toLower ≠ 'h' := by
    rcases hc with rfl | rfl
    · decide
    · decide
  unfold splitScheme
  rw [partition, if_neg hcolon]
  split
  · rename_i d scheme tail hcut
    split_ifs
    · obtain rfl : c = d := (List.cons.inj (Prod.ext_iff.1 hcut).1).1
      simpa using hlower
    · simp
  · simp

/-- Where no scheme is read, the URL is taken apart behind `http://`. -/
theorem BeginsWithWww.parse (hfront : LowersFront x) (h : BeginsWithWww u)
    (hscheme : (splitScheme (UrlParse.cleanUrl u)).1 = []) :
    Url.parse x u = Url.parse x ("http://".toList ++ u) := by
  obtain ⟨c, rest, hclean, hc⟩ := h.cleanUrl
  have hrest : (splitScheme (UrlParse.cleanUrl u)).2 = UrlParse.cleanUrl u := by
    rcases splitScheme_cases (UrlParse.cleanUrl u) with ⟨-, heq⟩ | ⟨⟨d, scheme, heq, -⟩, -⟩
    · exact heq
    · rw [hscheme] at heq
      cases heq
  have hnetloc : (splitNetloc (UrlParse.cleanUrl u)).1 = [] := by
    rw [splitNetloc_of_no_slashes]
    rw [hclean]
    rcases hc with rfl | rfl <;> simp
  have hsplit : ∃ r, urlsplit x u = some r ∧ r.scheme = [] := by
    unfold urlsplit
    dsimp only
    rw [hrest, hnetloc]
    exact ⟨_, if_pos ⟨rfl, by simp⟩, hscheme⟩
  obtain ⟨r, hr, hnil⟩ := hsplit
  have hlower := h.lower hfront
  unfold Url.parse
  rw [hr, Option.bind_some, if_neg (not_not.2 hnil), if_pos hlower]
  cases hhttp : urlsplit x ("http://".toList ++ u) with
  | none => rfl
  | some r' =>
    have hne : r'.scheme ≠ [] := by
      rw [urlsplit_http hhttp]
      decide
    rw [Option.bind_some, if_pos hne]

/-- A scheme that is read stays. -/
theorem scheme_of_parse (h : Url.parse x u = some r)
    (hscheme : (splitScheme (UrlParse.cleanUrl u)).1 ≠ []) :
    r.scheme = (splitScheme (UrlParse.cleanUrl u)).1 := by
  unfold Url.parse at h
  obtain ⟨parsed, hparsed, h⟩ := Option.bind_eq_some_iff.1 h
  have heq : parsed.scheme = (splitScheme (UrlParse.cleanUrl u)).1 :=
    congrArg SplitResult.scheme (urlsplit_eq hparsed)
  rw [heq, if_pos hscheme] at h
  cases h
  exact heq

theorem scheme_of_parse_http (h : Url.parse x ("http://".toList ++ u) = some r) :
    r.scheme = "http".toList := by
  unfold Url.parse at h
  obtain ⟨parsed, hparsed, h⟩ := Option.bind_eq_some_iff.1 h
  have hhttp := urlsplit_http hparsed
  rw [hhttp, if_pos (by decide)] at h
  cases h
  exact hhttp

/-- What a valid URL is normalised to begins with its scheme. -/
theorem NormalizesTo.scheme (h : NormalizesTo x u v) :
    ∃ r tail, Url.parse x u = some r ∧ v = r.scheme ++ ':' :: tail := by
  obtain ⟨-, r, r', hparse, hcanonical, rfl, -⟩ := normalize_eq_some_iff.1 h
  obtain ⟨q, -, rfl⟩ := canonical_eq_some hcanonical
  exact ⟨r, _, hparse, urlunsplit_eq (parse_scheme hparse).2⟩

/-- **With and without `http://`** a URL that begins with `www.` gives the same, unless a scheme is
read from it. -/
theorem www_iff (hfront : LowersFront x) (h : BeginsWithWww u) :
    SameResult x u ("http://".toList ++ u) ↔
      (splitScheme (UrlParse.cleanUrl u)).1 = [] ∨
        Refused x u ∧ Refused x ("http://".toList ++ u) := by
  have hblank := h.not_blank
  have hblank' : ("http://".toList ++ u).all Text.isSpace = false := rfl
  rw [sameResult_iff]
  by_cases hscheme : (splitScheme (UrlParse.cleanUrl u)).1 = []
  · refine iff_of_true (fun v => ?_) (.inl hscheme)
    unfold NormalizesTo
    rw [normalize_eq_some_iff, normalize_eq_some_iff, hblank, hblank', h.parse hfront hscheme]
  rw [or_iff_right hscheme, refused_iff hblank, refused_iff hblank']
  constructor
  · intro hsame
    have hdiffer : ∀ v, NormalizesTo x u v → ¬NormalizesTo x ("http://".toList ++ u) v := by
      intro v hv hv'
      obtain ⟨r, tail, hparse, heq⟩ := hv.scheme
      obtain ⟨r', tail', hparse', heq'⟩ := hv'.scheme
      have hhttp : r'.scheme = "http".toList := scheme_of_parse_http hparse'
      have hhead : r.scheme.head? ≠ some 'h' := by
        rw [scheme_of_parse hparse hscheme]
        exact h.scheme
      have hne := (parse_scheme hparse).2
      rw [heq, hhttp] at heq'
      rcases hr : r.scheme with _ | ⟨d, scheme⟩
      · exact hne hr
      · rw [hr] at heq' hhead
        exact hhead (congrArg some (List.cons.inj heq').1)
    exact ⟨fun v hv => hdiffer v hv ((hsame v).1 hv), fun v hv => hdiffer v ((hsame v).2 hv) hv⟩
  · rintro ⟨hnone, hnone'⟩ v
    exact iff_of_false (hnone v) (hnone' v)

/-! ## Canonically equivalent URLs -/

/-- The parts agree, path and query up to canonical equivalence. -/
structure CanonicallyEquivalent (x : Unicode) (r s : SplitResult) : Prop where
  scheme : r.scheme = s.scheme
  netloc : r.netloc = s.netloc
  path : x.nfc r.path = x.nfc s.path
  query : x.nfc r.query = x.nfc s.query

/-- **Canonically equivalent URLs** are normalised alike exactly if their decoded paths resolve
alike. -/
theorem equivalent_iff (hx : Lawful x) (hu : (normalize x u).isValid = true)
    (hv : (normalize x v).isValid = true) (hr : Url.parse x u = some r)
    (hs : Url.parse x v = some s) (h : CanonicallyEquivalent x r s) :
    (normalize x u).normalizedValue = (normalize x v).normalizedValue ↔
      resolvedPath r.scheme (unquote r.path) = resolvedPath s.scheme (unquote s.path) := by
  obtain ⟨a, ha⟩ := exists_normalizedValue hu
  obtain ⟨b, hb⟩ := exists_normalizedValue hv
  obtain ⟨-, r₁, r', hparse, hcanonical, rfl, -⟩ := normalize_eq_some_iff.1 ⟨hu, ha⟩
  obtain ⟨-, s₁, s', hparse', hcanonical', rfl, -⟩ := normalize_eq_some_iff.1 ⟨hv, hb⟩
  obtain rfl : r = r₁ := Option.some.inj (hr.symm.trans hparse)
  obtain rfl : s = s₁ := Option.some.inj (hs.symm.trans hparse')
  obtain ⟨⟨url, hurl⟩, hne⟩ := parse_scheme hr
  obtain ⟨⟨url', hurl'⟩, hne'⟩ := parse_scheme hs
  obtain ⟨hcomponents, -, hexp⟩ := urlsplit_components hurl hne
  obtain ⟨hcomponents', -, hexp'⟩ := urlsplit_components hurl' hne'
  obtain ⟨hr', -⟩ := components_canonical hx hcomponents hexp hcanonical
  obtain ⟨hs', -⟩ := components_canonical hx hcomponents' hexp' hcanonical'
  obtain ⟨q, hq, rfl⟩ := canonical_eq_some hcanonical
  obtain ⟨q', hq', rfl⟩ := canonical_eq_some hcanonical'
  rw [← h.scheme] at hs' hb ⊢
  rw [ha, hb, Option.some.injEq, ← canonicalPath_eq_iff hx]
  constructor
  · exact path_eq_of_urlunsplit_eq hr' hs' rfl h.query
  · intro heq
    obtain rfl : q = q' := by
      rw [h.netloc, hq', Option.some.injEq] at hq
      exact hq.symm
    rw [h.netloc, heq, h.query]

/-! ## Both laws -/

/-- **Equivalent spellings.**  With and without `http://`, a URL that begins with `www.` gives the
same exactly if no scheme is read from it, or both are refused; canonically equivalent URLs do
exactly if their decoded paths resolve alike. -/
theorem spellings_iff (hx : Lawful x) (hfront : LowersFront x) :
    (∀ u, BeginsWithWww u →
      (SameResult x u ("http://".toList ++ u) ↔
        (splitScheme (UrlParse.cleanUrl u)).1 = [] ∨
          Refused x u ∧ Refused x ("http://".toList ++ u))) ∧
    ∀ u v r s, (normalize x u).isValid = true → (normalize x v).isValid = true →
      Url.parse x u = some r → Url.parse x v = some s → CanonicallyEquivalent x r s →
      ((normalize x u).normalizedValue = (normalize x v).normalizedValue ↔
        resolvedPath r.scheme (unquote r.path) = resolvedPath s.scheme (unquote s.path)) :=
  ⟨fun _ h => www_iff hfront h, fun _ _ _ _ hu hv hr hs h => equivalent_iff hx hu hv hr hs h⟩

/-- NFC on `e` with an acute accent. -/
def composeAcute : Str → Str
  | 'e' :: '\u0301' :: rest => 'é' :: composeAcute rest
  | c :: rest => c :: composeAcute rest
  | [] => []

/-- The Unicode database, as far as ASCII and the acute accent go. -/
def acuteUnicode : Unicode := { asciiUnicode with nfc := composeAcute }

theorem composeAcute_cons {c : Char} {s : Str} (h : c ≠ 'e' ∨ s.head? ≠ some '\u0301') :
    composeAcute (c :: s) = c :: composeAcute s := by
  rw [composeAcute]
  rintro rest rfl rfl
  rcases h with h | h
  · exact h rfl
  · exact h rfl

theorem mem_composeAcute (s : Str) : ∀ c ∈ composeAcute s, c = 'é' ∨ c ∈ s := by
  fun_induction composeAcute s with
  | case1 rest ih =>
    intro c hc
    rcases List.mem_cons.1 hc with rfl | hc
    · exact .inl rfl
    · exact (ih c hc).imp_right fun hmem => List.mem_cons_of_mem _ (List.mem_cons_of_mem _ hmem)
  | case2 c rest h ih =>
    intro d hd
    rcases List.mem_cons.1 hd with rfl | hd
    · exact .inr (List.mem_cons_self ..)
    · exact (ih d hd).imp_right (List.mem_cons_of_mem _)
  | case3 => simp

theorem head?_composeAcute {s : Str} (h : (composeAcute s).head? = some '\u0301') :
    s.head? = some '\u0301' := by
  fun_cases composeAcute s with
  | case1 rest => exact absurd h (by simp [composeAcute])
  | case2 c rest hnot =>
    rw [composeAcute] at h
    · exact h
    · exact hnot
  | case3 => exact h

theorem composeAcute_composeAcute (s : Str) : composeAcute (composeAcute s) = composeAcute s := by
  fun_induction composeAcute s with
  | case1 rest ih => rw [composeAcute_cons (.inl (by decide)), ih]
  | case2 c rest h ih =>
    rw [composeAcute_cons, ih]
    by_contra hnot
    rw [not_or, not_not, not_not] at hnot
    obtain ⟨rfl, hhead⟩ := hnot
    obtain ⟨tail, rfl⟩ := List.head?_eq_some_iff.1 (head?_composeAcute hhead)
    exact h tail rfl rfl
  | case3 => rfl

theorem composeAcute_ascii (s : Str) (h : allAscii s = true) : composeAcute s = s := by
  induction s with
  | nil => rfl
  | cons c s ih =>
    rw [allAscii, List.all_cons, Bool.and_eq_true] at h
    rw [composeAcute_cons, ih h.2]
    right
    intro hhead
    obtain ⟨tail, rfl⟩ := List.head?_eq_some_iff.1 hhead
    exact absurd (List.all_eq_true.1 h.2 _ (List.mem_cons_self ..)) (by decide)

theorem lawful_acuteUnicode : Lawful acuteUnicode :=
  { lawful_asciiUnicode with
    nfc_nfc := composeAcute_composeAcute
    nfc_ascii := composeAcute_ascii
    nfc_delim := fun s c hc hdelim => by
      rcases mem_composeAcute s c hc with rfl | hmem
      · exact absurd hdelim (by decide)
      · exact hmem }

theorem lowersFront_acuteUnicode : LowersFront acuteUnicode := by
  intro s t _
  show s.map Char.toLower <+: (s ++ t).map Char.toLower
  rw [List.map_append]
  exact List.prefix_append _ _

/-- A segment that a dot segment removes may be spelled either way. -/
theorem spellings_iff_acute :
    SameResult acuteUnicode "www.example.com/x".toList "http://www.example.com/x".toList ∧
    (normalize acuteUnicode "http://a/é/../x".toList).normalizedValue =
      (normalize acuteUnicode "http://a/e\u0301/../x".toList).normalizedValue := by
  have hwww : BeginsWithWww "www.example.com/x".toList :=
    ⟨"www.".toList, "example.com/x".toList, rfl, by decide⟩
  obtain ⟨hspelling, hequivalent⟩ := spellings_iff lawful_acuteUnicode lowersFront_acuteUnicode
  refine ⟨(hspelling _ hwww).2 (.inl (by decide +kernel)), ?_⟩
  have hparse : Url.parse acuteUnicode "http://a/é/../x".toList =
      some ⟨"http".toList, "a".toList, "/é/../x".toList, [], []⟩ := by decide +kernel
  have hparse' : Url.parse acuteUnicode "http://a/e\u0301/../x".toList =
      some ⟨"http".toList, "a".toList, "/e\u0301/../x".toList, [], []⟩ := by decide +kernel
  refine (hequivalent _ _ _ _ ?_ ?_ hparse hparse' ⟨rfl, rfl, by decide, rfl⟩).2 ?_
  · decide +kernel
  · decide +kernel
  · decide +kernel

/-- A port makes the host a scheme, and the path is encoded before it is composed. -/
theorem spellings_differ :
    Lawful acuteUnicode ∧ LowersFront acuteUnicode ∧
    (BeginsWithWww "www.example.com:8080/x".toList ∧
      (normalize acuteUnicode "www.example.com:8080/x".toList).normalizedValue =
        some "www.example.com:8080/x".toList ∧
      (normalize acuteUnicode "http://www.example.com:8080/x".toList).normalizedValue =
        some "http://www.example.com:8080/x".toList) ∧
    composeAcute "e\u0301".toList = "é".toList ∧
    (normalize acuteUnicode "http://a/é".toList).normalizedValue =
      some "http://a/%C3%A9".toList ∧
    (normalize acuteUnicode "http://a/e\u0301".toList).normalizedValue =
      some "http://a/e%CC%81".toList := by
  refine ⟨lawful_acuteUnicode, lowersFront_acuteUnicode, ⟨?_, ?_, ?_⟩, ?_, ?_, ?_⟩
  · exact ⟨"www.".toList, "example.com:8080/x".toList, rfl, by decide⟩
  · decide +kernel
  · decide +kernel
  · decide
  · decide +kernel
  · decide +kernel

end Url
end ScamOn.Analyzers
