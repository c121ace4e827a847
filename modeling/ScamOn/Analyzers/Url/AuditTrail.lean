import ScamOn.Analyzers.Url.DotSegments
import ScamOn.Analyzers.Url.Idempotence

/-!
# What leaves no action behind

`_apply` puts down an action for each of its steps that changes something.  Taking the URL apart
and putting it together again are no steps.

* `Silent`: no step changed anything.
* `Verbatim`: nothing is lost when the URL is taken apart, and the authority is written back as it
  stands.
* `audit_trail_iff`: without an action, the URL is written back unchanged exactly if it is
  `Verbatim`.
-/

namespace ScamOn.Analyzers
namespace Url

open Chars UrlParse Percent

variable {x : Unicode} {u : Str} {r : SplitResult} {q : Option ℕ}

/-! ## No action -/

/-- No step changed anything. -/
structure Silent (x : Unicode) (u : Str) (r : SplitResult) (q : Option ℕ) : Prop where
  scheme : ':' ∈ u → x.lower (partition ':' u).1 = (partition ':' u).1
  port : keepPort r.scheme q = q
  path : canonicalPath x r.scheme r.path = r.path
  fragment : r.fragment = []
  host : writtenHost x r.netloc = hostname x r.netloc
  query : x.nfc r.query = r.query

theorem action_eq_nil_iff (name : String) (taken : Bool) :
    action name taken = [] ↔ taken = false := by
  cases taken <;> simp [action]

theorem encoding_silent {path : Str} (h : (normalizePercentEncoding path).2 = false) :
    (normalizePercentEncoding path).1 = path := by
  simpa [normalizePercentEncoding] using h

theorem segments_silent {path : Str} (h : (resolveDotSegments path).2 = false) :
    (resolveDotSegments path).1 = path := by
  by_contra hne
  rw [(resolveDotSegments_flag path).2 hne] at h
  cases h

theorem nfc_silent {s : Str} (h : (nfcNormalize x s).2 = false) : (nfcNormalize x s).1 = s := by
  simpa [nfcNormalize] using h

theorem host_silent {host : Str} (h : (idnaEncodeHost x host).2 = false) :
    (idnaEncodeHost x host).1 = host := by
  unfold idnaEncodeHost at h ⊢
  split_ifs with hascii
  · rfl
  · rw [if_neg hascii] at h
    rcases hidna : x.idna host with _ | encoded
    · rfl
    · rw [hidna] at h
      simpa using h

theorem rewrite_silent {actions : List String} {n : NormalizedUrl}
    (hlower : r.scheme.map Char.toLower = r.scheme)
    (h : rewrite x u r r.scheme actions = some n) (hvalid : n.isValid = true)
    (hactions : n.actions = []) : actions = [] ∧ ∃ q, port r.netloc = some q ∧ Silent x u r q := by
  unfold rewrite at h
  rw [hlower] at h
  dsimp only at h
  rcases hport : port r.netloc with _ | q
  · rw [hport] at h
    cases h
  rw [hport] at h
  dsimp only at h
  by_cases hlength : maxNormalizedUrlLength < (urlunsplit ⟨r.scheme,
      userinfoText r.netloc ++ (idnaEncodeHost x (hostname x r.netloc)).1 ++
        portText (keepPort r.scheme q),
      (nfcNormalize x (dropTrailingSlash r.scheme
        (resolveDotSegments (normalizePercentEncoding r.path).1).1)).1,
      (nfcNormalize x r.query).1, []⟩).length
  · rw [if_pos hlength] at h
    cases h
    cases hvalid
  · rw [if_neg hlength] at h
    cases h
    simp only [List.append_eq_nil_iff, action_eq_nil_iff, decide_eq_false_iff_not, not_not] at hactions
    obtain ⟨⟨⟨⟨⟨⟨⟨⟨⟨⟨hnil, hscheme⟩, -⟩, hkept⟩, hencoded⟩, hresolved⟩, hfragment⟩, hslash⟩, hidna⟩,
      hnfcPath⟩, hnfcQuery⟩ := hactions
    have hpath : canonicalPath x r.scheme r.path = r.path := by
      show (nfcNormalize x (dropTrailingSlash r.scheme
        (resolveDotSegments (normalizePercentEncoding r.path).1).1)).1 = r.path
      rw [nfc_silent hnfcPath, hslash, segments_silent hresolved, encoding_silent hencoded]
    exact ⟨hnil, q, rfl, ⟨fun hcolon => by rw [if_pos hcolon] at hscheme; exact hscheme.symm, hkept,
      hpath, hfragment, host_silent hidna, nfc_silent hnfcQuery⟩⟩

/-- **Without an action** the URL has a scheme of its own, and no step changed anything. -/
theorem normalize_silent (hvalid : (normalize x u).isValid = true)
    (hactions : (normalize x u).actions = []) :
    ∃ r q, urlsplit x u = some r ∧ r.scheme ≠ [] ∧ port r.netloc = some q ∧ Silent x u r q := by
  unfold normalize at hvalid hactions
  split_ifs at hvalid with hblank
  · cases hvalid
  rw [if_neg hblank] at hactions
  rcases hn : apply x u with _ | n
  · rw [hn] at hvalid
    cases hvalid
  rw [hn] at hvalid hactions
  change n.isValid = true at hvalid
  change n.actions = [] at hactions
  unfold apply at hn
  rcases hparsed : urlsplit x u with _ | r
  · rw [hparsed] at hn
    cases hn
  simp only [hparsed] at hn
  split_ifs at hn with hscheme
  · obtain ⟨-, q, hport, hsilent⟩ :=
      rewrite_silent (parsed_scheme_lower hparsed hscheme) hn hvalid hactions
    exact ⟨r, q, rfl, hscheme, hport, hsilent⟩
  · rcases hparsed' : urlsplit x ("http://".toList ++ u) with _ | r'
    · rw [hparsed'] at hn
      cases hn
    · rw [hparsed'] at hn
      have hhttp := urlsplit_http hparsed'
      have hlower := parsed_scheme_lower hparsed' (by rw [hhttp]; decide)
      rw [← hhttp] at hn
      have hadded := (rewrite_silent hlower hn hvalid hactions).1
      cases hadded
  · cases hn
    cases hvalid

/-! ## The authority -/

/-- The authority is written back as it stands: the host has no brackets and is in lower case up to
a zone, and behind a colon stands a number without leading zeros. -/
structure PlainAuthority (x : Unicode) (netloc : Str) : Prop where
  brackets : '[' ∉ hostAndPort netloc
  host : lowerHost x (hostinfo netloc).1 = (hostinfo netloc).1
  port : ':' ∈ hostAndPort netloc → ∃ p, (hostinfo netloc).2 = Nat.toDigits 10 p

theorem hostinfo_of_no_bracket {netloc : Str} (h : '[' ∉ hostAndPort netloc) :
    hostinfo netloc = ((partition ':' (hostAndPort netloc)).1,
      (partition ':' (hostAndPort netloc)).2.getD []) := by
  unfold hostinfo
  rw [partition_of_not_mem h]

theorem authority_eq_self_of_plain {netloc : Str} (hplain : PlainAuthority x netloc)
    (hport : port netloc = some q) : authority netloc (hostname x netloc) q = netloc := by
  have hinfo := hostinfo_of_no_bracket hplain.brackets
  have hhost : hostname x netloc = (hostinfo netloc).1 := by
    unfold hostname
    split_ifs with hempty
    · exact hempty.symm
    · exact hplain.host
  have htext : hostname x netloc ++ portText q = hostAndPort netloc := by
    rw [hhost]
    rcases hcut : partition ':' (hostAndPort netloc) with ⟨name, _ | text⟩
    · obtain ⟨-, rfl⟩ := partition_eq_none_iff.1 hcut
      rw [hcut] at hinfo
      rcases port_eq_some_iff.1 hport with ⟨-, rfl⟩ | ⟨hne, -⟩
      · rw [hinfo]
        exact List.append_nil _
      · rw [hinfo] at hne
        exact absurd rfl hne
    · obtain ⟨-, heq⟩ := partition_eq_some_iff.1 hcut
      rw [hcut] at hinfo
      obtain ⟨p, hp⟩ := hplain.port (by rw [heq]; simp)
      rw [hinfo] at hp ⊢
      simp only [Option.getD_some] at hp
      rcases port_eq_some_iff.1 hport with ⟨hnil, -⟩ | ⟨-, -, -, -, rfl⟩
      · rw [hinfo] at hnil
        simp only [Option.getD_some] at hnil
        rw [hnil] at hp
        exact absurd hp.symm Nat.toDigits_ne_nil
      · rw [hinfo, heq]
        simp only [Option.getD_some, hp, Nat.ofDigitChars_ten_toDigits, portText]
  rw [authority, htext, userinfoText_append_hostAndPort]

/-- An authority that is written back as it stands is read back as it is written. -/
theorem plain_of_authority_eq_self (hx : Lawful x) {scheme netloc : Str}
    (hchars : ∀ c ∈ netloc, endsNetloc c = false ∧ isUnsafe c = false ∧ x.expands c = false)
    (hok : bracketsOk netloc = true) (hport : port netloc = some q)
    (hkept : keepPort scheme q = q)
    (h : authority netloc (writtenHost x netloc) q = netloc) : PlainAuthority x netloc := by
  have hhost := writtenHost_spec hx hchars
  have hstays : PortStays scheme q := hkept ▸ portStays_keepPort hport
  have hfixed : canonicalNetloc x scheme netloc = some netloc := by
    rw [canonicalNetloc, hport, Option.map_some, hkept, List.append_assoc]
    exact congrArg some h
  have htext : hostAndPort (authority netloc (writtenHost x netloc) q) =
      writtenHost x netloc ++ portText q := hostAndPort_authority hhost
  have hback := canonicalNetloc_eq_self_iff hx hhost hstays (h.symm ▸ hok)
  rw [h] at htext hback
  have hback := hback.1 hfixed
  have hbrackets : '[' ∉ hostAndPort netloc := by
    rw [htext, List.mem_append, not_or]
    exact ⟨hback.bracket, bracket_not_mem_portText⟩
  have hinfo := hostinfo_of_no_bracket hbrackets
  refine ⟨hbrackets, ?_, fun hcolon => ?_⟩
  · -- the host stands at the front of what is written
    refine lowerHost_eq_self hx fun c hc => ?_
    have hfront : (hostinfo netloc).1 <+: writtenHost x netloc ++ portText q := by
      rw [hinfo, ← htext]
      exact (partition_fst_spec ':' _).1
    rcases mem_partition_fst_append (partition_fst_subset_of_front hfront hc) with hc | hc
    · exact hhost.lowered c hc
    · exact lower_portText hx hc
  · rw [hinfo, htext]
    by_cases hmem : ':' ∈ writtenHost x netloc
    · obtain ⟨rfl, name, p, heq, hname, -⟩ := hback.colon hmem
      refine ⟨p, ?_⟩
      rw [heq, portText, List.append_nil, partition_append hname]
      rfl
    · rw [htext] at hcolon
      rcases q with _ | p
      · rw [portText, List.append_nil] at hcolon
        exact absurd hcolon hmem
      · refine ⟨p, ?_⟩
        rw [portText, partition_append hmem]
        rfl

/-! ## The text -/

/-- Two slashes are written though there is no authority. -/
def WritesSlashes (scheme path : Str) : Prop :=
  path.take 2 = ['/', '/'] ∨ scheme ∈ usesNetloc ∧ (path = [] ∨ path.head? = some '/')

/-- **The URL is written back as it stands.**  It has no blank or control character in front, no
tab and no line break in it, no fragment and no mark of an empty fragment or query; where it has
no authority, it has two slashes exactly if they are written. -/
structure Verbatim (x : Unicode) (u : Str) (r : SplitResult) : Prop
    extends PlainAuthority x r.netloc where
  clean : cleanUrl u = u
  fragment : '#' ∉ u
  query : '?' ∈ u → r.query ≠ []
  slashes : r.netloc = [] →
    ((splitScheme u).2.take 2 = ['/', '/'] ↔ WritesSlashes r.scheme r.path)

theorem joinNetloc_nil {scheme : Str} (h : scheme ≠ []) (path : Str) :
    WritesSlashes scheme path ∧ joinNetloc scheme [] path = '/' :: '/' :: path ∨
      ¬WritesSlashes scheme path ∧ joinNetloc scheme [] path = path := by
  unfold joinNetloc WritesSlashes
  rw [if_neg (by simp)]
  split_ifs with htwo huses
  · exact .inl ⟨.inl htwo, rfl⟩
  · exact .inl ⟨.inr huses.2, rfl⟩
  · exact .inr ⟨fun hwrites => hwrites.elim htwo fun hpath => huses ⟨h, hpath⟩, rfl⟩

theorem mem_withDelim {delim c : Char} {s : Str} (h : c ∈ withDelim delim s) :
    c = delim ∧ s ≠ [] ∨ c ∈ s := by
  unfold withDelim at h
  split_ifs at h with hempty
  · cases h
  · rcases List.mem_cons.1 h with rfl | h
    · exact .inl ⟨rfl, hempty⟩
    · exact .inr h

theorem mem_joinNetloc {scheme netloc path : Str} {c : Char} (h : c ∈ joinNetloc scheme netloc path) :
    c = '/' ∨ c ∈ netloc ∨ c ∈ path := by
  unfold joinNetloc at h
  split_ifs at h
  any_goals simp only [List.mem_append, List.mem_cons, List.not_mem_nil, or_false, or_self] at h
  all_goals tauto

/-- The marks in a URL that is written are those of its parts. -/
theorem marks_urlunsplit (h : Components r) :
    '#' ∉ urlunsplit r ∧ ('?' ∈ urlunsplit r → r.query ≠ []) := by
  have hne : r.scheme ≠ [] := ne_nil_of_scheme_head h.scheme_head
  have hmem : ∀ c ∈ urlunsplit r, c ∈ r.scheme ∨ c = ':' ∨ c = '/' ∨ c ∈ r.netloc ∨ c ∈ r.path ∨
      (c = '?' ∧ r.query ≠ []) ∨ c ∈ r.query := by
    intro c hc
    rw [urlunsplit_eq hne, h.fragment] at hc
    rcases List.mem_append.1 hc with hc | hc
    · exact .inl hc
    rcases List.mem_cons.1 hc with hc | hc
    · exact .inr (.inl hc)
    rcases List.mem_append.1 hc with hc | hc
    · have hjoin := mem_joinNetloc hc
      tauto
    rcases List.mem_append.1 hc with hc | hc
    · have hquery := mem_withDelim hc
      tauto
    · cases hc
  constructor
  · intro hhash
    rcases hmem _ hhash with hc | hc | hc | hc | hc | hc | hc
    · exact absurd (h.scheme_chars _ hc) (by decide)
    · cases hc
    · cases hc
    · exact absurd (h.netloc _ hc).1 (by decide)
    · exact (h.path _ hc).2.1 rfl
    · cases hc.1
    · exact (h.query _ hc).1 rfl
  · intro hmark
    rcases hmem _ hmark with hc | hc | hc | hc | hc | hc | hc
    · exact absurd (h.scheme_chars _ hc) (by decide)
    · cases hc
    · cases hc
    · exact absurd (h.netloc _ hc).1 (by decide)
    · exact absurd rfl (h.path _ hc).1
    · exact hc.2
    · exact List.ne_nil_of_mem hc

/-- What is written as it stands has the marks of its parts only. -/
theorem verbatim_of_urlunsplit (hr : Components r) (hu : urlunsplit r = u)
    (hplain : PlainAuthority x r.netloc) : Verbatim x u r := by
  subst hu
  have hr' : Components { r with fragment := [] } := by
    obtain ⟨_, _, _, _, fragment⟩ := r
    cases hr.fragment
    exact hr
  have hsafe : ∀ c ∈ urlunsplit r, isUnsafe c = false := by
    refine isUnsafe_urlunsplit hr' fun c hc => ?_
    rw [hr.fragment] at hc
    cases hc
  have htext := urlunsplit_eq hr'.scheme_ne_nil
  refine ⟨hplain, ?_, (marks_urlunsplit hr).1, (marks_urlunsplit hr).2, fun hnil => ?_⟩
  · rw [htext] at hsafe ⊢
    exact cleanUrl_scheme hr.scheme_head hsafe
  · rw [htext, splitScheme_append hr.scheme_head hr.scheme_chars hr.scheme_lower, hnil]
    dsimp only
    rcases joinNetloc_nil hr'.scheme_ne_nil r.path with ⟨hwrites, hjoin⟩ | ⟨hwrites, hjoin⟩
    · rw [hjoin]
      exact iff_of_true rfl hwrites
    · rw [hjoin]
      refine iff_of_false (take_two_append (fun htwo => hwrites (.inl htwo)) ?_) hwrites
      exact endsPath_withDelim r.query r.fragment

/-- A scheme that is written in lower case stands in front as it is read. -/
theorem splitScheme_rejoin (hx : Lawful x) (h : (splitScheme u).1 ≠ [])
    (hlower : ':' ∈ u → x.lower (partition ':' u).1 = (partition ':' u).1) :
    u = (splitScheme u).1 ++ ':' :: (splitScheme u).2 := by
  unfold splitScheme at h ⊢
  split at h
  · rename_i c scheme rest hcut
    split_ifs at h with halpha
    · obtain ⟨-, hu⟩ := partition_eq_some_iff.1 hcut
      have hlowered := hlower (by rw [hu]; simp)
      rw [hcut] at hlowered
      have hmap : (c :: scheme).map Char.toLower = c :: scheme := by
        refine (List.map_congr_left fun d hd => ?_).trans (List.map_id _)
        have hascii := isSchemeChar_ascii (List.all_eq_true.1 halpha.2 d hd)
        have hself := hx.lower_lowered (c :: scheme) d (by rwa [hlowered])
        rw [hx.lower_ascii d (by simpa [isAscii] using hascii)] at hself
        exact (List.cons.inj hself).1
      rw [if_pos halpha, hmap]
      exact hu
    · exact absurd rfl h
  · exact absurd rfl h

/-- A URL of which nothing is lost is made again of its parts. -/
theorem urlunsplit_of_verbatim (hx : Lawful x) (h : urlsplit x u = some r) (hscheme : r.scheme ≠ [])
    (hfragment : r.fragment = []) (hlower : ':' ∈ u → x.lower (partition ':' u).1 = (partition ':' u).1)
    (hverbatim : Verbatim x u r) : urlunsplit r = u := by
  have hparts := (urlsplit_components h hscheme).1
  have heq := urlsplit_eq h
  rw [hverbatim.clean] at heq
  have hfront : u = r.scheme ++ ':' :: (splitScheme u).2 := by
    have hsame : r.scheme = (splitScheme u).1 := by rw [heq]
    rw [hsame] at hscheme ⊢
    exact splitScheme_rejoin hx hscheme hlower
  have hnetloc : (splitNetloc (splitScheme u).2).1 = r.netloc := by rw [heq]
  have hpath : (splitPath (splitNetloc (splitScheme u).2).2).1 = r.path := by rw [heq]
  have hquery : (splitPath (splitNetloc (splitScheme u).2).2).2.1 = r.query := by rw [heq]
  have hrest : (splitNetloc (splitScheme u).2).2 = r.path ++ withDelim '?' r.query := by
    have hsub : (splitNetloc (splitScheme u).2).2 ⊆ u := fun c hc =>
      (splitScheme_snd_suffix u).subset ((splitNetloc_spec _).2.1.subset hc)
    have hrejoin := splitPath_rejoin (fun hmem => hverbatim.fragment (hsub hmem)) fun hmem => by
      rw [hquery]
      exact hverbatim.query (hsub hmem)
    rwa [hpath, hquery] at hrejoin
  have hjoin : joinNetloc r.scheme r.netloc r.path ++ withDelim '?' r.query = (splitScheme u).2 := by
    rcases splitNetloc_cases (splitScheme u).2 with ⟨rest, hslashes, hcat⟩ | ⟨hnone, hsplit⟩
    · rw [hnetloc, hrest] at hcat
      rw [hslashes, ← hcat]
      by_cases hnil : r.netloc = []
      · have hwrites := (hverbatim.slashes hnil).1 (by rw [hslashes]; rfl)
        rcases joinNetloc_nil hscheme r.path with ⟨-, hjoin⟩ | ⟨hnot, -⟩
        · rw [hnil, hjoin]
          rfl
        · exact absurd hwrites hnot
      · have hpathHead : ¬(r.path ≠ [] ∧ r.path.head? ≠ some '/') := by
          have hhead := hparts.path_head hnil
          tauto
        unfold joinNetloc
        rw [if_pos hnil, if_neg hpathHead]
        simp
    · rw [hsplit] at hnetloc hrest
      have hnil : r.netloc = [] := hnetloc.symm
      rcases joinNetloc_nil hscheme r.path with ⟨hwrites, -⟩ | ⟨-, hjoin⟩
      · exact absurd ((hverbatim.slashes hnil).2 hwrites) hnone
      · rw [hnil, hjoin]
        exact hrest.symm
  rw [urlunsplit_eq hscheme, hfragment, ← List.append_assoc, hjoin]
  show r.scheme ++ ':' :: ((splitScheme u).2 ++ []) = u
  rw [List.append_nil]
  exact hfront.symm

/-- **The audit trail.**  A valid URL that leaves no action behind is written back unchanged exactly
if nothing of it is lost when it is taken apart and put together. -/
theorem audit_trail_iff (hx : Lawful x) (hvalid : (normalize x u).isValid = true)
    (hactions : (normalize x u).actions = []) :
    (normalize x u).normalizedValue = some u ↔ ∃ r, urlsplit x u = some r ∧ Verbatim x u r := by
  obtain ⟨r, q, hparsed, hscheme, hport, hsilent⟩ := normalize_silent hvalid hactions
  obtain ⟨v, hv⟩ := exists_normalizedValue hvalid
  obtain ⟨-, r₁, r', hparse, hcanonical, rfl, -⟩ := normalize_eq_some_iff.1 ⟨hvalid, hv⟩
  have hr₁ : r₁ = r := by
    unfold parse at hparse
    rw [hparsed, Option.bind_some, if_pos hscheme] at hparse
    exact (Option.some.inj hparse).symm
  subst hr₁
  obtain ⟨hparts, hok, hexpands⟩ := urlsplit_components hparsed hscheme
  have hr := (components_canonical hx hparts hexpands hcanonical).1
  obtain ⟨q', hport', rfl⟩ := canonical_eq_some hcanonical
  obtain rfl : q = q' := Option.some.inj (hport.symm.trans hport')
  rw [hsilent.port, hsilent.path, hsilent.query] at hr hv
  rw [hv, Option.some.injEq]
  have hchars : ∀ c ∈ r₁.netloc, endsNetloc c = false ∧ isUnsafe c = false ∧ x.expands c = false :=
    fun c hc => ⟨(hparts.netloc c hc).1, (hparts.netloc c hc).2, hexpands c hc⟩
  constructor
  · intro hu
    refine ⟨r₁, hparsed, ?_⟩
    -- the URL that is written is read back, and is the URL
    have hread := urlsplit_urlunsplit x hr
    rw [hu, hparsed] at hread
    split_ifs at hread
    have hself := Option.some.inj hread
    have hnetloc : authority r₁.netloc (writtenHost x r₁.netloc) q = r₁.netloc :=
      (congrArg SplitResult.netloc hself).symm
    rw [← hself] at hr hu
    exact verbatim_of_urlunsplit hr hu
      (plain_of_authority_eq_self hx hchars hok hport hsilent.port hnetloc)
  · rintro ⟨r₂, hparsed₂, hverbatim⟩
    rw [hparsed, Option.some.injEq] at hparsed₂
    subst hparsed₂
    have hnetloc := authority_eq_self_of_plain hverbatim.toPlainAuthority hport
    rw [← hsilent.host] at hnetloc
    have hself : (⟨r₁.scheme, authority r₁.netloc (writtenHost x r₁.netloc) q, r₁.path, r₁.query,
        []⟩ : SplitResult) = r₁ := by
      rw [hnetloc, ← hsilent.fragment]
    rw [hself]
    exact urlunsplit_of_verbatim hx hparsed hscheme hsilent.fragment hsilent.scheme hverbatim

/-- `https://a/b?c` is written back as it stands. -/
theorem audit_trail_iff_query :
    Lawful asciiUnicode ∧ (normalize asciiUnicode "https://a/b?c".toList).isValid = true ∧
      (normalize asciiUnicode "https://a/b?c".toList).actions = [] ∧
      (normalize asciiUnicode "https://a/b?c".toList).normalizedValue =
        some "https://a/b?c".toList := by
  have hvalid : (normalize asciiUnicode "https://a/b?c".toList).isValid = true := by decide +kernel
  have hactions : (normalize asciiUnicode "https://a/b?c".toList).actions = [] := by decide +kernel
  refine ⟨lawful_asciiUnicode, hvalid, hactions,
    (audit_trail_iff lawful_asciiUnicode hvalid hactions).2
      ⟨⟨"https".toList, "a".toList, "/b".toList, "c".toList, []⟩, by decide +kernel, ?_⟩⟩
  exact ⟨⟨by decide, by decide, fun hcolon => absurd hcolon (by decide)⟩, by decide, by decide,
    fun _ => by decide, fun hnil => absurd hnil (by decide)⟩

/-- **The mark of an empty query** is dropped without an action. -/
theorem empty_query_unrecorded :
    (normalize asciiUnicode "http://a/b?".toList).isValid = true ∧
      (normalize asciiUnicode "http://a/b?".toList).actions = [] ∧
      (normalize asciiUnicode "http://a/b?".toList).normalizedValue = some "http://a/b".toList ∧
      (normalize asciiUnicode "http://a/b?".toList).normalizedValue ≠
        some "http://a/b?".toList := by
  decide +kernel

end Url
end ScamOn.Analyzers
