import Mathlib.Data.List.DropRight
import ScamOn.Parsing.UrlExtractor

/-!
# Whether canonical URLs are canonical

`normalize_url_canonical` trims a URL, takes a default port and then one dot from the end of its
authority, and drops empty parameters, queries and fragments, once each.

* `canonicalParts` is what it makes of the parts, `normalizeUrlCanonical_eq` says so.
* `LeavesBlank` and `CutsTwice` are the URLs where a second pass finds new work: a blank that a
  dropped mark leaves at the end, or a port or a dot that a dropped one leaves at the end of the
  authority.
* `canonical_canonical_iff`: these are all.
-/

namespace ScamOn.Parsing

open Chars UrlParse

/-! ## Trimming -/

theorem strip_eq (s : Str) : strip s = (s.dropWhile Text.isSpace).rdropWhile Text.isSpace := by
  simp [strip, Text.trim, List.rdropWhile]

/-- The text ends in a blank. -/
def EndsInBlank (s : Str) : Prop := ∃ front c, Text.isSpace c = true ∧ s = front ++ [c]

theorem endsInBlank_concat {front : Str} {c : Char} :
    EndsInBlank (front ++ [c]) ↔ Text.isSpace c = true := by
  constructor
  · rintro ⟨front', c', hspace, heq⟩
    rwa [(List.append_inj' heq rfl).2 |> List.cons.inj |>.1]
  · exact fun hspace => ⟨front, c, hspace, rfl⟩

theorem not_endsInBlank_nil : ¬EndsInBlank [] := by
  rintro ⟨front, c, -, heq⟩
  exact absurd heq (by simp)

theorem endsInBlank_append {s : Str} (h : s ≠ []) (front : Str) :
    EndsInBlank (front ++ s) ↔ EndsInBlank s := by
  rcases List.eq_nil_or_concat s with rfl | ⟨init, c, rfl⟩
  · exact absurd rfl h
  · rw [List.concat_eq_append, ← List.append_assoc, endsInBlank_concat, endsInBlank_concat]

theorem rdropWhile_eq_self_iff (s : Str) :
    s.rdropWhile Text.isSpace = s ↔ ¬EndsInBlank s := by
  rcases List.eq_nil_or_concat s with rfl | ⟨front, c, rfl⟩
  · exact iff_of_true rfl not_endsInBlank_nil
  · rw [List.concat_eq_append, List.rdropWhile_eq_self_iff, endsInBlank_concat]
    simp

/-- What begins with no blank is trimmed at the end only. -/
theorem strip_of_head {c : Char} (h : Text.isSpace c = false) (s : Str) :
    strip (c :: s) = (c :: s).rdropWhile Text.isSpace := by
  rw [strip_eq, List.dropWhile_cons_of_neg (by simp [h])]

theorem strip_eq_self_iff {c : Char} (h : Text.isSpace c = false) (s : Str) :
    strip (c :: s) = c :: s ↔ ¬EndsInBlank (c :: s) := by
  rw [strip_of_head h, rdropWhile_eq_self_iff]

theorem head_strip {s rest : Str} {c : Char} (h : strip s = c :: rest) :
    Text.isSpace c = false := by
  rw [strip_eq] at h
  have hprefix : (s.dropWhile Text.isSpace).rdropWhile Text.isSpace <+: s.dropWhile Text.isSpace :=
    List.rdropWhile_prefix _ _
  rw [h] at hprefix
  obtain ⟨t, ht⟩ := hprefix
  have hhead := List.head?_dropWhile_not Text.isSpace s
  rw [← ht] at hhead
  simpa using hhead

theorem not_endsInBlank_strip (s : Str) : ¬EndsInBlank (strip s) := by
  rw [strip_eq, ← rdropWhile_eq_self_iff, List.rdropWhile_idempotent]

theorem strip_strip (s : Str) : strip (strip s) = strip s := by
  cases h : strip s with
  | nil => rfl
  | cons c rest =>
    rw [strip_eq_self_iff (head_strip h), ← h]
    exact not_endsInBlank_strip s

/-! ## Parameters -/

/-- Path and parameters, as they are written back. -/
def rejoinParams (scheme path : Str) : Str :=
  let cut := if usesParams.contains scheme && path.contains ';' then splitParams path else (path, [])
  cut.1 ++ withDelim ';' cut.2

/-- The path ends in the mark of empty parameters, behind `front`. -/
def EmptyParams (scheme path front : Str) : Prop :=
  usesParams.contains scheme = true ∧ path = front ++ [';'] ∧ ';' ∉ (rpartition '/' front).2

/-- The text is empty or ends in a slash. -/
def EndsSegment (s : Str) : Prop := s = [] ∨ ∃ before, s = before ++ ['/']

theorem rpartition_snd_append {pre segment : Str} (hpre : EndsSegment pre) (h : '/' ∉ segment) :
    (rpartition '/' (pre ++ segment)).2 = segment := by
  rcases hpre with rfl | ⟨before, rfl⟩
  · rw [List.nil_append, rpartition_eq_none_iff.2 ⟨h, rfl⟩]
  · rw [List.append_assoc, List.singleton_append, rpartition_eq_some_iff.2 ⟨h, rfl⟩]

/-- The last segment of a path is cut. -/
theorem splitParams_spec (path : Str) :
    ∃ pre segment, path = pre ++ segment ∧ EndsSegment pre ∧ '/' ∉ segment ∧
      splitParams path =
        (pre ++ (partition ';' segment).1, (partition ';' segment).2.getD []) := by
  unfold splitParams
  rcases hcut : rpartition '/' path with ⟨_ | before, segment⟩
  · obtain ⟨hmem, rfl⟩ := rpartition_eq_none_iff.1 hcut
    exact ⟨[], segment, rfl, .inl rfl, hmem, rfl⟩
  · obtain ⟨hmem, rfl⟩ := rpartition_eq_some_iff.1 hcut
    refine ⟨before ++ ['/'], segment, by simp, .inr ⟨before, rfl⟩, hmem, ?_⟩
    simp

/-- Empty parameters end the last segment. -/
theorem EmptyParams.segment {scheme pre segment front : Str}
    (h : EmptyParams scheme (pre ++ segment) front) (hpre : EndsSegment pre)
    (hslash : '/' ∉ segment) : ∃ before, segment = before ++ [';'] ∧ ';' ∉ before := by
  obtain ⟨-, hfront, hmem⟩ := h
  rcases List.eq_nil_or_concat segment with rfl | ⟨before, c, rfl⟩
  · rw [List.append_nil] at hfront
    rcases hpre with rfl | ⟨before, rfl⟩
    · simp at hfront
    · exact absurd (List.append_inj' hfront rfl).2 (by simp)
  · rw [List.concat_eq_append, ← List.append_assoc] at hfront
    obtain ⟨rfl, hlast⟩ := List.append_inj' hfront rfl
    rw [rpartition_snd_append hpre (fun h => hslash (by simp [h]))] at hmem
    exact ⟨before, by rw [List.concat_eq_append, hlast], hmem⟩

/-- Empty parameters are dropped, everything else stays. -/
theorem rejoinParams_cases (scheme path : Str) :
    rejoinParams scheme path = path ∧ (∀ front, ¬EmptyParams scheme path front) ∨
      EmptyParams scheme path (rejoinParams scheme path) := by
  by_cases hcut : (usesParams.contains scheme && path.contains ';') = true
  · obtain ⟨huses, -⟩ := Bool.and_eq_true_iff.1 hcut
    obtain ⟨pre, segment, hpath, hpre, hslash, hsplit⟩ := splitParams_spec path
    have hrejoin : rejoinParams scheme path = pre ++ ((partition ';' segment).1 ++
        withDelim ';' ((partition ';' segment).2.getD [])) := by
      rw [rejoinParams, if_pos hcut, hsplit, List.append_assoc]
    have hfront : ∀ front, EmptyParams scheme path front →
        ∃ before, segment = before ++ [';'] ∧ ';' ∉ before := by
      intro front hempty
      rw [hpath] at hempty
      exact hempty.segment hpre hslash
    rcases hparams : partition ';' segment with ⟨before, _ | after⟩
    · obtain ⟨hmem, rfl⟩ := partition_eq_none_iff.1 hparams
      refine .inl ⟨by rw [hrejoin, hparams, hpath]; simp [withDelim], fun front hempty => ?_⟩
      obtain ⟨before, rfl, -⟩ := hfront front hempty
      exact hmem (by simp)
    · obtain ⟨hmem, rfl⟩ := partition_eq_some_iff.1 hparams
      by_cases hafter : after = []
      · right
        subst hafter
        have hkept : rejoinParams scheme path = pre ++ before := by
          rw [hrejoin, hparams]
          simp [withDelim]
        rw [hkept]
        refine ⟨huses, by rw [hpath, List.append_assoc], ?_⟩
        rw [rpartition_snd_append hpre (fun h => hslash (by simp [h]))]
        exact hmem
      · refine .inl ⟨by rw [hrejoin, hparams, hpath]; simp [withDelim, hafter], fun front hempty => ?_⟩
        obtain ⟨before', heq, hmem'⟩ := hfront front hempty
        have hcut' := partition_append hmem' []
        rw [← heq, hparams] at hcut'
        exact hafter (by simpa using (Prod.ext_iff.1 hcut').2)
  · left
    refine ⟨?_, ?_⟩
    · rw [rejoinParams, if_neg hcut]
      simp [withDelim]
    · rintro front ⟨huses, rfl, -⟩
      exact hcut (by simp [-List.contains_eq_mem, huses])

/-- Parameters are dropped once and for all. -/
theorem rejoinParams_rejoinParams (scheme path : Str) :
    rejoinParams scheme (rejoinParams scheme path) = rejoinParams scheme path := by
  rcases rejoinParams_cases scheme path with ⟨hkept, -⟩ | ⟨-, -, hmem⟩
  · rw [hkept, hkept]
  · rcases rejoinParams_cases scheme (rejoinParams scheme path) with ⟨hkept, -⟩ | ⟨-, heq, -⟩
    · exact hkept
    · -- a semicolon at the end would be one of the last segment
      exfalso
      generalize rejoinParams scheme (rejoinParams scheme path) = front at heq
      rw [heq] at hmem
      obtain ⟨pre, segment, hfront, hpre, hslash, -⟩ := splitParams_spec front
      rw [hfront, List.append_assoc,
        rpartition_snd_append hpre (fun h => hslash (by simpa using h))] at hmem
      exact hmem (by simp)

/-- Where the path that is written back ends in a blank. -/
theorem endsInBlank_rejoinParams_iff (scheme path : Str) :
    EndsInBlank (rejoinParams scheme path) ↔
      EndsInBlank path ∨ ∃ front, EmptyParams scheme path front ∧ EndsInBlank front := by
  rcases rejoinParams_cases scheme path with ⟨hkept, hnone⟩ | hempty
  · rw [hkept]
    exact ⟨.inl, fun h => h.resolve_right fun ⟨front, hempty, _⟩ => hnone front hempty⟩
  · constructor
    · exact fun h => .inr ⟨_, hempty, h⟩
    · rintro (h | ⟨front, hfront, h⟩)
      · rw [hempty.2.1, endsInBlank_concat] at h
        exact absurd h (by decide)
      · have heq := hfront.2.1.symm.trans hempty.2.1
        rwa [← (List.append_inj' heq rfl).1]

/-! ## The end of an authority -/

/-- The default port of a scheme, as it stands in an authority. -/
def defaultPortText (scheme : Str) : Str :=
  if scheme = "http".toList then ":80".toList
  else if scheme = "https".toList then ":443".toList
  else []

/-- The authority without a default port and then without a dot. -/
def cut (scheme netloc : Str) : Str := dropTrailingDot (dropDefaultPort scheme netloc)

/-- What is taken from the end of an authority. -/
def removable (scheme : Str) : List Str :=
  let port := defaultPortText scheme
  [[], ['.']] ++ if port = [] then [] else [port, '.' :: port]

/-- What the first pass leaves for the second one at the end of an authority, and what it takes
away behind that. -/
def leftovers (scheme : Str) : List (Str × Str) :=
  let port := defaultPortText scheme
  (['.'], ['.']) ::
    if port = [] then []
    else [(['.'], '.' :: port), (port, ['.']), (port, port), (port, '.' :: port)]

theorem defaultPortText_cases (scheme : Str) :
    defaultPortText scheme = [] ∨ ∃ front, ∃ d : Char, defaultPortText scheme = front ++ [d] ∧
      d ≠ '.' ∧ Text.isSpace d = false := by
  unfold defaultPortText
  split_ifs
  · exact .inr ⟨":8".toList, '0', rfl, by decide, by decide⟩
  · exact .inr ⟨":44".toList, '3', rfl, by decide, by decide⟩
  · exact .inl rfl

theorem dropDefaultPort_eq (scheme netloc : Str) :
    dropDefaultPort scheme netloc =
      if defaultPortText scheme ≠ [] ∧ defaultPortText scheme <:+ netloc then
        netloc.take (netloc.length - (defaultPortText scheme).length)
      else netloc := by
  by_cases hhttp : scheme = "http".toList
  · subst hhttp
    simp [dropDefaultPort, defaultPortText]
  by_cases hhttps : scheme = "https".toList
  · subst hhttps
    simp [dropDefaultPort, defaultPortText]
  · have hport : defaultPortText scheme = [] := by
      rw [defaultPortText, if_neg hhttp, if_neg hhttps]
    have hno : ∀ known text : Str, scheme ≠ known →
        ¬(decide (scheme = known) && text.isSuffixOf netloc) = true := by
      intro known text hne h
      exact hne (of_decide_eq_true (Bool.and_eq_true_iff.1 h).1)
    rw [if_neg (by simp [hport]), dropDefaultPort, if_neg (hno _ _ hhttp), if_neg (hno _ _ hhttps)]

theorem dropDefaultPort_append {scheme : Str} (h : defaultPortText scheme ≠ []) (front : Str) :
    dropDefaultPort scheme (front ++ defaultPortText scheme) = front := by
  rw [dropDefaultPort_eq, if_pos ⟨h, List.suffix_append _ _⟩]
  simp

theorem dropDefaultPort_eq_self {scheme netloc : Str}
    (h : defaultPortText scheme = [] ∨ ¬defaultPortText scheme <:+ netloc) :
    dropDefaultPort scheme netloc = netloc := by
  rw [dropDefaultPort_eq, if_neg]
  tauto

/-- A port does not end as another text does. -/
theorem not_port_suffix {scheme front : Str} {c : Char} (hc : Text.isSpace c = true ∨ c = '.')
    (hport : defaultPortText scheme ≠ []) : ¬defaultPortText scheme <:+ front ++ [c] := by
  rintro ⟨before, heq⟩
  obtain ⟨init, d, hd, hdot, hspace⟩ := (defaultPortText_cases scheme).resolve_left hport
  rw [hd, ← List.append_assoc] at heq
  obtain rfl : d = c := by simpa using (List.append_inj' heq rfl).2
  rcases hc with hc | hc
  · rw [hspace] at hc
    cases hc
  · exact hdot hc

theorem dropTrailingDot_concat (front : Str) : dropTrailingDot (front ++ ['.']) = front := by
  simp [dropTrailingDot]

theorem dropTrailingDot_eq_self {netloc : Str} (h : ¬['.'] <:+ netloc) :
    dropTrailingDot netloc = netloc := by
  refine if_neg fun hlast => h ?_
  obtain ⟨front, rfl⟩ := List.getLast?_eq_some_iff.1 hlast
  exact List.suffix_append _ _

theorem cut_dot (scheme front : Str) : cut scheme (front ++ ['.']) = front := by
  have hport : dropDefaultPort scheme (front ++ ['.']) = front ++ ['.'] := by
    by_cases hport : defaultPortText scheme = []
    · exact dropDefaultPort_eq_self (.inl hport)
    · exact dropDefaultPort_eq_self (.inr (not_port_suffix (.inr rfl) hport))
  rw [cut, hport, dropTrailingDot_concat]

theorem cut_dot_port {scheme : Str} (h : defaultPortText scheme ≠ []) (front : Str) :
    cut scheme (front ++ '.' :: defaultPortText scheme) = front := by
  rw [cut, List.append_cons, dropDefaultPort_append h, dropTrailingDot_concat]

theorem cut_port {scheme front : Str} (h : defaultPortText scheme ≠ []) (hdot : ¬['.'] <:+ front) :
    cut scheme (front ++ defaultPortText scheme) = front := by
  rw [cut, dropDefaultPort_append h, dropTrailingDot_eq_self hdot]

theorem cut_eq_self {scheme netloc : Str}
    (hport : defaultPortText scheme = [] ∨ ¬defaultPortText scheme <:+ netloc)
    (hdot : ¬['.'] <:+ netloc) : cut scheme netloc = netloc := by
  rw [cut, dropDefaultPort_eq_self hport, dropTrailingDot_eq_self hdot]

/-- **What a cut takes away.** -/
theorem cut_cases (scheme netloc : Str) :
    (cut scheme netloc = netloc ∧ (defaultPortText scheme = [] ∨ ¬defaultPortText scheme <:+ netloc) ∧
        ¬['.'] <:+ netloc) ∨
      netloc = cut scheme netloc ++ ['.'] ∨
      defaultPortText scheme ≠ [] ∧ (netloc = cut scheme netloc ++ '.' :: defaultPortText scheme ∨
        netloc = cut scheme netloc ++ defaultPortText scheme ∧ ¬['.'] <:+ cut scheme netloc) := by
  by_cases hport : defaultPortText scheme ≠ [] ∧ defaultPortText scheme <:+ netloc
  · obtain ⟨hne, front, rfl⟩ := hport
    right; right
    refine ⟨hne, ?_⟩
    by_cases hdot : ['.'] <:+ front
    · obtain ⟨before, rfl⟩ := hdot
      left
      rw [List.append_assoc, List.singleton_append, cut_dot_port hne]
    · right
      rw [cut_port hne hdot]
      exact ⟨rfl, hdot⟩
  · have hport' : defaultPortText scheme = [] ∨ ¬defaultPortText scheme <:+ netloc := by
      tauto
    by_cases hdot : ['.'] <:+ netloc
    · obtain ⟨before, rfl⟩ := hdot
      exact .inr (.inl (by rw [cut_dot]))
    · exact .inl ⟨cut_eq_self hport' hdot, hport', hdot⟩

/-- A cut takes something away exactly from an authority that ends in a dot or a default port. -/
theorem cut_ne_self_iff (scheme netloc : Str) :
    cut scheme netloc ≠ netloc ↔
      ∃ front left, netloc = front ++ left ∧
        (left = ['.'] ∨ left = defaultPortText scheme ∧ defaultPortText scheme ≠ []) := by
  constructor
  · intro hne
    rcases cut_cases scheme netloc with ⟨heq, -⟩ | heq | ⟨hport, heq | ⟨heq, -⟩⟩
    · exact absurd heq hne
    · exact ⟨_, _, heq, .inl rfl⟩
    · exact ⟨cut scheme netloc ++ ['.'], _, by rw [List.append_assoc]; exact heq, .inr ⟨rfl, hport⟩⟩
    · exact ⟨_, _, heq, .inr ⟨rfl, hport⟩⟩
  · rintro ⟨front, left, rfl, hleft⟩ heq
    rcases cut_cases scheme (front ++ left) with ⟨-, hport, hdot⟩ | hcut | ⟨hne, hcut | ⟨hcut, -⟩⟩
    · rcases hleft with rfl | ⟨rfl, hne⟩
      · exact hdot (List.suffix_append _ _)
      · exact hport.elim hne fun h => h (List.suffix_append _ _)
    · rw [heq] at hcut
      simp at hcut
    · rw [heq] at hcut
      simp at hcut
    · rw [heq] at hcut
      exact hne (by simpa using hcut)

theorem not_dot_suffix_append_port {scheme : Str} (h : defaultPortText scheme ≠ []) (front : Str) :
    ¬['.'] <:+ front ++ defaultPortText scheme := by
  rintro ⟨before, heq⟩
  obtain ⟨init, d, hd, hdot, -⟩ := (defaultPortText_cases scheme).resolve_left h
  rw [hd, ← List.append_assoc] at heq
  exact hdot (by simpa using (List.append_inj' heq rfl).2.symm)

/-- The pairs of `leftovers` are cut between their parts. -/
theorem cut_leftover {scheme : Str} {p : Str × Str} (h : p ∈ leftovers scheme) (front : Str) :
    cut scheme (front ++ p.1 ++ p.2) = front ++ p.1 := by
  rcases List.mem_cons.1 h with rfl | h
  · exact cut_dot scheme _
  · split_ifs at h with hport
    · cases h
    · simp only [List.mem_cons, List.not_mem_nil, or_false] at h
      rcases h with rfl | rfl | rfl | rfl
      · exact cut_dot_port hport _
      · exact cut_dot scheme _
      · exact cut_port hport (not_dot_suffix_append_port hport front)
      · exact cut_dot_port hport _

theorem leftover_fst {scheme : Str} {p : Str × Str} (h : p ∈ leftovers scheme) :
    p.1 = ['.'] ∨ p.1 = defaultPortText scheme ∧ defaultPortText scheme ≠ [] := by
  rcases List.mem_cons.1 h with rfl | h
  · exact .inl rfl
  · split_ifs at h with hport
    · cases h
    · simp only [List.mem_cons, List.not_mem_nil, or_false] at h
      rcases h with rfl | rfl | rfl | rfl
      · exact .inl rfl
      · exact .inr ⟨rfl, hport⟩
      · exact .inr ⟨rfl, hport⟩
      · exact .inr ⟨rfl, hport⟩

/-- What the first cut leaves for a second one stands before what it took away. -/
theorem mem_leftovers {scheme netloc front left : Str} (hcut : cut scheme netloc = front ++ left)
    (hleft : left = ['.'] ∨ left = defaultPortText scheme ∧ defaultPortText scheme ≠ []) :
    ∃ removed, (left, removed) ∈ leftovers scheme ∧ netloc = front ++ left ++ removed := by
  have hnetloc := cut_cases scheme netloc
  unfold leftovers
  rw [hcut] at hnetloc
  rcases hnetloc with ⟨heq, hport, hdot⟩ | hnetloc | ⟨hne, hnetloc | ⟨hnetloc, hdot⟩⟩
  · -- what was left would have been taken
    exfalso
    rw [← heq] at hport hdot
    rcases hleft with rfl | ⟨rfl, hne⟩
    · exact hdot (List.suffix_append _ _)
    · exact hport.elim hne fun h => h (List.suffix_append _ _)
  · refine ⟨['.'], ?_, hnetloc⟩
    rcases hleft with rfl | ⟨rfl, hne⟩
    · exact List.mem_cons_self ..
    · simp [hne]
  · refine ⟨'.' :: defaultPortText scheme, ?_, hnetloc⟩
    rcases hleft with rfl | ⟨rfl, -⟩ <;> simp [hne]
  · refine ⟨defaultPortText scheme, ?_, hnetloc⟩
    rcases hleft with rfl | ⟨rfl, -⟩
    · exact absurd (List.suffix_append _ _) hdot
    · simp [hne]

/-- **A second cut** takes something away exactly if the first one left it. -/
theorem cut_cut_ne_iff (scheme netloc : Str) (P : Str → Prop) :
    cut scheme (cut scheme netloc) ≠ cut scheme netloc ∧ P (cut scheme netloc) ↔
      ∃ front, ∃ p ∈ leftovers scheme, netloc = front ++ p.1 ++ p.2 ∧ P (front ++ p.1) := by
  rw [cut_ne_self_iff]
  constructor
  · rintro ⟨⟨front, left, hcut, hleft⟩, hP⟩
    obtain ⟨removed, hmem, hnetloc⟩ := mem_leftovers hcut hleft
    exact ⟨front, (left, removed), hmem, hnetloc, hcut ▸ hP⟩
  · rintro ⟨front, p, hp, rfl, hP⟩
    have hcut := cut_leftover hp front
    exact ⟨⟨front, p.1, hcut, leftover_fst hp⟩, hcut.symm ▸ hP⟩

/-- Where the authority that is written back ends in a blank. -/
theorem endsInBlank_cut_iff (scheme netloc : Str) :
    EndsInBlank (cut scheme netloc) ↔
      ∃ front, ∃ removed ∈ removable scheme, netloc = front ++ removed ∧ EndsInBlank front := by
  unfold removable
  dsimp only
  constructor
  · intro h
    refine ⟨cut scheme netloc, ?_⟩
    rcases cut_cases scheme netloc with ⟨heq, -⟩ | heq | ⟨hport, heq | ⟨heq, -⟩⟩
    · exact ⟨[], by simp, by rw [List.append_nil, heq], h⟩
    · exact ⟨['.'], by simp, heq, h⟩
    · exact ⟨'.' :: defaultPortText scheme, by simp [hport], heq, h⟩
    · exact ⟨defaultPortText scheme, by simp [hport], heq, h⟩
  · rintro ⟨front, removed, hmem, rfl, h⟩
    obtain ⟨init, c, hspace, rfl⟩ := h
    have hdot : ¬['.'] <:+ init ++ [c] := by
      rintro ⟨before, heq⟩
      obtain rfl : '.' = c := by simpa using (List.append_inj' heq rfl).2
      exact absurd hspace (by decide)
    have hcut : cut scheme (init ++ [c] ++ removed) = init ++ [c] := by
      by_cases hport : defaultPortText scheme = []
      · simp only [hport, if_true, List.append_nil, List.mem_cons, List.not_mem_nil, or_false] at hmem
        rcases hmem with rfl | rfl
        · rw [List.append_nil, cut_eq_self (.inl hport) hdot]
        · exact cut_dot scheme _
      · simp only [hport, if_false, List.mem_append, List.mem_cons, List.not_mem_nil,
          or_false] at hmem
        rcases hmem with (rfl | rfl) | rfl | rfl
        · rw [List.append_nil, cut_eq_self (.inr (not_port_suffix (.inl hspace) hport)) hdot]
        · exact cut_dot scheme _
        · exact cut_port hport hdot
        · exact cut_dot_port hport _
    rw [hcut]
    exact ⟨init, c, hspace, rfl⟩

/-! ## What is written back -/

/-- The scheme, or `http`. -/
def usedScheme (r : SplitResult) : Str := if r.scheme = [] then "http".toList else r.scheme

/-- The parts as they are written back. -/
def canonicalParts (x : Unicode) (r : SplitResult) : SplitResult where
  scheme := usedScheme r
  netloc := cut (usedScheme r) (x.lower r.netloc)
  path := rejoinParams r.scheme r.path
  query := r.query
  fragment := r.fragment

variable {x : Unicode} {url : Str} {r : SplitResult}

theorem lower_nil (hx : Lawful x) : x.lower [] = [] :=
  hx.lower_eq_self [] (by simp)

theorem lower_scheme (hx : Lawful x) (h : urlsplit x url = some r) :
    x.lower r.scheme = r.scheme := by
  rcases urlsplit_scheme h with hnil | ⟨-, hchars, hlower⟩
  · rw [hnil, lower_nil hx]
  · refine hx.lower_eq_self _ fun c hc => ?_
    have hascii : isAscii c = true := by simpa [isAscii] using isSchemeChar_ascii (hchars c hc)
    have hsame : c.toLower = c := by
      have hmap := List.map_eq_map_iff.1 (hlower.trans (List.map_id _).symm)
      exact hmap c hc
    rw [hx.lower_ascii c hascii, hsame]

/-- **What `normalize_url_canonical` does.** -/
theorem normalizeUrlCanonical_eq (hx : Lawful x) (h : strip url ≠ []) :
    normalizeUrlCanonical x url =
      match urlsplit x (strip url) with
      | none => strip url
      | some r => urlunsplit (canonicalParts x r) := by
  unfold normalizeUrlCanonical urlparse
  rw [if_neg h]
  cases hsplit : urlsplit x (strip url) with
  | none => rfl
  | some r =>
    have hscheme : (if r.scheme = [] then [] else r.scheme) = r.scheme := by
      split_ifs with hnil
      · exact hnil.symm
      · rfl
    simp only [Option.map_some, hscheme, lower_scheme hx hsplit]
    rfl

theorem usedScheme_spec (h : urlsplit x url = some r) :
    (∃ c rest, usedScheme r = c :: rest ∧ isAsciiAlpha c = true) ∧
      (∀ c ∈ usedScheme r, isSchemeChar c = true) ∧
      (usedScheme r).map Char.toLower = usedScheme r := by
  unfold usedScheme
  split_ifs with hnil
  · exact ⟨⟨'h', "ttp".toList, rfl, by decide⟩, by decide +kernel, by decide +kernel⟩
  · exact (urlsplit_scheme h).resolve_left hnil

theorem cut_isPrefix (scheme netloc : Str) : cut scheme netloc <+: netloc := by
  rcases cut_cases scheme netloc with ⟨heq, -⟩ | heq | ⟨-, heq | ⟨heq, -⟩⟩
  · rw [heq]
  all_goals exact ⟨_, heq.symm⟩

theorem rejoinParams_prefix (scheme path : Str) : rejoinParams scheme path <+: path := by
  rcases rejoinParams_cases scheme path with ⟨heq, -⟩ | ⟨-, heq, -⟩
  · rw [heq]
  · exact ⟨_, heq.symm⟩

/-- The parts that are written back can be read back. -/
theorem components_canonicalParts (hx : Lawful x) (h : urlsplit x url = some r) :
    Components { canonicalParts x r with fragment := [] } ∧
      (∀ c ∈ r.fragment, isUnsafe c = false) ∧
      ¬(canonicalParts x r).netloc.any x.expands = true := by
  obtain ⟨hhead, hchars, hlower⟩ := usedScheme_spec h
  obtain ⟨hparts, hfragment, -, hexpands⟩ := urlsplit_components_of_scheme h hhead hchars hlower
  have hnetloc : ∀ c ∈ (canonicalParts x r).netloc, c ∈ x.lower r.netloc := fun c hc =>
    (cut_isPrefix _ _).subset hc
  have hpath := rejoinParams_prefix r.scheme r.path
  refine ⟨⟨hhead, hchars, hlower, fun c hc => ?_, fun c hc => hparts.path c (hpath.subset hc),
    fun hne => ?_, hparts.query, rfl⟩, hfragment, ?_⟩
  · have hlowered : isDelim c = true → c ∈ r.netloc := hx.lower_delim _ c (hnetloc c hc)
    refine ⟨?_, ?_⟩
    · by_contra hends
      rw [Bool.not_eq_false] at hends
      have hmem := hlowered (by simp [isDelim, hends])
      rw [(hparts.netloc c hmem).1] at hends
      cases hends
    · by_contra hunsafe
      rw [Bool.not_eq_false] at hunsafe
      have hmem := hlowered (by simp [isDelim, hunsafe])
      rw [(hparts.netloc c hmem).2] at hunsafe
      cases hunsafe
  · have hne' : r.netloc ≠ [] := by
      intro hnil
      refine hne (List.prefix_nil.1 ?_)
      show cut (usedScheme r) (x.lower r.netloc) <+: []
      rw [hnil, lower_nil hx]
      exact cut_isPrefix _ _
    rcases hparts.path_head hne' with hnil | hslash
    · left
      change r.path = [] at hnil
      exact List.prefix_nil.1 (hnil ▸ hpath)
    · change r.path.head? = some '/' at hslash
      rcases hkept : rejoinParams r.scheme r.path with _ | ⟨c, rest⟩
      · exact .inl hkept
      · right
        obtain ⟨t, ht⟩ := hpath
        rw [hkept] at ht
        rw [← ht] at hslash
        show (rejoinParams r.scheme r.path).head? = _
        rw [hkept]
        exact hslash
  · rw [List.any_eq_true]
    rintro ⟨c, hc, hexp⟩
    obtain ⟨d, hd, hdexp⟩ := hx.lower_expands _ c (hnetloc c hc) hexp
    rw [hexpands d hd] at hdexp
    cases hdexp

/-! ## The second pass -/

theorem lower_canonicalParts_netloc (hx : Lawful x) (r : SplitResult) :
    x.lower (canonicalParts x r).netloc = (canonicalParts x r).netloc :=
  hx.lower_eq_self _ fun c hc => hx.lower_lowered r.netloc c ((cut_isPrefix _ _).subset hc)

theorem usedScheme_canonicalParts (h : urlsplit x url = some r) :
    usedScheme (canonicalParts x r) = usedScheme r := by
  refine if_neg ?_
  show usedScheme r ≠ []
  exact ne_nil_of_scheme_head (usedScheme_spec h).1

/-- URLs with and without a scheme have parameters alike. -/
theorem rejoinParams_usedScheme (r : SplitResult) (path : Str) :
    rejoinParams (usedScheme r) path = rejoinParams r.scheme path := by
  unfold usedScheme
  split_ifs with hnil
  · have huses : usesParams.contains "http".toList = usesParams.contains ([] : Str) := by decide
    rw [hnil, rejoinParams, rejoinParams, huses]
  · rfl

/-- Only the authority is written back otherwise the second time. -/
theorem canonicalParts_canonicalParts (hx : Lawful x) (h : urlsplit x url = some r) :
    canonicalParts x (canonicalParts x r) =
      { canonicalParts x r with
        netloc := cut (usedScheme r) (cut (usedScheme r) (x.lower r.netloc)) } := by
  have hscheme := usedScheme_canonicalParts h
  have hlower := lower_canonicalParts_netloc hx r
  have hpath : rejoinParams (usedScheme r) (rejoinParams r.scheme r.path) =
      rejoinParams r.scheme r.path := by
    rw [rejoinParams_usedScheme, rejoinParams_rejoinParams]
  unfold canonicalParts at hscheme hlower ⊢
  rw [hscheme, hlower, hpath]

theorem length_joinNetloc (scheme : Str) {netloc path : Str} (hne : netloc ≠ [])
    (hpath : path = [] ∨ path.head? = some '/') :
    (joinNetloc scheme netloc path).length = 2 + netloc.length + path.length := by
  unfold joinNetloc
  rw [if_pos hne, if_neg (by tauto)]
  simp
  omega

theorem length_joinNetloc_nil_le (scheme path : Str) :
    (joinNetloc scheme [] path).length ≤ 2 + path.length := by
  unfold joinNetloc
  rw [if_neg (by simp)]
  split_ifs <;> simp <;> omega

/-- With another authority, that stands at the front of it, the URL is another one. -/
theorem urlunsplit_ne (h : Components { r with fragment := [] }) {netloc : Str}
    (hpre : netloc <+: r.netloc) (hne : netloc ≠ r.netloc) :
    urlunsplit { r with netloc := netloc } ≠ urlunsplit r := by
  have hlength : netloc.length < r.netloc.length := by
    refine lt_of_le_of_ne hpre.length_le fun heq => hne (hpre.eq_of_length heq)
  have hnil : r.netloc ≠ [] := by
    rintro hnil
    rw [hnil] at hlength
    exact absurd hlength (Nat.not_lt_zero _)
  have hpath := h.path_head hnil
  have hjoin : (joinNetloc r.scheme netloc r.path).length <
      (joinNetloc r.scheme r.netloc r.path).length := by
    rw [length_joinNetloc r.scheme hnil hpath]
    by_cases hempty : netloc = []
    · subst hempty
      have hle := length_joinNetloc_nil_le r.scheme r.path
      simp only [List.length_nil] at hlength
      show (joinNetloc r.scheme [] r.path).length < 2 + r.netloc.length + r.path.length
      omega
    · rw [length_joinNetloc r.scheme hempty hpath]
      omega
  intro heq
  have htotal := congrArg List.length heq
  unfold urlunsplit at htotal
  simp only [List.length_append] at htotal
  omega

/-! ## A blank at the end -/

theorem rdropWhile_append_cons {c : Char} (h : Text.isSpace c = false) (front t : Str) :
    (front ++ c :: t).rdropWhile Text.isSpace = front ++ c :: t.rdropWhile Text.isSpace := by
  induction t using List.reverseRecOn with
  | nil => simp [h]
  | append_singleton t d ih =>
    rw [← List.cons_append, ← List.append_assoc]
    by_cases hd : Text.isSpace d = true
    · rw [List.rdropWhile_concat_pos _ _ _ hd, List.rdropWhile_concat_pos _ _ _ hd, ih]
    · rw [List.rdropWhile_concat_neg _ _ _ hd, List.rdropWhile_concat_neg _ _ _ hd]
      simp

/-- The components are not longer than the text they are taken from. -/
theorem length_splitPath_le (url : Str) :
    (splitPath url).1.length + (withDelim '?' (splitPath url).2.1).length +
      (withDelim '#' (splitPath url).2.2).length ≤ url.length := by
  have hpart : ∀ (delim : Char) (s : Str), (partition delim s).1.length +
      (withDelim delim ((partition delim s).2.getD [])).length ≤ s.length := by
    intro delim s
    rcases hcut : partition delim s with ⟨before, _ | after⟩
    · obtain ⟨-, rfl⟩ := partition_eq_none_iff.1 hcut
      simp [withDelim]
    · obtain ⟨-, rfl⟩ := partition_eq_some_iff.1 hcut
      unfold withDelim
      split_ifs <;> simp
  have hhash := hpart '#' url
  have hmark := hpart '?' (partition '#' url).1
  unfold splitPath
  dsimp only
  omega

/-- What a URL behind a scheme is taken apart into. -/
theorem urlsplit_scheme_append {scheme rest : Str}
    (hhead : ∃ c rest, scheme = c :: rest ∧ isAsciiAlpha c = true)
    (hchars : ∀ c ∈ scheme, isSchemeChar c = true) (hlower : scheme.map Char.toLower = scheme)
    (hsafe : ∀ c ∈ scheme ++ ':' :: rest, isUnsafe c = false)
    (h : urlsplit x (scheme ++ ':' :: rest) = some r) :
    r = ⟨scheme, (splitNetloc rest).1, (splitPath (splitNetloc rest).2).1,
      (splitPath (splitNetloc rest).2).2.1, (splitPath (splitNetloc rest).2).2.2⟩ := by
  have heq := urlsplit_eq h
  rwa [cleanUrl_scheme hhead hsafe, splitScheme_append hhead hchars hlower] at heq

theorem splitPath_isPrefix (url : Str) : (splitPath url).1 <+: url :=
  (partition_fst_spec '?' _).1.trans (partition_fst_spec '#' url).1

theorem length_joinNetloc_le (scheme : Str) {netloc path : Str}
    (hpath : netloc ≠ [] → path = [] ∨ path.head? = some '/') :
    (joinNetloc scheme netloc path).length ≤ 2 + netloc.length + path.length := by
  by_cases hnil : netloc = []
  · rw [hnil]
    exact length_joinNetloc_nil_le scheme path
  · exact le_of_eq (length_joinNetloc scheme hnil (hpath hnil))

/-- What is written back is not longer, unless two slashes are added. -/
theorem length_urlunsplit_canonicalParts (hx : Lawful x) {scheme rest : Str}
    (hhead : ∃ c rest, scheme = c :: rest ∧ isAsciiAlpha c = true)
    (hchars : ∀ c ∈ scheme, isSchemeChar c = true) (hlower : scheme.map Char.toLower = scheme)
    (hsafe : ∀ c ∈ scheme ++ ':' :: rest, isUnsafe c = false)
    (hnetloc : ∀ c ∈ (splitNetloc rest).1, x.lower [c] = [c])
    (h : urlsplit x (scheme ++ ':' :: rest) = some r) :
    (urlunsplit (canonicalParts x r)).length ≤ (scheme ++ ':' :: rest).length ∨
      rest.take 2 ≠ ['/', '/'] ∧
        ∃ tail, urlunsplit (canonicalParts x r) = scheme ++ ':' :: '/' :: '/' :: tail := by
  have hparts := (components_canonicalParts hx h).1
  have hr := urlsplit_scheme_append hhead hchars hlower hsafe h
  have hscheme : (canonicalParts x r).scheme = scheme := by
    rw [hr]
    exact if_neg (ne_nil_of_scheme_head hhead)
  have hnetlocLe : (canonicalParts x r).netloc.length ≤ (splitNetloc rest).1.length := by
    have hle := (cut_isPrefix (usedScheme r) (x.lower r.netloc)).length_le
    have hsame : x.lower r.netloc = (splitNetloc rest).1 := by
      rw [hr]
      exact hx.lower_eq_self _ hnetloc
    show (cut (usedScheme r) (x.lower r.netloc)).length ≤ _
    exact hle.trans (le_of_eq (congrArg List.length hsame))
  have hpathPrefix : (canonicalParts x r).path <+: (splitPath (splitNetloc rest).2).1 := by
    rw [hr]
    exact rejoinParams_prefix _ _
  have hpathLe := hpathPrefix.length_le
  have hquery : (canonicalParts x r).query = (splitPath (splitNetloc rest).2).2.1 := by rw [hr]; rfl
  have hfragment : (canonicalParts x r).fragment = (splitPath (splitNetloc rest).2).2.2 := by
    rw [hr]
    rfl
  have htail := length_splitPath_le (splitNetloc rest).2
  have htext := urlunsplit_eq hparts.scheme_ne_nil
  rw [hscheme, hquery, hfragment] at htext
  rcases splitNetloc_cases rest with ⟨tail, hrest, hcat⟩ | ⟨hslashes, hnil⟩
  · left
    have hjoin := length_joinNetloc_le scheme hparts.path_head
    have hlength : rest.length = 2 + (splitNetloc rest).1.length + (splitNetloc rest).2.length := by
      have hcatLength := congrArg List.length hcat
      have hrestLength := congrArg List.length hrest
      rw [List.length_append] at hcatLength
      simp only [List.length_cons] at hrestLength
      omega
    rw [htext]
    simp only [List.length_append, List.length_cons] at hjoin ⊢
    omega
  · rw [hnil] at hnetlocLe hpathLe hpathPrefix htail htext
    have hempty : (canonicalParts x r).netloc = [] :=
      List.length_eq_zero_iff.1 (Nat.le_zero.1 hnetlocLe)
    rw [htext, hempty]
    unfold joinNetloc
    rw [if_neg (by simp)]
    split_ifs with htwo huses
    · -- the path stands at the front of the text
      exfalso
      obtain ⟨tail, heq⟩ := hpathPrefix.trans (splitPath_isPrefix rest)
      rw [← heq, List.take_append_of_le_length] at hslashes
      · exact hslashes htwo
      · have hlength := congrArg List.length htwo
        rw [List.length_take] at hlength
        simp only [List.length_cons, List.length_nil] at hlength
        omega
    · exact .inr ⟨hslashes, _, rfl⟩
    · left
      simp only [List.length_append, List.length_cons]
      dsimp only at htail hpathLe
      omega

/-- The authority of a text does not get shorter when something is put behind it. -/
theorem splitNetloc_fst_subset (a b : Str) : (splitNetloc a).1 ⊆ (splitNetloc (a ++ b)).1 := by
  unfold splitNetloc
  split
  · rename_i rest
    show rest.takeWhile _ ⊆ (rest ++ b).takeWhile _
    rw [List.takeWhile_append]
    split_ifs with hall
    · exact fun c hc => List.mem_append_left _ ((List.takeWhile_sublist _).subset hc)
    · exact fun _ hc => hc
  · exact List.nil_subset _

/-- **A blank at the end** is new work for a second pass. -/
theorem canonical_ne_of_endsInBlank (hx : Lawful x) (h : urlsplit x url = some r)
    (hblank : EndsInBlank (urlunsplit (canonicalParts x r))) :
    normalizeUrlCanonical x (urlunsplit (canonicalParts x r)) ≠
      urlunsplit (canonicalParts x r) := by
  obtain ⟨hparts, hfragment, -⟩ := components_canonicalParts hx h
  have hlowered := hx.lower_lowered r.netloc
  have hsub : ∀ c ∈ (canonicalParts x r).netloc, x.lower [c] = [c] := fun c hc =>
    hlowered c ((cut_isPrefix _ _).subset hc)
  have hsafe := isUnsafe_urlunsplit hparts hfragment
  have hread := splitNetloc_joinNetloc hparts
    (endsPath_withDelim (canonicalParts x r).query (canonicalParts x r).fragment)
  have htext := urlunsplit_eq hparts.scheme_ne_nil
  generalize canonicalParts x r = p at *
  dsimp only at hread
  generalize ht : joinNetloc p.scheme p.netloc p.path ++
    (withDelim '?' p.query ++ withDelim '#' p.fragment) = t at hread htext
  rw [htext] at hblank hsafe ⊢
  -- the text without its blanks
  generalize hkept : t.rdropWhile Text.isSpace = kept
  generalize hblanks : t.rtakeWhile Text.isSpace = blanks
  have hsplit : kept ++ blanks = t := by
    rw [← hkept, ← hblanks, List.rdropWhile_append_rtakeWhile]
  have hspace : ∀ c ∈ blanks, Text.isSpace c = true := by
    intro c hc
    rw [← hblanks] at hc
    exact List.mem_rtakeWhile_imp hc
  obtain ⟨c, tail, hscheme, hc⟩ := hparts.scheme_head
  change p.scheme = c :: tail at hscheme
  have hstrip : strip (p.scheme ++ ':' :: t) = p.scheme ++ ':' :: kept := by
    rw [← hkept, ← rdropWhile_append_cons (by decide), hscheme]
    exact strip_of_head (isSpace_of_isAsciiAlpha hc) _
  have hlt : (p.scheme ++ ':' :: kept).length < (p.scheme ++ ':' :: t).length := by
    have hne : blanks ≠ [] := by
      rintro rfl
      rw [List.append_nil] at hsplit
      refine (rdropWhile_eq_self_iff _).1 ?_ hblank
      rw [rdropWhile_append_cons (by decide), hkept, hsplit]
    have hpos := List.length_pos_iff.2 hne
    rw [← hsplit]
    simp only [List.length_append, List.length_cons]
    omega
  intro heq
  rw [normalizeUrlCanonical_eq hx (by rw [hstrip]; simp), hstrip] at heq
  cases hparsed : urlsplit x (p.scheme ++ ':' :: kept) with
  | none =>
    rw [hparsed] at heq
    exact absurd (congrArg List.length heq) (by dsimp only; omega)
  | some r' =>
    rw [hparsed] at heq
    dsimp only at heq
    have hnetloc : ∀ c ∈ (splitNetloc kept).1, x.lower [c] = [c] := by
      intro d hd
      have hmem := splitNetloc_fst_subset kept blanks hd
      rw [hsplit, hread] at hmem
      exact hsub d hmem
    have hsafe' : ∀ d ∈ p.scheme ++ ':' :: kept, isUnsafe d = false := by
      intro d hd
      refine hsafe d ?_
      rw [← hsplit, ← List.cons_append, ← List.append_assoc]
      exact List.mem_append_left _ hd
    rcases length_urlunsplit_canonicalParts hx hparts.scheme_head hparts.scheme_chars
      hparts.scheme_lower hsafe' hnetloc hparsed with hle | ⟨hslashes, tail, hadded⟩
    · rw [heq] at hle
      dsimp only at hle
      omega
    · -- no blank is a slash
      rw [heq, ← hsplit] at hadded
      have htext := List.append_cancel_left hadded
      have hslash : '/' ∉ blanks := fun hmem => absurd (hspace _ hmem) (by decide)
      rcases kept with _ | ⟨a, _ | ⟨b, kept⟩⟩
      · have hblanks : blanks = '/' :: '/' :: tail := (List.cons.inj htext).2
        exact hslash (by simp [hblanks])
      · have hblanks : blanks = '/' :: tail := (List.cons.inj (List.cons.inj htext).2).2
        exact hslash (by simp [hblanks])
      · refine hslashes ?_
        have hfront := (List.cons.inj htext).2
        rw [List.cons_append, List.cons_append] at hfront
        obtain ⟨rfl, hsecond⟩ := List.cons.inj hfront
        obtain ⟨rfl, -⟩ := List.cons.inj hsecond
        rfl

/-! ## Which URLs are canonical after one pass -/

/-- What is written back ends in a blank: behind it stood the mark of an empty fragment, query or
parameters, a default port or a dot. -/
def LeavesBlank (x : Unicode) (r : SplitResult) : Prop :=
  r.fragment = [] ∧ (EndsInBlank r.query ∨ r.query = [] ∧
    (EndsInBlank r.path ∨ (∃ front, EmptyParams r.scheme r.path front ∧ EndsInBlank front) ∨
      r.path = [] ∧ ∃ front, ∃ removed ∈ removable (usedScheme r),
        x.lower r.netloc = front ++ removed ∧ EndsInBlank front))

/-- Before the port or the dot that is taken from the end of the authority stands another one, and
the authority that ends in it is accepted. -/
def CutsTwice (x : Unicode) (r : SplitResult) : Prop :=
  ∃ front, ∃ p ∈ leftovers (usedScheme r), x.lower r.netloc = front ++ p.1 ++ p.2 ∧
    bracketsOk (front ++ p.1) = true

/-- A fragment ends as the URL does. -/
theorem not_endsInBlank_fragment (h : urlsplit x (strip url) = some r) :
    ¬EndsInBlank r.fragment := by
  rintro ⟨front, c, hspace, hfragment⟩
  obtain ⟨before, hclean⟩ := urlsplit_fragment_suffix h
  rw [hfragment, ← List.append_assoc] at hclean
  unfold cleanUrl at hclean
  obtain ⟨dropped, hdropped⟩ := List.dropWhile_suffix (fun c : Char => decide (c.toNat ≤ 32))
    (l := strip url)
  generalize (strip url).dropWhile _ = kept at hclean hdropped
  rcases List.eq_nil_or_concat kept with rfl | ⟨init, d, rfl⟩
  · simp at hclean
  · rw [List.concat_eq_append] at hclean hdropped
    rw [← List.append_assoc] at hdropped
    have hd : Text.isSpace d = false := by
      by_contra hblank
      exact not_endsInBlank_strip url ⟨_, d, by simpa using hblank, hdropped.symm⟩
    have hsafe : isUnsafe d = false := by
      by_contra hunsafe
      simp only [isUnsafe, decide_eq_false_iff_not, not_not] at hunsafe
      rcases hunsafe with rfl | rfl | rfl <;> exact absurd hd (by decide)
    rw [List.filter_append, List.filter_cons_of_pos (by simp [hsafe]), List.filter_nil] at hclean
    obtain rfl : c = d := by simpa using (List.append_inj' hclean rfl).2
    rw [hd] at hspace
    cases hspace

theorem endsInBlank_withDelim {s : Str} (h : s ≠ []) (front : Str) (delim : Char) :
    EndsInBlank (front ++ withDelim delim s) ↔ EndsInBlank s := by
  rw [withDelim, if_neg h, List.append_cons, endsInBlank_append h]

theorem exists_joinNetloc_eq (scheme netloc path : Str) :
    ∃ front, joinNetloc scheme netloc path = front ++ path := by
  unfold joinNetloc
  split_ifs
  · exact ⟨['/', '/'] ++ netloc ++ ['/'], by simp⟩
  · exact ⟨['/', '/'] ++ netloc, rfl⟩
  · exact ⟨['/', '/'], rfl⟩
  · exact ⟨['/', '/'], rfl⟩
  · exact ⟨[], rfl⟩

/-- The URL that is written back ends as its last part does. -/
theorem endsInBlank_urlunsplit_iff (hx : Lawful x) (h : urlsplit x (strip url) = some r) :
    EndsInBlank (urlunsplit (canonicalParts x r)) ↔ LeavesBlank x r := by
  have hparts := (components_canonicalParts hx h).1
  obtain ⟨hhead, hchars, hlower⟩ := usedScheme_spec h
  have hread := (urlsplit_components_of_scheme h hhead hchars hlower).1
  rw [urlunsplit_eq hparts.scheme_ne_nil]
  show EndsInBlank (usedScheme r ++ ':' :: (joinNetloc (usedScheme r) (canonicalParts x r).netloc
    (rejoinParams r.scheme r.path) ++ (withDelim '?' r.query ++ withDelim '#' r.fragment))) ↔ _
  unfold LeavesBlank
  by_cases hfragment : r.fragment = []
  swap
  · rw [← List.append_assoc, ← List.cons_append, ← List.append_assoc, endsInBlank_withDelim hfragment]
    exact iff_of_false (not_endsInBlank_fragment h) fun hblank => hfragment hblank.1
  rw [and_iff_right hfragment, hfragment]
  show EndsInBlank (_ ++ ':' :: (_ ++ (_ ++ []))) ↔ _
  rw [List.append_nil]
  by_cases hquery : r.query = []
  swap
  · rw [← List.cons_append, ← List.append_assoc, endsInBlank_withDelim hquery]
    exact ⟨.inl, fun hblank => hblank.resolve_right fun hnil => hquery hnil.1⟩
  have hnoQuery : ¬EndsInBlank r.query := by
    rw [hquery]
    exact not_endsInBlank_nil
  rw [or_iff_right hnoQuery, and_iff_right hquery, hquery]
  show EndsInBlank (_ ++ ':' :: (_ ++ [])) ↔ _
  rw [List.append_nil, ← or_assoc, ← endsInBlank_rejoinParams_iff, ← endsInBlank_cut_iff]
  by_cases hpath : rejoinParams r.scheme r.path = []
  swap
  · obtain ⟨front, hfront⟩ := exists_joinNetloc_eq (usedScheme r) (canonicalParts x r).netloc
      (rejoinParams r.scheme r.path)
    have hne : r.path ≠ [] := by
      intro hnil
      exact hpath (List.prefix_nil.1 (hnil ▸ rejoinParams_prefix r.scheme r.path))
    rw [hfront, ← List.cons_append, ← List.append_assoc, endsInBlank_append hpath]
    exact ⟨.inl, fun hblank => hblank.resolve_right fun hnil => hne hnil.1⟩
  have hnoPath : ¬EndsInBlank (rejoinParams r.scheme r.path) := by
    rw [hpath]
    exact not_endsInBlank_nil
  rw [or_iff_right hnoPath, hpath]
  show _ ↔ r.path = [] ∧ EndsInBlank (canonicalParts x r).netloc
  by_cases hnetloc : (canonicalParts x r).netloc = []
  · rw [hnetloc]
    refine iff_of_false ?_ fun hblank => not_endsInBlank_nil hblank.2
    unfold joinNetloc
    rw [if_neg (by simp), if_neg (by simp)]
    split_ifs
    · rw [List.append_cons, endsInBlank_append (by simp)]
      exact fun hblank => absurd ((@endsInBlank_concat ['/'] '/').1 hblank) (by decide)
    · exact fun hblank => absurd (endsInBlank_concat.1 hblank) (by decide)
  · have hjoin : joinNetloc (usedScheme r) (canonicalParts x r).netloc [] =
        ['/', '/'] ++ (canonicalParts x r).netloc := by
      unfold joinNetloc
      rw [if_pos hnetloc, if_neg (by simp), List.append_nil]
    have hempty : r.path = [] := by
      have hne : r.netloc ≠ [] := by
        intro hnil
        refine hnetloc (List.prefix_nil.1 ?_)
        show cut (usedScheme r) (x.lower r.netloc) <+: []
        rw [hnil, lower_nil hx]
        exact cut_isPrefix _ _
      rcases hread.path_head hne with hnil | hslash
      · exact hnil
      · -- a path that begins with a slash is not dropped
        rcases rejoinParams_cases r.scheme r.path with ⟨heq, -⟩ | ⟨-, heq, -⟩
        · rw [← heq, hpath]
        · change r.path.head? = some '/' at hslash
          rw [heq, hpath] at hslash
          cases hslash
    rw [hjoin, and_iff_right hempty, ← List.cons_append, ← List.append_assoc,
      endsInBlank_append hnetloc]

/-- A second pass finds no new work. -/
def CanonicalAtOnce (x : Unicode) (url : Str) : Prop :=
  ∀ r, urlsplit x (strip url) = some r → ¬LeavesBlank x r ∧ ¬CutsTwice x r

/-- What is trimmed away entirely has no parts. -/
theorem canonicalAtOnce_of_blank (hx : Lawful x) (h : strip url = []) : CanonicalAtOnce x url := by
  intro r hr
  rw [h] at hr
  have hempty : urlsplit x [] = some ⟨[], [], [], [], []⟩ := rfl
  rw [hempty] at hr
  cases hr
  constructor
  · rintro ⟨-, hblank | ⟨-, hblank | ⟨front, ⟨-, heq, -⟩, -⟩ | ⟨-, front, removed, -, heq, hblank⟩⟩⟩
    · exact not_endsInBlank_nil hblank
    · exact not_endsInBlank_nil hblank
    · simp at heq
    · rw [lower_nil hx] at heq
      rw [(List.append_eq_nil_iff.1 heq.symm).1] at hblank
      exact not_endsInBlank_nil hblank
  · rintro ⟨front, p, hp, heq, -⟩
    rw [lower_nil hx] at heq
    have hleft := (List.append_eq_nil_iff.1 (List.append_eq_nil_iff.1 heq.symm).1).2
    rcases leftover_fst hp with hdot | ⟨hport, hne⟩
    · rw [hdot] at hleft
      cases hleft
    · exact hne (hport.symm.trans hleft)

/-- **Which URLs are canonical after one pass.** -/
theorem canonical_canonical_iff (hx : Lawful x) (url : Str) :
    normalizeUrlCanonical x (normalizeUrlCanonical x url) = normalizeUrlCanonical x url ↔
      CanonicalAtOnce x url := by
  by_cases hblank : strip url = []
  · refine iff_of_true ?_ (canonicalAtOnce_of_blank hx hblank)
    have hempty : normalizeUrlCanonical x url = [] := by
      unfold normalizeUrlCanonical
      rw [if_pos hblank]
    rw [hempty]
    rfl
  unfold CanonicalAtOnce
  rw [normalizeUrlCanonical_eq hx hblank]
  cases hparsed : urlsplit x (strip url) with
  | none =>
    dsimp only
    rw [normalizeUrlCanonical_eq hx (by rwa [strip_strip]), strip_strip, hparsed]
    exact iff_of_true rfl fun r hr => by cases hr
  | some r =>
    dsimp only
    simp only [Option.some.injEq, forall_eq']
    rw [← endsInBlank_urlunsplit_iff hx hparsed]
    by_cases hend : EndsInBlank (urlunsplit (canonicalParts x r))
    · exact iff_of_false (canonical_ne_of_endsInBlank hx hparsed hend) fun h => h.1 hend
    rw [and_iff_right hend]
    obtain ⟨hparts, hfragment, hexpands⟩ := components_canonicalParts hx hparsed
    have hstrip : strip (urlunsplit (canonicalParts x r)) = urlunsplit (canonicalParts x r) := by
      obtain ⟨c, tail, hscheme, hc⟩ := hparts.scheme_head
      change (canonicalParts x r).scheme = c :: tail at hscheme
      have htext := urlunsplit_eq hparts.scheme_ne_nil
      rw [hscheme] at htext
      rw [htext] at hend ⊢
      exact (strip_eq_self_iff (isSpace_of_isAsciiAlpha hc) _).2 hend
    have hne : urlunsplit (canonicalParts x r) ≠ [] := by
      rw [urlunsplit_eq hparts.scheme_ne_nil]
      simp
    rw [normalizeUrlCanonical_eq hx (by rwa [hstrip]), hstrip,
      urlsplit_urlunsplit_fragment x hparts hfragment]
    have htwice := cut_cut_ne_iff (usedScheme r) (x.lower r.netloc) fun netloc =>
      bracketsOk netloc = true
    unfold CutsTwice
    rw [← htwice]
    by_cases haccepted : bracketsOk (canonicalParts x r).netloc = true
    · rw [if_pos ⟨haccepted, hexpands⟩]
      dsimp only
      rw [canonicalParts_canonicalParts hx hparsed]
      by_cases hcut : cut (usedScheme r) (cut (usedScheme r) (x.lower r.netloc)) =
          cut (usedScheme r) (x.lower r.netloc)
      · rw [hcut]
        exact iff_of_true rfl fun h => h.1 rfl
      · exact iff_of_false (urlunsplit_ne hparts (cut_isPrefix _ _) hcut)
          fun h => h ⟨hcut, haccepted⟩
    · rw [if_neg fun h => haccepted h.1]
      exact iff_of_true rfl fun h => haccepted h.2

end ScamOn.Parsing
