import ScamOn.Lib.Chars
import ScamOn.Lib.Deletion

/-!
# Sanitised HTML

`sanitize_html_body` deletes what matches
`<(script|style|object|embed|iframe)[^>]*>.*?</\1>`, in one pass from left to right.

* `cutElement` is one match: the opening tag ends at the first `>`, and the element at the first
  closing tag of the same name behind it.
* `isSome_cutElement_iff` says where an element stands.
* `Rejoins` are the texts in which the deletion itself makes a new element: the name of an opening
  tag, or its closing tag, is interrupted by an element.
* `sanitizeHtmlBody_fixed_iff`: sanitising once more changes nothing exactly for the other texts.
-/

namespace ScamOn.Parsing

open Deletion

/-! ## One element -/

/-- The names of the elements. -/
def activeTags : List Str := ["script", "style", "object", "embed", "iframe"].map String.toList

/-- The letter of a pattern that a character matches under `re.IGNORECASE`. -/
def foldKey (c : Char) : Char :=
  if c = '\u0130' ∨ c = '\u0131' then 'i' else if c = '\u017F' then 's'
  else if c = '\u212A' then 'k' else c.toLower

/-- The lower case in which a back-reference is compared, for the characters that match letters. -/
def sreLower (c : Char) : Char :=
  if c = '\u0130' then 'i' else if c = '\u212A' then 'k' else c.toLower

/-- The name behind a `<`, as it is written. -/
def tagName (s : Str) : Option Str :=
  (activeTags.find? fun name => (s.take name.length).map foldKey = name).map fun name =>
    s.take name.length

/-- `</\1>`. -/
def closes (tag s : Str) : Bool :=
  (s.take (tag.length + 3)).map sreLower = ("</".toList ++ tag ++ ">".toList).map sreLower

/-- What follows the first closing tag. -/
def afterClosing (tag : Str) : Str → Option Str
  | [] => none
  | c :: s => if closes tag (c :: s) then some ((c :: s).drop (tag.length + 3)) else afterClosing tag s

/-- What follows a match at the front of a text. -/
def cutElement : Str → Option Str
  | '<' :: s =>
    (tagName s).bind fun tag =>
      match (s.drop tag.length).dropWhile (· ≠ '>') with
      | [] => none
      | _ :: body => afterClosing tag body
  | _ => none

/-- `sanitize_html_body`. -/
def sanitizeHtmlBody (htmlContent : Str) : Str := erase cutElement htmlContent

example : sanitizeHtmlBody "a<ScRipt x>1</script>b<style>c".toList = "ab<style>c".toList := by
  decide +kernel

/-! ## Where an element stands -/

/-- A name, in some case. -/
def IsName (tag : Str) : Prop := tag.map foldKey ∈ activeTags

/-- A closing tag of a name, in some case. -/
def IsClosing (tag closing : Str) : Prop :=
  closing.map sreLower = ("</".toList ++ tag ++ ">".toList).map sreLower

theorem length_of_isClosing {tag closing : Str} (h : IsClosing tag closing) :
    closing.length = tag.length + 3 := by
  have hlength := congrArg List.length h
  rw [List.length_map, List.length_map, List.length_append, List.length_append] at hlength
  have htwo : "</".toList.length = 2 := rfl
  have hone : ">".toList.length = 1 := rfl
  omega

/-- No name begins with another one. -/
theorem eq_of_prefix_activeTags : ∀ name ∈ activeTags, ∀ name' ∈ activeTags, name <+: name' →
    name = name' := by
  decide

/-- **The name** that is found is the one that stands there. -/
theorem tagName_append {tag u : Str} (h : IsName tag) : tagName (tag ++ u) = some tag := by
  have hmatch : (((tag ++ u).take (tag.map foldKey).length).map foldKey) = tag.map foldKey := by
    rw [List.length_map, List.take_left]
  cases hfound : activeTags.find? fun name => ((tag ++ u).take name.length).map foldKey = name with
  | none =>
    have hnone := List.find?_eq_none.1 hfound _ h
    exact absurd (decide_eq_true hmatch) hnone
  | some name =>
    have hname : ((tag ++ u).take name.length).map foldKey = name :=
      of_decide_eq_true (List.find?_some (p := fun name => decide
        (((tag ++ u).take name.length).map foldKey = name)) hfound)
    have hmem : name ∈ activeTags := List.mem_of_find?_eq_some hfound
    have hpre : name <+: (tag ++ u).map foldKey := by
      rw [← hname]
      exact (List.take_prefix _ _).map foldKey
    have hpre' : tag.map foldKey <+: (tag ++ u).map foldKey := (List.prefix_append tag u).map foldKey
    have heq : name = tag.map foldKey := by
      rcases Nat.le_total name.length (tag.map foldKey).length with hle | hle
      · exact eq_of_prefix_activeTags _ hmem _ h (List.prefix_of_prefix_length_le hpre hpre' hle)
      · exact (eq_of_prefix_activeTags _ h _ hmem (List.prefix_of_prefix_length_le hpre' hpre hle)).symm
    rw [tagName, hfound, Option.map_some, heq, List.length_map, List.take_left]

theorem exists_of_tagName {s tag : Str} (h : tagName s = some tag) :
    IsName tag ∧ ∃ u, s = tag ++ u := by
  obtain ⟨name, hfound, rfl⟩ := Option.map_eq_some_iff.1 h
  have hname := List.find?_some hfound
  refine ⟨?_, s.drop name.length, (List.take_append_drop _ _).symm⟩
  rw [IsName, of_decide_eq_true hname]
  exact List.mem_of_find?_eq_some hfound

theorem closes_iff {tag s : Str} :
    closes tag s = true ↔ ∃ closing, IsClosing tag closing ∧ closing <+: s := by
  rw [closes, decide_eq_true_eq]
  constructor
  · exact fun h => ⟨_, h, List.take_prefix _ _⟩
  · rintro ⟨closing, hclosing, rest, rfl⟩
    rw [← length_of_isClosing hclosing, List.take_left]
    exact hclosing

/-- What follows a closing tag ends the text. -/
theorem afterClosing_suffix {tag s r : Str} (h : afterClosing tag s = some r) : r <:+ s := by
  induction s with
  | nil => exact nomatch h
  | cons c s ih =>
    rw [afterClosing] at h
    split_ifs at h
    · cases h
      exact List.drop_suffix _ _
    · exact (ih h).trans (List.suffix_cons c s)

/-- **A closing tag** is found exactly if one stands somewhere. -/
theorem isSome_afterClosing_iff {tag s : Str} :
    (afterClosing tag s).isSome = true ↔ ∃ closing, IsClosing tag closing ∧ closing <:+: s := by
  induction s with
  | nil =>
    refine ⟨fun h => (nomatch h), ?_⟩
    rintro ⟨closing, hclosing, hinfix⟩
    have hlength := length_of_isClosing hclosing
    rw [List.infix_nil.1 hinfix] at hlength
    exact nomatch hlength
  | cons c s ih =>
    rw [afterClosing]
    by_cases hcloses : closes tag (c :: s) = true
    · rw [if_pos hcloses]
      obtain ⟨closing, hclosing, hpre⟩ := closes_iff.1 hcloses
      exact ⟨fun _ => ⟨closing, hclosing, hpre.isInfix⟩, fun _ => rfl⟩
    · rw [if_neg hcloses, ih]
      constructor
      · rintro ⟨closing, hclosing, hinfix⟩
        exact ⟨closing, hclosing, hinfix.trans (List.suffix_cons c s).isInfix⟩
      · rintro ⟨closing, hclosing, hinfix⟩
        rcases List.infix_cons_iff.1 hinfix with hpre | hinfix
        · exact absurd (closes_iff.2 ⟨closing, hclosing, hpre⟩) hcloses
        · exact ⟨closing, hclosing, hinfix⟩

/-- An element stands at the front of a text: an opening tag with a name, its end, and somewhere
behind it the closing tag. -/
theorem isSome_cutElement_iff {s : Str} :
    (cutElement s).isSome = true ↔
      ∃ tag u, IsName tag ∧ s = '<' :: tag ++ u ∧ ∃ closing body,
        u.dropWhile (· ≠ '>') = '>' :: body ∧ IsClosing tag closing ∧ closing <:+: body := by
  constructor
  · intro h
    unfold cutElement at h
    split at h
    · next s =>
      obtain ⟨r, hr⟩ := Option.isSome_iff_exists.1 h
      obtain ⟨tag, htag, hr⟩ := Option.bind_eq_some_iff.1 hr
      obtain ⟨hname, u, rfl⟩ := exists_of_tagName htag
      rw [List.drop_left] at hr
      split at hr
      · exact nomatch hr
      · next d body hbody =>
        have hd : d = '>' := by
          have hhead := List.head?_dropWhile_not (· ≠ '>') u
          rw [hbody] at hhead
          simpa using hhead
        obtain ⟨closing, hclosing, hinfix⟩ := isSome_afterClosing_iff.1 (by rw [hr]; rfl)
        exact ⟨tag, u, hname, rfl, closing, body, by rw [hbody, hd], hclosing, hinfix⟩
    · exact nomatch h
  · rintro ⟨tag, u, hname, rfl, closing, body, hbody, hclosing, hinfix⟩
    rw [List.cons_append, cutElement, tagName_append hname, Option.bind_some, List.drop_left, hbody]
    exact isSome_afterClosing_iff.2 ⟨closing, hclosing, hinfix⟩

theorem shortens_cutElement : Shortens cutElement := by
  intro s r h
  unfold cutElement at h
  split at h
  · next s =>
    obtain ⟨tag, -, hr⟩ := Option.bind_eq_some_iff.1 h
    split at hr
    · exact nomatch hr
    · next d body hbody =>
      have hsuffix : r <:+ s := by
        have hrest : d :: body <:+ s := hbody ▸ (List.dropWhile_suffix _).trans (List.drop_suffix _ _)
        exact ((afterClosing_suffix hr).trans (List.suffix_cons d body)).trans hrest
      exact ⟨hsuffix.trans (List.suffix_cons '<' s), Nat.lt_succ_of_le hsuffix.length_le⟩
  · exact nomatch h

/-- An element begins with `<`. -/
theorem cutElement_of_ne {c : Char} (hc : c ≠ '<') (s : Str) : cutElement (c :: s) = none := by
  unfold cutElement
  split
  · next heq => exact absurd (List.cons.inj heq).1 hc
  · rfl

/-! ## New elements -/

/-- The deletion makes a new element: read without the elements, the text has an opening tag, its
end, and a closing tag, of which the beginning of the opening tag or the closing tag does not stand
in the text in one piece. -/
def Rejoins (h : Str) : Prop :=
  ∃ tag attrs closing pre body h₁ h₂ h₃ h₄ h₅, IsName tag ∧ '>' ∉ attrs ∧ IsClosing tag closing ∧
    Reads cutElement h pre h₁ ∧ cutElement h₁ = none ∧ Reads cutElement h₁ ('<' :: tag) h₂ ∧
    Reads cutElement h₂ (attrs ++ ['>']) h₃ ∧
    Reads cutElement h₃ body h₄ ∧ cutElement h₄ = none ∧ Reads cutElement h₄ closing h₅ ∧
    ¬('<' :: tag <+: h₁ ∧ closing <+: h₄)

/-- The end of an opening tag, and what stands behind it. -/
theorem dropWhile_append_gt {attrs : Str} (hattrs : '>' ∉ attrs) (body : Str) :
    (attrs ++ '>' :: body).dropWhile (· ≠ '>') = '>' :: body := by
  have hall : ∀ c ∈ attrs, decide (c ≠ '>') = true := by
    rintro c hc
    exact decide_eq_true fun heq => hattrs (heq ▸ hc)
  rw [List.dropWhile_append_of_pos hall]
  rfl

/-- What stands behind some `>` stands behind the first one. -/
theorem exists_dropWhile_of_suffix {u z : Str} (h : '>' :: z <:+ u) :
    ∃ body, u.dropWhile (· ≠ '>') = '>' :: body ∧ z <:+ body := by
  induction u with
  | nil => exact absurd (List.suffix_nil.1 h) (List.cons_ne_nil _ _)
  | cons c u ih =>
    by_cases hc : c = '>'
    · subst hc
      refine ⟨u, rfl, ?_⟩
      rcases List.suffix_cons_iff.1 h with heq | hsuffix
      · rw [(List.cons.inj heq).2]
      · exact (List.suffix_cons _ _).trans hsuffix
    · have hdrop : (c :: u).dropWhile (· ≠ '>') = u.dropWhile (· ≠ '>') :=
        List.dropWhile_cons_of_pos (decide_eq_true hc)
      rw [hdrop]
      rcases List.suffix_cons_iff.1 h with heq | hsuffix
      · exact absurd (List.cons.inj heq).1.symm hc
      · exact ih hsuffix

/-- A character of a name is no `<`. -/
theorem ne_lt_of_mem_name {tag : Str} (h : IsName tag) : ∀ c ∈ tag, c ≠ '<' := by
  rintro c hc rfl
  have hmem : foldKey '<' ∈ tag.map foldKey := List.mem_map_of_mem hc
  have hnone : ∀ name ∈ activeTags, foldKey '<' ∉ name := by decide
  exact hnone _ h hmem

/-- In the beginning of an opening tag no element begins, except at its front. -/
theorem cutElement_in_opening {tag : Str} (h : IsName tag) {v v' : Str} (hv : v ≠ [])
    (hv' : v' ≠ []) (heq : '<' :: tag = v ++ v') (z : Str) : cutElement (v' ++ z) = none := by
  obtain ⟨c, v, rfl⟩ := List.exists_cons_of_ne_nil hv
  obtain ⟨d, v', rfl⟩ := List.exists_cons_of_ne_nil hv'
  rw [List.cons_append, List.cons.injEq] at heq
  refine cutElement_of_ne (ne_lt_of_mem_name h d ?_) _
  rw [heq.2]
  exact List.mem_append_right _ List.mem_cons_self

/-- What stands in the result as an element rejoins. -/
theorem rejoins_of_cut {h t : Str} (ht : t <:+ sanitizeHtmlBody h)
    (hcut : (cutElement t).isSome = true) : Rejoins h := by
  obtain ⟨pre, hpre⟩ := ht
  obtain ⟨tag, u, hname, rfl, closing, rest, hrest, hclosing, body, post, hbody⟩ :=
    isSome_cutElement_iff.1 hcut
  -- the pieces of the result, one behind the other
  have hu : u = u.takeWhile (· ≠ '>') ++ '>' :: (body ++ closing ++ post) := by
    rw [hbody, ← hrest, List.takeWhile_append_dropWhile]
  obtain ⟨h₀, hread₀, herase₀⟩ := exists_reads shortens_cutElement hpre.symm
  obtain ⟨h₂, hread₁, herase₂⟩ := exists_reads shortens_cutElement herase₀
  obtain ⟨t₁, hskip₁, hnone₁, htail₁⟩ := hread₁.head
  rw [hu, List.append_cons] at herase₂
  obtain ⟨h₃, hread₂, herase₃⟩ := exists_reads shortens_cutElement herase₂
  rw [List.append_assoc] at herase₃
  obtain ⟨k₀, hread₃, herase₄⟩ := exists_reads shortens_cutElement herase₃
  obtain ⟨d, closing', hclosing'⟩ : ∃ d closing', closing = d :: closing' := by
    cases closing with
    | nil => exact absurd (length_of_isClosing hclosing) (by simp)
    | cons d closing' => exact ⟨d, closing', rfl⟩
  obtain ⟨h₅, hread₄, -⟩ := exists_reads shortens_cutElement herase₄
  rw [hclosing'] at hread₄
  obtain ⟨t₄, hskip₄, hnone₄, htail₄⟩ := hread₄.head
  refine ⟨tag, u.takeWhile (· ≠ '>'), closing, pre, body, '<' :: t₁, h₂, h₃, d :: t₄, h₅, hname, ?_,
    hclosing, ?_, hnone₁, .keep hnone₁ htail₁, hread₂, ?_, hnone₄, ?_, ?_⟩
  · intro hmem
    have hall := List.all_takeWhile (p := (· ≠ '>')) (l := u)
    exact of_decide_eq_true (List.all_eq_true.1 hall _ hmem) rfl
  · simpa using hread₀.append hskip₁
  · simpa using hread₃.append hskip₄
  · rw [hclosing']
    exact .keep hnone₄ htail₄
  · -- in one piece, the tags would have made an element where the scan kept the first character
    rintro ⟨⟨u₁, hu₁⟩, hclose⟩
    have hsuffix₂ : h₂ <:+ u₁ := by
      have hread : Reads cutElement (tag ++ u₁) tag h₂ := by
        rw [List.cons_append, List.cons.injEq] at hu₁
        rw [hu₁.2]
        exact htail₁
      refine (hread.eq_append fun v v' hv' heq z => ?_).isSuffix shortens_cutElement
      exact cutElement_in_opening (v := '<' :: v) hname (List.cons_ne_nil _ _) hv' (by rw [heq]; rfl) z
    obtain ⟨t₂, hattrs, hgt⟩ := hread₂.split
    obtain ⟨z, hskip₂, -, hend⟩ := hgt.head
    have hgtsuffix : '>' :: z <:+ u₁ :=
      ((hskip₂.isSuffix shortens_cutElement).trans (hattrs.isSuffix shortens_cutElement)).trans
        hsuffix₂
    obtain ⟨body', hbody', hz⟩ := exists_dropWhile_of_suffix hgtsuffix
    have hclosesuffix : d :: t₄ <:+ body' :=
      (((hread₃.append hskip₄).isSuffix shortens_cutElement).trans
        (hend.isSuffix shortens_cutElement)).trans hz
    have hsome : (cutElement ('<' :: t₁)).isSome = true :=
      isSome_cutElement_iff.2 ⟨tag, u₁, hname, hu₁.symm, closing, body', hbody', hclosing,
        hclose.isInfix.trans hclosesuffix.isInfix⟩
    rw [hnone₁] at hsome
    exact nomatch hsome

/-- A text that rejoins has an element in its result. -/
theorem exists_cut_of_rejoins {h : Str} (hrejoins : Rejoins h) :
    ∃ t, t <:+ sanitizeHtmlBody h ∧ (cutElement t).isSome = true := by
  obtain ⟨tag, attrs, closing, pre, body, h₁, h₂, h₃, h₄, h₅, hname, hattrs, hclosing, hread, -,
    hread₁, hread₂, hread₃, -, hread₄, -⟩ := hrejoins
  have hresult : sanitizeHtmlBody h = pre ++ ('<' :: tag ++ (attrs ++ '>' :: (body ++ (closing ++
      erase cutElement h₅)))) := by
    rw [sanitizeHtmlBody, hread.erase_eq shortens_cutElement, hread₁.erase_eq shortens_cutElement,
      hread₂.erase_eq shortens_cutElement, hread₃.erase_eq shortens_cutElement,
      hread₄.erase_eq shortens_cutElement, List.append_assoc, List.singleton_append]
  refine ⟨_, hresult ▸ List.suffix_append _ _, isSome_cutElement_iff.2 ?_⟩
  refine ⟨tag, _, hname, rfl, closing, _, dropWhile_append_gt hattrs _, hclosing, ?_⟩
  exact ⟨body, erase cutElement h₅, List.append_assoc _ _ _⟩

/-- **Sanitised HTML is a fixed point** exactly if no element is left in it, and that is exactly if
the deletion does not make a new one. -/
theorem sanitizeHtmlBody_fixed_iff (h : Str) :
    (sanitizeHtmlBody (sanitizeHtmlBody h) = sanitizeHtmlBody h ↔
      ∀ t, t <:+ sanitizeHtmlBody h → cutElement t = none) ∧
    (sanitizeHtmlBody (sanitizeHtmlBody h) = sanitizeHtmlBody h ↔ ¬Rejoins h) := by
  have hfixed : sanitizeHtmlBody (sanitizeHtmlBody h) = sanitizeHtmlBody h ↔
      ∀ t, t <:+ sanitizeHtmlBody h → cutElement t = none :=
    erase_eq_self_iff shortens_cutElement _
  refine ⟨hfixed, hfixed.trans ⟨fun hnone hrejoins => ?_, fun hrejoins t ht => ?_⟩⟩
  · obtain ⟨t, ht, hcut⟩ := exists_cut_of_rejoins hrejoins
    rw [hnone t ht] at hcut
    exact nomatch hcut
  · cases hcut : cutElement t with
    | none => rfl
    | some r => exact absurd (rejoins_of_cut ht (by rw [hcut]; rfl)) hrejoins

/-- A script inside of the name of a script leaves a script. -/
theorem sanitize_leaves_script :
    sanitizeHtmlBody "<scr<script></script>ipt>alert(1)</script>".toList =
        "<script>alert(1)</script>".toList ∧
      sanitizeHtmlBody (sanitizeHtmlBody "<scr<script></script>ipt>alert(1)</script>".toList) ≠
        sanitizeHtmlBody "<scr<script></script>ipt>alert(1)</script>".toList := by
  decide +kernel

end ScamOn.Parsing
