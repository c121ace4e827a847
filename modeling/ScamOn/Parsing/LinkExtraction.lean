import Mathlib.Data.List.Induction
import ScamOn.Lib.HtmlEvents
import ScamOn.Lib.Pattern
import ScamOn.Parsing.UrlExtractor

/-!
# Links of a message

`extract_urls_from_html` feeds a body to an extractor that keeps one pending anchor;
`extract_urls_from_text` takes what looks like a URL.  Each link becomes a DTO by `parse_url_entity`.

* `Closed` describes the anchors that the extractor delivers: opened by a tag with a target, and
  closed before another such tag or another closing tag comes.
* `mem_links_iff`: the extractor delivers exactly these.
* `noAnchorEscapes_iff` is the exact condition under which no anchor with a web address escapes.
-/

namespace ScamOn.Parsing

open Chars UrlParse

/-! ## One link -/

/-- `[a-zA-Z0-9-]` under `re.IGNORECASE`. -/
def isHostChar (c : Char) : Bool := Pattern.isLetterFold c || ('0' ≤ c ∧ c ≤ '9') || c = '-'

/-- `[^\s<>'"\)]`. -/
def isPathChar (c : Char) : Bool := !(Text.isSpace c || ['<', '>', '\'', '"', ')'].contains c)

/-- `URL_REGEX`. -/
def urlRegex : Pattern :=
  .cat [.litFold "http", .opt (.litFold "s"), .lit "://",
    .plus (.cat [.plus (.set isHostChar), .lit "."]), .atLeast 2 (.set Pattern.isLetterFold),
    .opt (.cat [.lit ":", .plus (.set fun c => (Text.decimalDigit? c).isSome)]),
    .opt (.cat [.lit "/", .star (.set isPathChar)])]

/-- `ExtractedURLDTO`. -/
structure ExtractedUrlDto where
  url : Str
  scheme : Str
  domain : Str
  anchorText : Option Str
  isMismatched : Bool
  isShortened : Bool
  deriving DecidableEq

section Entity

variable (x : Unicode)

/-- Whether a text shows the URL of another domain; `none` is an exception. -/
def showsOtherDomain (domain anchorText : Str) : Option Bool :=
  if anchorText = [] then some false
  else
    match urlRegex.search (strip anchorText) with
    | none => some false
    | some displayed =>
      (urlparse x [] displayed.text).map fun parsed =>
        decide (x.lower parsed.netloc ≠ [] ∧ x.lower parsed.netloc ≠ domain)

/-- `parse_url_entity`. -/
def parseUrlEntity (targetUrl : Str) (anchorText : Option Str) : Option ExtractedUrlDto :=
  if strip targetUrl = [] then none
  else
    let cleaned := normalizeUrlCanonical x targetUrl
    (urlparse x [] cleaned).bind fun parsed =>
      if parsed.netloc = [] then none
      else
        (showsOtherDomain x parsed.netloc (anchorText.getD [])).map fun mismatched =>
          {
            url := cleaned
            scheme := parsed.scheme
            domain := parsed.netloc
            anchorText := anchorText.bind fun text => if text = [] then none else some (strip text)
            isMismatched := mismatched
            isShortened := isShortener parsed.netloc
          }

variable {x} {targetUrl : Str} {anchorText : Option Str} {dto : ExtractedUrlDto}

/-- A DTO carries the canonical URL of its target. -/
theorem url_parseUrlEntity (h : parseUrlEntity x targetUrl anchorText = some dto) :
    dto.url = normalizeUrlCanonical x targetUrl := by
  unfold parseUrlEntity at h
  split_ifs at h
  obtain ⟨parsed, -, h⟩ := Option.bind_eq_some_iff.1 h
  split_ifs at h
  obtain ⟨mismatched, -, h⟩ := Option.map_eq_some_iff.1 h
  rw [← h]

end Entity

/-! ## Anchors -/

/-- `_HTMLAnchorExtractor`. -/
structure AnchorExtractor where
  links : List (Str × Str) := []
  currentHref : Option Str := none
  currentText : List Str := []
  deriving DecidableEq

section Anchors

variable (x : Unicode)

/-- One turn of the loop over the attributes of an anchor. -/
def AnchorExtractor.attribute (e : AnchorExtractor) (attr : Str × Option Str) : AnchorExtractor :=
  if x.lower attr.1 = "href".toList ∧ attr.2.getD [] ≠ [] then
    { e with currentHref := attr.2, currentText := [] }
  else e

/-- `handle_starttag`, `handle_endtag` and `handle_data`. -/
def AnchorExtractor.handle (e : AnchorExtractor) : HtmlEvent → AnchorExtractor
  | .startTag tag attrs =>
    if x.lower tag = "a".toList then attrs.foldl (AnchorExtractor.attribute x) e else e
  | .endTag tag =>
    match e.currentHref with
    | some href =>
      if x.lower tag = "a".toList then
        {
          links := e.links ++ [(href, strip (List.intercalate [' '] e.currentText))]
          currentHref := none
          currentText := []
        }
      else e
    | none => e
  | .data text =>
    if e.currentHref.isSome ∧ strip text ≠ [] then
      { e with currentText := e.currentText ++ [strip text] }
    else e

/-- The extractor after some events. -/
def anchors (events : List HtmlEvent) : AnchorExtractor := events.foldl (AnchorExtractor.handle x) {}

/-- `href.startswith("http://") or href.startswith("https://")`. -/
def startsWithWeb (href : Str) : Bool :=
  "http://".toList.isPrefixOf href || "https://".toList.isPrefixOf href

/-- The loop over the links. -/
def urlsOfEvents (events : List HtmlEvent) : List ExtractedUrlDto :=
  (anchors x events).links.filterMap fun link =>
    if startsWithWeb link.1 then parseUrlEntity x link.1 (some link.2) else none

/-- `extract_urls_from_html`, for the events of a body, if feeding it does not raise. -/
def extractUrlsFromHtml (feed : Str → Option (List HtmlEvent)) (htmlContent : Str) :
    List ExtractedUrlDto :=
  if htmlContent = [] then [] else ((feed htmlContent).map (urlsOfEvents x)).getD []

/-- `extract_urls_from_text`. -/
def extractUrlsFromText (text : Str) : List ExtractedUrlDto :=
  (urlRegex.finditer text).filterMap fun found => parseUrlEntity x found.text none

/-! ## What the extractor delivers -/

/-- The target of an anchor: its last `href` that is not empty. -/
def targetOf (attrs : List (Str × Option Str)) : Option Str :=
  (attrs.reverse.find? fun attr => x.lower attr.1 = "href".toList ∧ attr.2.getD [] ≠ []).bind
    Prod.snd

/-- The texts between the tags, without blank ones. -/
def textsBetween : List HtmlEvent → List Str
  | [] => []
  | .data text :: events => if strip text = [] then textsBetween events
    else strip text :: textsBetween events
  | _ :: events => textsBetween events

/-- The event leaves a pending anchor as it is: no other target, no closing tag. -/
def KeepsAnchor : HtmlEvent → Prop
  | .startTag tag attrs => x.lower tag = "a".toList → targetOf x attrs = none
  | .endTag tag => x.lower tag ≠ "a".toList
  | .data _ => True

/-- An anchor is open at the end of some events, with the texts since its tag. -/
def Pending (events : List HtmlEvent) (href : Str) (texts : List Str) : Prop :=
  ∃ before tag attrs middle, events = before ++ .startTag tag attrs :: middle ∧
    x.lower tag = "a".toList ∧ targetOf x attrs = some href ∧ (∀ e ∈ middle, KeepsAnchor x e) ∧
    texts = textsBetween middle

/-- An anchor is opened and closed, with a text. -/
def Closed (events : List HtmlEvent) (href text : Str) : Prop :=
  ∃ before tag after texts, events = before ++ .endTag tag :: after ∧ x.lower tag = "a".toList ∧
    Pending x before href texts ∧ strip (List.intercalate [' '] texts) = text

variable {x} {events : List HtmlEvent} {href : Str} {texts : List Str}

@[simp] theorem anchors_concat (events : List HtmlEvent) (event : HtmlEvent) :
    anchors x (events ++ [event]) = (anchors x events).handle x event :=
  List.foldl_concat ..

theorem textsBetween_append (middle middle' : List HtmlEvent) :
    textsBetween (middle ++ middle') = textsBetween middle ++ textsBetween middle' := by
  induction middle with
  | nil => rfl
  | cons event middle ih =>
    cases event with
    | startTag tag attrs => exact ih
    | endTag tag => exact ih
    | data text =>
      rw [List.cons_append, textsBetween, textsBetween, ih]
      split_ifs <;> rfl

/-- What the loop over the attributes leaves. -/
theorem foldl_attribute (e : AnchorExtractor) (attrs : List (Str × Option Str)) :
    attrs.foldl (AnchorExtractor.attribute x) e =
      match targetOf x attrs with
      | some href => { e with currentHref := some href, currentText := [] }
      | none => e := by
  induction attrs using List.reverseRecOn generalizing e with
  | nil => rfl
  | append_singleton attrs attr ih =>
    have hlast : targetOf x (attrs ++ [attr]) =
        if x.lower attr.1 = "href".toList ∧ attr.2.getD [] ≠ [] then attr.2
        else targetOf x attrs := by
      rw [targetOf, List.reverse_concat, List.find?_cons]
      split_ifs with hattr
      · rw [decide_eq_true hattr]
        rfl
      · rw [decide_eq_false hattr]
        rfl
    rw [List.foldl_concat, ih, hlast]
    by_cases hattr : x.lower attr.1 = "href".toList ∧ attr.2.getD [] ≠ []
    · obtain ⟨href, hhref⟩ : ∃ href, attr.2 = some href := by
        cases hvalue : attr.2 with
        | none => exact absurd (by rw [hvalue]; rfl) hattr.2
        | some href => exact ⟨href, rfl⟩
      rw [AnchorExtractor.attribute, if_pos hattr, if_pos hattr, hhref]
      cases targetOf x attrs <;> rfl
    · rw [AnchorExtractor.attribute, if_neg hattr, if_neg hattr]

/-- A start tag with a target opens an anchor. -/
theorem handle_open {e : AnchorExtractor} {tag : Str} {attrs : List (Str × Option Str)}
    (htag : x.lower tag = "a".toList) (htarget : targetOf x attrs = some href) :
    e.handle x (.startTag tag attrs) = { e with currentHref := some href, currentText := [] } := by
  rw [AnchorExtractor.handle, if_pos htag, foldl_attribute, htarget]

/-- The end tag of an anchor delivers it. -/
theorem handle_close {e : AnchorExtractor} {tag : Str} (htag : x.lower tag = "a".toList)
    (hcurrent : e.currentHref = some href) :
    e.handle x (.endTag tag) =
      {
        links := e.links ++ [(href, strip (List.intercalate [' '] e.currentText))]
        currentHref := none
        currentText := []
      } := by
  rw [AnchorExtractor.handle, hcurrent]
  exact if_pos htag

/-- Without an anchor, an end tag does nothing. -/
theorem handle_endTag_of_none {e : AnchorExtractor} (tag : Str) (hcurrent : e.currentHref = none) :
    e.handle x (.endTag tag) = e := by
  rw [AnchorExtractor.handle, hcurrent]

/-- Any other event leaves the anchor, and adds its text if there is one. -/
theorem handle_of_keepsAnchor {e : AnchorExtractor} {event : HtmlEvent}
    (hkeep : KeepsAnchor x event) :
    (e.handle x event).links = e.links ∧ (e.handle x event).currentHref = e.currentHref ∧
      (e.currentHref.isSome = true →
        (e.handle x event).currentText = e.currentText ++ textsBetween [event]) := by
  cases event with
  | startTag tag attrs =>
    have hsame : e.handle x (.startTag tag attrs) = e := by
      rw [AnchorExtractor.handle, foldl_attribute]
      split_ifs with htag
      · rw [hkeep htag]
      · rfl
    rw [hsame]
    exact ⟨rfl, rfl, fun _ => (List.append_nil _).symm⟩
  | endTag tag =>
    have hsame : e.handle x (.endTag tag) = e := by
      rw [AnchorExtractor.handle]
      split
      · exact if_neg hkeep
      · rfl
    rw [hsame]
    exact ⟨rfl, rfl, fun _ => (List.append_nil _).symm⟩
  | data text =>
    rw [AnchorExtractor.handle, textsBetween, textsBetween]
    by_cases htext : strip text = []
    · rw [if_neg fun h => h.2 htext, if_pos htext, List.append_nil]
      exact ⟨rfl, rfl, fun _ => rfl⟩
    · rw [if_neg htext]
      by_cases hcurrent : e.currentHref.isSome = true
      · rw [if_pos ⟨hcurrent, htext⟩]
        exact ⟨rfl, rfl, fun _ => rfl⟩
      · rw [if_neg fun h => hcurrent h.1]
        exact ⟨rfl, rfl, fun h => absurd h hcurrent⟩

/-- Links are only added. -/
theorem links_subset_handle (e : AnchorExtractor) (event : HtmlEvent) :
    e.links ⊆ (e.handle x event).links := by
  cases event with
  | startTag tag attrs =>
    rw [AnchorExtractor.handle, foldl_attribute]
    split_ifs
    · cases targetOf x attrs <;> exact List.Subset.refl _
    · exact List.Subset.refl _
  | endTag tag =>
    rw [AnchorExtractor.handle]
    split
    · split_ifs
      · exact List.subset_append_left _ _
      · exact List.Subset.refl _
    · exact List.Subset.refl _
  | data text => exact (@handle_of_keepsAnchor x e (.data text) trivial).1 ▸ List.Subset.refl _

theorem links_subset_foldl (e : AnchorExtractor) (events : List HtmlEvent) :
    e.links ⊆ (events.foldl (AnchorExtractor.handle x) e).links := by
  induction events generalizing e with
  | nil => exact List.Subset.refl _
  | cons event events ih => exact List.Subset.trans (links_subset_handle e event) (ih _)

/-- An anchor that is pending, while it is left as it is. -/
theorem foldl_of_keepsAnchor {e : AnchorExtractor} (hpending : e.currentHref = some href)
    {middle : List HtmlEvent} (hkeep : ∀ event ∈ middle, KeepsAnchor x event) :
    (middle.foldl (AnchorExtractor.handle x) e).currentHref = some href ∧
      (middle.foldl (AnchorExtractor.handle x) e).currentText =
        e.currentText ++ textsBetween middle := by
  induction middle generalizing e with
  | nil => exact ⟨hpending, (List.append_nil _).symm⟩
  | cons event middle ih =>
    obtain ⟨-, hhref, htext⟩ := @handle_of_keepsAnchor x e event (hkeep event List.mem_cons_self)
    obtain ⟨ihhref, ihtext⟩ := ih (hhref.trans hpending) fun event' h =>
      hkeep event' (List.mem_cons_of_mem _ h)
    refine ⟨ihhref, ihtext.trans ?_⟩
    rw [htext (by rw [hpending]; rfl), List.append_assoc, ← textsBetween_append,
      List.singleton_append]

/-- **A pending anchor** is the one the extractor keeps. -/
theorem anchors_of_pending (h : Pending x events href texts) :
    (anchors x events).currentHref = some href ∧ (anchors x events).currentText = texts := by
  obtain ⟨before, tag, attrs, middle, rfl, htag, htarget, hkeep, rfl⟩ := h
  have hrun : anchors x (before ++ .startTag tag attrs :: middle) =
      middle.foldl (AnchorExtractor.handle x)
        { anchors x before with currentHref := some href, currentText := [] } := by
    rw [anchors, List.foldl_append, List.foldl_cons, ← handle_open htag htarget]
    rfl
  rw [hrun]
  exact foldl_of_keepsAnchor rfl hkeep

/-- An event that leaves the anchor as it is extends a pending one. -/
theorem Pending.concat (h : Pending x events href texts) {event : HtmlEvent}
    (hkeep : KeepsAnchor x event) :
    Pending x (events ++ [event]) href (texts ++ textsBetween [event]) := by
  obtain ⟨before, tag, attrs, middle, rfl, htag, htarget, hmiddle, rfl⟩ := h
  refine ⟨before, tag, attrs, middle ++ [event], by simp, htag, htarget, ?_,
    (textsBetween_append _ _).symm⟩
  intro e he
  rcases List.mem_append.1 he with he | he
  · exact hmiddle e he
  · rw [List.mem_singleton.1 he]
    exact hkeep

/-- An end tag closes a pending anchor. -/
theorem Pending.close (h : Pending x events href texts) {tag : Str} (htag : x.lower tag = "a".toList) :
    Closed x (events ++ [.endTag tag]) href (strip (List.intercalate [' '] texts)) :=
  ⟨events, tag, [], texts, rfl, htag, h, rfl⟩

theorem Closed.concat {text : Str} (h : Closed x events href text) (event : HtmlEvent) :
    Closed x (events ++ [event]) href text := by
  obtain ⟨before, tag, after, texts, rfl, htag, hpending, rfl⟩ := h
  exact ⟨before, tag, after ++ [event], texts, by simp, htag, hpending, rfl⟩

/-- What the extractor keeps is pending, and what it delivered is closed. -/
structure Accounted (x : Unicode) (events : List HtmlEvent) : Prop where
  pending : ∀ href, (anchors x events).currentHref = some href →
    Pending x events href (anchors x events).currentText
  closed : ∀ link ∈ (anchors x events).links, Closed x events link.1 link.2

theorem Accounted.concat (h : Accounted x events) (event : HtmlEvent) :
    Accounted x (events ++ [event]) := by
  by_cases hkeep : KeepsAnchor x event
  · obtain ⟨hlinks, hhref, htext⟩ := @handle_of_keepsAnchor x (anchors x events) event hkeep
    constructor
    · intro href hcurrent
      rw [anchors_concat, hhref] at hcurrent
      rw [anchors_concat, htext (by rw [hcurrent]; rfl)]
      exact (h.pending href hcurrent).concat hkeep
    · intro link hlink
      rw [anchors_concat, hlinks] at hlink
      exact (h.closed link hlink).concat event
  · cases event with
    | startTag tag attrs =>
      rw [KeepsAnchor, Classical.not_imp] at hkeep
      obtain ⟨htag, htarget⟩ := hkeep
      obtain ⟨target, htarget⟩ := Option.ne_none_iff_exists'.1 htarget
      constructor
      · intro href hcurrent
        rw [anchors_concat, handle_open htag htarget] at hcurrent ⊢
        exact ⟨events, tag, attrs, [], rfl, htag, htarget.trans hcurrent,
          fun _ hmem => absurd hmem List.not_mem_nil, rfl⟩
      · intro link hlink
        rw [anchors_concat, handle_open htag htarget] at hlink
        exact (h.closed link hlink).concat _
    | endTag tag =>
      have htag : x.lower tag = "a".toList := not_not.1 hkeep
      cases hcurrent : (anchors x events).currentHref with
      | none =>
        constructor
        · intro href hcurrent'
          rw [anchors_concat, handle_endTag_of_none tag hcurrent, hcurrent] at hcurrent'
          exact nomatch hcurrent'
        · intro link hlink
          rw [anchors_concat, handle_endTag_of_none tag hcurrent] at hlink
          exact (h.closed link hlink).concat _
      | some target =>
        constructor
        · intro href hcurrent'
          rw [anchors_concat, handle_close htag hcurrent] at hcurrent'
          exact nomatch hcurrent'
        · intro link hlink
          rw [anchors_concat, handle_close htag hcurrent] at hlink
          rcases List.mem_append.1 hlink with hlink | hlink
          · exact (h.closed link hlink).concat _
          · have hclosed := (h.pending target hcurrent).close htag
            simpa only [List.mem_singleton.1 hlink] using hclosed
    | data text => exact absurd trivial hkeep

theorem accounted (events : List HtmlEvent) : Accounted x events := by
  induction events using List.reverseRecOn with
  | nil => exact ⟨fun _ h => (nomatch h), fun _ h => absurd h List.not_mem_nil⟩
  | append_singleton events event ih => exact ih.concat event

/-- **The extractor delivers** exactly the anchors that are closed. -/
theorem mem_links_iff {text : Str} :
    (href, text) ∈ (anchors x events).links ↔ Closed x events href text := by
  constructor
  · exact (accounted events).closed (href, text)
  rintro ⟨before, tag, after, texts, rfl, htag, hpending, rfl⟩
  obtain ⟨hhref, htexts⟩ := anchors_of_pending hpending
  have hclose : (href, strip (List.intercalate [' '] texts)) ∈
      ((anchors x before).handle x (.endTag tag)).links := by
    rw [handle_close htag hhref, htexts]
    exact List.mem_append_right _ (List.mem_singleton_self _)
  have hrun : anchors x (before ++ .endTag tag :: after) =
      after.foldl (AnchorExtractor.handle x) ((anchors x before).handle x (.endTag tag)) := by
    rw [anchors, List.foldl_append, List.foldl_cons]
    rfl
  rw [hrun]
  exact links_subset_foldl _ after hclose

/-- A DTO stems from a closed anchor with a plain web address. -/
theorem mem_urlsOfEvents_iff {dto : ExtractedUrlDto} :
    dto ∈ urlsOfEvents x events ↔ ∃ href text, Closed x events href text ∧
      startsWithWeb href = true ∧ parseUrlEntity x href (some text) = some dto := by
  rw [urlsOfEvents, List.mem_filterMap]
  constructor
  · rintro ⟨link, hlink, hdto⟩
    split_ifs at hdto with hweb
    exact ⟨link.1, link.2, mem_links_iff.1 hlink, hweb, hdto⟩
  · rintro ⟨href, text, hclosed, hweb, hdto⟩
    exact ⟨(href, text), mem_links_iff.2 hclosed, by rw [if_pos hweb, hdto]⟩

end Anchors

/-! ## No anchor escapes -/

/-- The address begins, after blanks, with `http://` or `https://` in any case. -/
def isWebAddress (href : Str) : Bool := startsWithWeb ((strip href).map Char.toLower)

/-- Some anchor of a body has the address as one of its targets. -/
def HasAnchor (x : Unicode) (events : List HtmlEvent) (href : Str) : Prop :=
  ∃ tag attrs name, .startTag tag attrs ∈ events ∧ x.lower tag = "a".toList ∧
    (name, some href) ∈ attrs ∧ x.lower name = "href".toList

/-- Each web address of an anchor, if it is accepted, is the URL of a link. -/
def NoAnchorEscapes (x : Unicode) (events : List HtmlEvent) : Prop :=
  ∀ href, HasAnchor x events href → isWebAddress href = true →
    (parseUrlEntity x href none).isSome = true →
    ∃ dto ∈ urlsOfEvents x events, dto.url = normalizeUrlCanonical x href

/-- **No anchor escapes** exactly if each web address of an anchor is also that of an anchor that is
closed before another one opens or closes, and whose target is written without blanks in front and
with a scheme in lower case. -/
theorem noAnchorEscapes_iff (x : Unicode) (events : List HtmlEvent) :
    NoAnchorEscapes x events ↔
      ∀ href, HasAnchor x events href → isWebAddress href = true →
        (parseUrlEntity x href none).isSome = true →
        ∃ href' text, Closed x events href' text ∧ startsWithWeb href' = true ∧
          (parseUrlEntity x href' (some text)).isSome = true ∧
          normalizeUrlCanonical x href' = normalizeUrlCanonical x href := by
  constructor
  · intro h href hanchor hweb haccept
    obtain ⟨dto, hdto, hurl⟩ := h href hanchor hweb haccept
    obtain ⟨href', text, hclosed, hplain, hparse⟩ := mem_urlsOfEvents_iff.1 hdto
    refine ⟨href', text, hclosed, hplain, by rw [hparse]; rfl, ?_⟩
    rw [← url_parseUrlEntity hparse, hurl]
  · intro h href hanchor hweb haccept
    obtain ⟨href', text, hclosed, hplain, hsome, hsame⟩ := h href hanchor hweb haccept
    obtain ⟨dto, hparse⟩ := Option.isSome_iff_exists.1 hsome
    refine ⟨dto, mem_urlsOfEvents_iff.2 ⟨href', text, hclosed, hplain, hparse⟩, ?_⟩
    rw [url_parseUrlEntity hparse, hsame]

/-- An anchor, closed or not. -/
def anchorEvents (href : String) (closed : Bool) : List HtmlEvent :=
  [.startTag "a".toList [("href".toList, some href.toList)], .data "Sign in".toList] ++
    if closed then [.endTag "a".toList] else []

theorem hasAnchor_anchorEvents (href : String) (closed : Bool) :
    HasAnchor asciiUnicode (anchorEvents href closed) href.toList :=
  ⟨"a".toList, _, "href".toList, List.mem_append_left _ List.mem_cons_self, by decide,
    List.mem_cons_self, by decide⟩

/-- A target whose scheme is in upper case escapes, and so does an anchor that is not closed. -/
theorem anchor_escapes :
    ¬NoAnchorEscapes asciiUnicode (anchorEvents "HTTP://evil.example" true) ∧
      ¬NoAnchorEscapes asciiUnicode (anchorEvents "http://evil.example" false) := by
  constructor
  · intro h
    obtain ⟨dto, hdto, -⟩ := h _ (hasAnchor_anchorEvents _ _) (by decide +kernel) (by decide +kernel)
    have hnone : urlsOfEvents asciiUnicode (anchorEvents "HTTP://evil.example" true) = [] := by
      decide +kernel
    exact List.not_mem_nil (hnone ▸ hdto)
  · intro h
    obtain ⟨dto, hdto, -⟩ := h _ (hasAnchor_anchorEvents _ _) (by decide +kernel) (by decide +kernel)
    have hnone : urlsOfEvents asciiUnicode (anchorEvents "http://evil.example" false) = [] := by
      decide +kernel
    exact List.not_mem_nil (hnone ▸ hdto)

end ScamOn.Parsing
