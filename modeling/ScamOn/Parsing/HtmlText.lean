import ScamOn.Lib.HtmlEvents
import ScamOn.Lib.Pattern
import ScamOn.Parsing.UrlExtractor

/-!
# The text of an HTML body

`extract_text_from_html` feeds a body to an extractor that keeps one flag: a start tag of one of
five names sets it, an end tag of one of these names clears it, and what is read while it is set is
dropped.

* `Rendered` is what decides whether a text is shown: no script, style, iframe or object is open.
* `ignore_extractor` says what the flag is: the last of the five tags is a start tag.
* `contributes_iff_rendered_iff` is the exact condition under which the extractor keeps what is
  shown: no text follows an embed outside of every element, or an end tag inside of one.
-/

namespace ScamOn.Parsing

open Chars

/-- What the extractor uses besides its own code: `str.lower`, the normal form NFKC, and the events
of `HTMLParser.feed`, if it does not raise. -/
structure HtmlLibrary where
  lower : Str → Str
  nfkc : Str → Str
  feed : Str → Option (List HtmlEvent)

/-! ## Unicode -/

/-- `ZERO_WIDTH_CHARS`. -/
def isZeroWidth (c : Char) : Bool := [0x200B, 0x200C, 0x200D, 0xFEFF, 0x202E].contains c.toNat

/-- `detect_zero_width_chars`. -/
def detectZeroWidthChars (text : Str) : Bool := text.any isZeroWidth

/-- `strip_zero_width_chars`. -/
def stripZeroWidthChars (text : Str) : Str := text.filter fun c => !isZeroWidth c

/-- `normalize_unicode_nfkc`. -/
def normalizeUnicodeNfkc (lib : HtmlLibrary) (text : Str) : Str :=
  if text = [] then [] else lib.nfkc (stripZeroWidthChars text)

/-! ## The extractor -/

/-- The tags the extractor listens to. -/
def ignoredTags : List Str := ["script", "style", "iframe", "object", "embed"].map String.toList

/-- `_HTMLTextExtractor`. -/
structure TextExtractor where
  result : List Str := []
  ignore : Bool := false
  deriving DecidableEq

section Extractor

variable (lib : HtmlLibrary)

/-- A tag of the list. -/
def isIgnored (tag : Str) : Bool := ignoredTags.contains tag

/-- `handle_starttag`, `handle_endtag` and `handle_data`. -/
def TextExtractor.handle (e : TextExtractor) : HtmlEvent → TextExtractor
  | .startTag tag _ => if isIgnored (lib.lower tag) then { e with ignore := true } else e
  | .endTag tag => if isIgnored (lib.lower tag) then { e with ignore := false } else e
  | .data text =>
    if !e.ignore && strip text ≠ [] then { e with result := e.result ++ [strip text] } else e

/-- The extractor after some events. -/
def extractor (events : List HtmlEvent) : TextExtractor := events.foldl (TextExtractor.handle lib) {}

/-- The text of the events of a body. -/
def textOfEvents (events : List HtmlEvent) : Str :=
  normalizeUnicodeNfkc lib (List.intercalate [' '] (extractor lib events).result)

/-- `<[^>]+>`. -/
def anyTag : Pattern := .cat [.lit "<", .plus (.set (· ≠ '>')), .lit ">"]

/-- `extract_text_from_html`. -/
def extractTextFromHtml (htmlContent : Str) : Str :=
  if strip htmlContent = [] then []
  else
    match lib.feed htmlContent with
    | some events => textOfEvents lib events
    | none => normalizeUnicodeNfkc lib (anyTag.sub [' '] htmlContent)

/-! ## What is shown -/

/-- The elements whose content is not shown; an embed is void. -/
def hidesContent (tag : Str) : Bool :=
  (["script", "style", "iframe", "object"].map String.toList).contains tag

/-- No element that hides its content is open after some events. -/
def Rendered (before : List HtmlEvent) : Prop := openElements lib.lower hidesContent before = []

instance (before : List HtmlEvent) : Decidable (Rendered lib before) :=
  decEq (openElements lib.lower hidesContent before) []

/-- A text after some events is added to the result. -/
def Contributes (before : List HtmlEvent) (text : Str) : Prop :=
  (extractor lib (before ++ [.data text])).result = (extractor lib before).result ++ [strip text]

instance (before : List HtmlEvent) (text : Str) : Decidable (Contributes lib before text) :=
  decEq (extractor lib (before ++ [HtmlEvent.data text])).result
    ((extractor lib before).result ++ [strip text])

/-- The last tag the extractor listened to. -/
def lastIgnored (before : List HtmlEvent) : Option HtmlEvent := lastTag lib.lower isIgnored before

/-- The flag has not lost track of the elements: if the last tag is that of an embed, some element is
open, and if it is an end tag, none is. -/
structure OnTrack (before : List HtmlEvent) : Prop where
  embed : ∀ tag attrs, lastIgnored lib before = some (.startTag tag attrs) →
    lib.lower tag = "embed".toList → ¬Rendered lib before
  endTag : ∀ tag, lastIgnored lib before = some (.endTag tag) → Rendered lib before

/-- The texts that are shown, in order, with some events read already. -/
def renderedTexts (before : List HtmlEvent) : List HtmlEvent → List Str
  | [] => []
  | .data text :: events =>
    if strip text ≠ [] ∧ Rendered lib before then
      strip text :: renderedTexts (before ++ [.data text]) events
    else renderedTexts (before ++ [.data text]) events
  | .startTag tag attrs :: events => renderedTexts (before ++ [.startTag tag attrs]) events
  | .endTag tag :: events => renderedTexts (before ++ [.endTag tag]) events

variable {lib} {before events : List HtmlEvent} {text : Str}

@[simp] theorem extractor_concat (events : List HtmlEvent) (event : HtmlEvent) :
    extractor lib (events ++ [event]) = (extractor lib events).handle lib event :=
  List.foldl_concat ..

/-- **The flag** is set exactly if the last tag that was listened to is a start tag. -/
theorem ignore_extractor (events : List HtmlEvent) :
    (extractor lib events).ignore = (lastIgnored lib events).any HtmlEvent.isStart := by
  unfold lastIgnored
  induction events using List.reverseRecOn with
  | nil => rfl
  | append_singleton events event ih =>
    rw [extractor_concat, lastTag_concat]
    cases event with
    | startTag tag attrs =>
      by_cases htag : isIgnored (lib.lower tag) = true
      · simp [TextExtractor.handle, HtmlEvent.tag?, HtmlEvent.isStart, htag]
      · simpa [TextExtractor.handle, HtmlEvent.tag?, htag] using ih
    | endTag tag =>
      by_cases htag : isIgnored (lib.lower tag) = true
      · simp [TextExtractor.handle, HtmlEvent.tag?, HtmlEvent.isStart, htag]
      · simpa [TextExtractor.handle, HtmlEvent.tag?, htag] using ih
    | data text =>
      have hsame : ((extractor lib events).handle lib (.data text)).ignore =
          (extractor lib events).ignore := by
        simp only [TextExtractor.handle]
        split_ifs <;> rfl
      simpa [hsame, HtmlEvent.tag?] using ih

/-- The tags of the list are those that hide their content, and the embed. -/
theorem isIgnored_iff {tag : Str} :
    isIgnored tag = true ↔ hidesContent tag = true ∨ tag = "embed".toList := by
  have hsplit : ignoredTags =
      ["script", "style", "iframe", "object"].map String.toList ++ ["embed".toList] := rfl
  rw [isIgnored, hidesContent, List.contains_iff_mem, List.contains_iff_mem, hsplit,
    List.mem_append, List.mem_singleton]

theorem isIgnored_of_hidesContent (tag : Str) (h : hidesContent tag = true) :
    isIgnored tag = true :=
  isIgnored_iff.2 (.inl h)

/-- The last tag is one of the list. -/
theorem isIgnored_of_lastIgnored {event : HtmlEvent} {tag : Str}
    (h : lastIgnored lib before = some event) (htag : event.tag? = some tag) :
    isIgnored (lib.lower tag) = true := by
  have hfound := List.find?_some h
  rwa [htag] at hfound

/-- **The flag and the elements agree** exactly if the flag is on track. -/
theorem ignore_iff_not_rendered :
    ((extractor lib before).ignore = false ↔ Rendered lib before) ↔ OnTrack lib before := by
  rw [ignore_extractor]
  constructor
  · intro hagree
    refine ⟨fun tag attrs hlast _ hrendered => ?_, fun tag hlast => ?_⟩
    · have hignore := hagree.2 hrendered
      rw [hlast] at hignore
      exact Bool.noConfusion hignore
    · refine hagree.1 ?_
      rw [hlast]
      rfl
  · intro htrack
    cases hlast : lastIgnored lib before with
    | none =>
      have hrendered : Rendered lib before :=
        openElements_of_lastTag_eq_none isIgnored_of_hidesContent hlast
      exact ⟨fun _ => hrendered, fun _ => rfl⟩
    | some event =>
      cases event with
      | startTag tag attrs =>
        have hhidden : ¬Rendered lib before := by
          by_cases hembed : lib.lower tag = "embed".toList
          · exact htrack.embed tag attrs hlast hembed
          · exact openElements_ne_nil_of_lastTag isIgnored_of_hidesContent hlast
              ((isIgnored_iff.1 (isIgnored_of_lastIgnored hlast rfl)).resolve_right hembed)
        exact ⟨fun h => Bool.noConfusion h, fun h => (hhidden h).elim⟩
      | endTag tag => exact ⟨fun _ => htrack.endTag tag hlast, fun _ => rfl⟩
      | data text =>
        have hfound := List.find?_some hlast
        exact Bool.noConfusion hfound

/-- A text that is not blank is added exactly if the flag is not set. -/
theorem contributes_iff (htext : strip text ≠ []) :
    Contributes lib before text ↔ (extractor lib before).ignore = false := by
  rw [Contributes, extractor_concat]
  cases hignore : (extractor lib before).ignore with
  | true => simp [TextExtractor.handle, hignore]
  | false => simp [TextExtractor.handle, hignore, htext]

/-- A tag adds nothing to the result. -/
theorem result_extractor_tag {event : HtmlEvent} (htag : event.tag?.isSome = true) :
    (extractor lib (before ++ [event])).result = (extractor lib before).result := by
  rw [extractor_concat]
  cases event with
  | startTag tag attrs =>
    rw [TextExtractor.handle]
    split_ifs <;> rfl
  | endTag tag =>
    rw [TextExtractor.handle]
    split_ifs <;> rfl
  | data text => exact Bool.noConfusion htag

/-- The texts of the remaining events, if the flag agrees with the elements at each of them. -/
theorem result_extractor_append (before events : List HtmlEvent)
    (h : ∀ pre text post, events = pre ++ .data text :: post → strip text ≠ [] →
      (Contributes lib (before ++ pre) text ↔ Rendered lib (before ++ pre))) :
    (extractor lib (before ++ events)).result =
      (extractor lib before).result ++ renderedTexts lib before events := by
  induction events generalizing before with
  | nil => rw [List.append_nil, renderedTexts, List.append_nil]
  | cons event events ih =>
    have hrest : (extractor lib (before ++ event :: events)).result =
        (extractor lib (before ++ [event])).result ++
          renderedTexts lib (before ++ [event]) events := by
      rw [List.append_cons]
      refine ih (before ++ [event]) fun pre text post hsplit htext => ?_
      rw [List.append_assoc, List.singleton_append]
      exact h (event :: pre) text post (by rw [hsplit, List.cons_append]) htext
    rw [hrest]
    cases event with
    | startTag tag attrs =>
      rw [result_extractor_tag rfl]
      rfl
    | endTag tag =>
      rw [result_extractor_tag rfl]
      rfl
    | data text =>
      rw [renderedTexts]
      by_cases htext : strip text = []
      · rw [if_neg fun h => h.1 htext, extractor_concat]
        simp [TextExtractor.handle, htext]
      · have hshown := h [] text events rfl htext
        rw [List.append_nil] at hshown
        by_cases hrendered : Rendered lib before
        · rw [if_pos ⟨htext, hrendered⟩, hshown.2 hrendered, List.append_assoc,
            List.singleton_append]
        · have hignore : ¬(extractor lib before).ignore = false := fun hignore =>
            hrendered (hshown.1 ((contributes_iff htext).2 hignore))
          rw [if_neg fun h => hrendered h.2, extractor_concat]
          simp [TextExtractor.handle, Bool.not_eq_false _ ▸ hignore]

end Extractor

/-- **The extractor keeps what is shown**, at each text of a body, exactly if no text follows an
embed outside of every element that hides its content, or an end tag inside of one.  Then the text of
the body is that of the texts that are shown, in order. -/
theorem contributes_iff_rendered_iff (lib : HtmlLibrary) (events : List HtmlEvent) :
    ((∀ before text after, events = before ++ .data text :: after → strip text ≠ [] →
        (Contributes lib before text ↔ Rendered lib before)) ↔
      ∀ before text after, events = before ++ .data text :: after → strip text ≠ [] →
        OnTrack lib before) ∧
    ((∀ before text after, events = before ++ .data text :: after → strip text ≠ [] →
        (Contributes lib before text ↔ Rendered lib before)) →
      textOfEvents lib events =
        normalizeUnicodeNfkc lib (List.intercalate [' '] (renderedTexts lib [] events))) := by
  have hstep : ∀ before text, strip text ≠ [] →
      ((Contributes lib before text ↔ Rendered lib before) ↔ OnTrack lib before) := by
    intro before text htext
    rw [contributes_iff htext]
    exact ignore_iff_not_rendered
  refine ⟨⟨fun h before text after hsplit htext => ?_, fun h before text after hsplit htext => ?_⟩,
    fun h => ?_⟩
  · exact (hstep before text htext).1 (h before text after hsplit htext)
  · exact (hstep before text htext).2 (h before text after hsplit htext)
  · have hresult := result_extractor_append [] events h
    rw [textOfEvents, ← List.nil_append events, hresult]
    rfl

/-! ## A run -/

/-- A library for ASCII texts, with the events of a body given. -/
def asciiHtml (events : List HtmlEvent) : HtmlLibrary where
  lower s := s.map Char.toLower
  nfkc s := s
  feed _ := some events

/-- An embed, and a text behind it. -/
def embedEvents : List HtmlEvent := [.startTag "embed".toList [], .data "Pay now".toList]

/-- An object inside of another one, and a text after the inner one. -/
def objectEvents : List HtmlEvent :=
  [.startTag "object".toList [], .startTag "object".toList [], .endTag "object".toList,
    .data "Hi".toList]

/-- The text after an embed is lost, and the content of an object after an inner one is shown. -/
theorem embed_hides_text :
    (Rendered (asciiHtml embedEvents) (embedEvents.take 1) ∧
      ¬Contributes (asciiHtml embedEvents) (embedEvents.take 1) "Pay now".toList ∧
      extractTextFromHtml (asciiHtml embedEvents) "<embed>Pay now".toList = []) ∧
    ¬Rendered (asciiHtml objectEvents) (objectEvents.take 3) ∧
      Contributes (asciiHtml objectEvents) (objectEvents.take 3) "Hi".toList ∧
      extractTextFromHtml (asciiHtml objectEvents) "<object><object></object>Hi".toList =
        "Hi".toList := by
  decide +kernel

end ScamOn.Parsing
