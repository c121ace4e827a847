import ScamOn.Lib.Dict
import ScamOn.Lib.FirstOccurrences
import ScamOn.Parsing.Attachments
import ScamOn.Parsing.HtmlSanitizer
import ScamOn.Parsing.HtmlText
import ScamOn.Parsing.LinkExtraction

/-!
# The parsing pipeline

`ParsingPipeline.parse` on what `email.message_from_bytes` makes of a message, from the MIME tree to
the content of `ParsedEmail`.

* `parse_placement`: what becomes of each leaf of the tree; a message that could be read leaves no
  diagnostic, whatever the walk left out.
* `urls_parse`: the links are the first ones of each URL.
* `mismatch_reported_iff` is the exact condition under which a mismatched link is reported: one of
  them has a URL that no earlier link has.
-/

namespace ScamOn.Parsing

open UrlParse

/-- What the pipeline uses besides its own code; `name` is `unicodedata.name`. -/
structure ParsingEnv where
  unicode : Unicode
  nfkc : Str → Str
  feed : Str → Option (List HtmlEvent)
  replace : Str → List UInt8 → Option Str
  utf8 : List UInt8 → Option Str
  best : List UInt8 → Option Str
  names : NameLibrary
  isAlpha : Char → Bool
  name : Char → Str

namespace ParsingEnv

variable (env : ParsingEnv)

def codecs : Codecs where
  lower := env.unicode.lower
  replace := env.replace
  utf8 := env.utf8
  best := env.best

def html : HtmlLibrary where
  lower := env.unicode.lower
  nfkc := env.nfkc
  feed := env.feed

end ParsingEnv

/-- `ParsingDiagnosticDTO`. -/
structure Diagnostic where
  code : Str
  message : Str
  severity : Str
  deriving DecidableEq

/-- The content of `ParsedEmail`. -/
structure ParsedContent where
  bodyPlain : Str
  bodyHtml : Str
  bodyHtmlPlain : Str
  normalizedText : Str
  urls : List ExtractedUrlDto
  attachments : List ExtractedAttachment
  inlineImages : List ExtractedAttachment
  hasZeroWidthChars : Bool
  hasHomoglyphs : Bool
  hasMismatchedUrls : Bool
  hasExecutableAttachments : Bool
  diagnostics : List Diagnostic

section Stages

variable (env : ParsingEnv)

/-- Stage 1, for what `email.message_from_bytes` gives or raises. -/
def readMessage (received : Except Str MimeTree) : MimeTree × List Diagnostic :=
  match received with
  | .ok msg => (msg, [])
  | .error exc =>
    (.leaf { contentType := "text/plain".toList },
      [{
        code := "WARN_MIME_PARSE_FALLBACK".toList
        message := "Corrupt MIME structure: ".toList ++ exc
        severity := "WARNING".toList
      }])

/-- Stage 4. -/
def collected (received : Except Str MimeTree) : MimePartContent :=
  walkMimeTree env.codecs (readMessage received).1 0 {}

/-- `raw_body_plain`. -/
def rawBodyPlain (received : Except Str MimeTree) : Str :=
  List.intercalate ['\n'] (collected env received).plainParts

/-- `raw_body_html`. -/
def rawBodyHtml (received : Except Str MimeTree) : Str :=
  List.intercalate ['\n'] (collected env received).htmlParts

/-- The script of a letter, as `detect_homoglyphs` tells them apart. -/
def scriptOf (c : Char) : Option Str :=
  ["CYRILLIC".toList, "LATIN".toList, "GREEK".toList].find? fun script => script <:+: env.name c

/-- `detect_homoglyphs`. -/
def detectHomoglyphs (text : Str) : Bool :=
  1 < ((text.filter env.isAlpha).filterMap (scriptOf env)).dedup.length

/-- The links of stage 6, with all that repeat a URL. -/
def extractedUrls (received : Except Str MimeTree) : List ExtractedUrlDto :=
  (if rawBodyHtml env received = [] then []
    else extractUrlsFromHtml env.unicode env.feed (rawBodyHtml env received)) ++
  (if normalizeUnicodeNfkc env.html (rawBodyPlain env received) = [] then []
    else extractUrlsFromText env.unicode (normalizeUnicodeNfkc env.html (rawBodyPlain env received)))

/-- `unique_urls_map`. -/
def uniqueUrls (urls : List ExtractedUrlDto) : Dict Str ExtractedUrlDto :=
  urls.foldl (fun seen u => if seen.contains u.url then seen else seen.set u.url u) ∅

/-- `parse`. -/
def parse (received : Except Str MimeTree) : ParsedContent :=
  let bodyPlain := normalizeUnicodeNfkc env.html (rawBodyPlain env received)
  let bodyHtmlPlain :=
    if rawBodyHtml env received = [] then []
    else extractTextFromHtml env.html (rawBodyHtml env received)
  let normalizedText :=
    List.intercalate "\n\n".toList ([bodyPlain, bodyHtmlPlain].filter (· ≠ []))
  let dedupUrls := (uniqueUrls (extractedUrls env received)).values
  let atts := extractAttachments env.codecs env.names (collected env received).attachmentsRaw
  {
    bodyPlain := bodyPlain
    bodyHtml := sanitizeHtmlBody (rawBodyHtml env received)
    bodyHtmlPlain := bodyHtmlPlain
    normalizedText := normalizedText
    urls := dedupUrls
    attachments := (separateAttachments atts).1
    inlineImages := (separateAttachments atts).2
    hasZeroWidthChars := detectZeroWidthChars (rawBodyPlain env received) ||
      detectZeroWidthChars (rawBodyHtml env received)
    hasHomoglyphs := detectHomoglyphs env normalizedText
    hasMismatchedUrls := dedupUrls.any (·.isMismatched)
    hasExecutableAttachments := atts.any (isExecutable env.codecs)
    diagnostics := (readMessage received).2
  }

end Stages

section Runs

variable {env : ParsingEnv}

/-! ## Parts -/

/-- **What becomes of each leaf.**  The three lists of the walk hold leaves in document order, and
none twice; a leaf whose payload decodes is in exactly one of them if it lies within the depth limit
and is of a known kind, and otherwise in none; the pipeline records no diagnostic. -/
theorem parse_placement (env : ParsingEnv) (msg : MimeTree) :
    ∃ place : Slot → List ℕ, @Placement env.codecs msg (collected env (.ok msg)) place ∧
      (∀ i leaf, (leaves msg)[i]? = some leaf → leaf.2.payload.isSome = true →
        ((∃! slot, i ∈ place slot) ↔ Inspected env.codecs leaf) ∧
        (¬Inspected env.codecs leaf → ∀ slot, i ∉ place slot)) ∧
      (parse env (.ok msg)).diagnostics = [] := by
  refine ⟨placed env.codecs msg, placement_walkMimeTree msg, ?_, rfl⟩
  intro i leaf hleaf hpayload
  obtain ⟨hi, rfl⟩ := List.getElem?_eq_some_iff.1 hleaf
  exact ⟨existsUnique_slot hi hpayload, fun h slot => notMem_placed hi h hpayload slot⟩

/-! ## Links -/

/-- A dictionary in which the first entry of each key stays. -/
theorem entries_foldl_first {α κ : Type} [DecidableEq κ] (key : α → κ) (l : List α) (d : Dict κ α)
    (seen : List κ) (hseen : ∀ k, k ∈ seen ↔ d.contains k = true) :
    (l.foldl (fun d a => if d.contains (key a) then d else d.set (key a) a) d).entries =
      d.entries ++ (firsts (fun a => some (key a)) seen l).map fun a => (key a, a) := by
  induction l generalizing d seen with
  | nil => simp [firsts]
  | cons a l ih =>
    rw [List.foldl_cons]
    by_cases hmem : key a ∈ seen
    · have hfirsts : firsts (fun a => some (key a)) seen (a :: l) =
          firsts (fun a => some (key a)) seen l := firsts_cons_of_mem rfl hmem
      rw [if_pos ((hseen _).1 hmem), hfirsts]
      exact ih d seen hseen
    · have hcontains : d.contains (key a) = false := Bool.eq_false_iff.2 fun h => hmem ((hseen _).2 h)
      have hnone : d.get? (key a) = none := by
        rw [Dict.contains, Option.isSome_eq_false_iff] at hcontains
        exact Option.isNone_iff_eq_none.1 hcontains
      have hfirsts : firsts (fun a => some (key a)) seen (a :: l) =
          a :: firsts (fun a => some (key a)) (key a :: seen) l := firsts_cons_of_notMem rfl hmem
      have hseen' : ∀ k, k ∈ key a :: seen ↔ (d.set (key a) a).contains k = true := by
        intro k
        rw [List.mem_cons, hseen, Dict.contains, Dict.contains, Dict.get?_set]
        by_cases hk : k = key a <;> simp [hk]
      rw [hcontains, if_neg Bool.false_ne_true, ih _ _ hseen', hfirsts,
        Dict.entries_set_of_get?_eq_none hnone, List.append_assoc, List.map_cons]
      rfl

/-- The key by which links are merged. -/
def urlKey (u : ExtractedUrlDto) : Option Str := some u.url

/-- **The links** of a message are the first ones of each URL. -/
theorem urls_parse (received : Except Str MimeTree) :
    (parse env received).urls =
      firsts urlKey [] (extractedUrls env received) := by
  have hentries := entries_foldl_first ExtractedUrlDto.url (extractedUrls env received) ∅ []
    (fun k => ⟨fun h => absurd h List.not_mem_nil, fun h => Bool.noConfusion h⟩)
  have hvalues : (parse env received).urls =
      (uniqueUrls (extractedUrls env received)).entries.map Prod.snd := rfl
  have hempty : (∅ : Dict Str ExtractedUrlDto).entries = [] := rfl
  rw [hvalues, uniqueUrls, hentries, hempty, List.nil_append, List.map_map]
  exact List.map_id _

theorem nodup_url_firsts (seen : List Str) (urls : List ExtractedUrlDto) :
    ((firsts urlKey seen urls).map ExtractedUrlDto.url).Nodup := by
  induction urls generalizing seen with
  | nil => exact List.nodup_nil
  | cons u urls ih =>
    by_cases hu : u.url ∈ seen
    · have hfirsts : firsts urlKey seen (u :: urls) =
          firsts urlKey seen urls := firsts_cons_of_mem rfl hu
      rw [hfirsts]
      exact ih seen
    · have hfirsts : firsts urlKey seen (u :: urls) =
          u :: firsts urlKey (u.url :: seen) urls := firsts_cons_of_notMem rfl hu
      rw [hfirsts, List.map_cons, List.nodup_cons]
      refine ⟨fun hmem => ?_, ih _⟩
      obtain ⟨w, hw, hurl⟩ := List.mem_map.1 hmem
      exact notMem_of_mem_firsts hw rfl (hurl ▸ List.mem_cons_self)

/-- Every URL that was extracted is there once. -/
theorem count_url_parse {received : Except Str MimeTree} {u : ExtractedUrlDto}
    (hu : u ∈ extractedUrls env received) :
    ((parse env received).urls.map ExtractedUrlDto.url).count u.url = 1 := by
  rw [urls_parse]
  obtain ⟨w, hw, hkey⟩ := @exists_mem_firsts _ _ _ urlKey [] _ u u.url hu rfl List.not_mem_nil
  refine List.count_eq_one_of_mem (nodup_url_firsts _ _) ?_
  exact List.mem_map.2 ⟨w, hw, Option.some.inj hkey⟩

/-- **A mismatched link is reported** exactly if, when there is one, one of them has a URL that no
earlier link has.  Every extracted URL is there once in any case. -/
theorem mismatch_reported_iff (env : ParsingEnv) (received : Except Str MimeTree) :
    (∀ u ∈ extractedUrls env received,
      ((parse env received).urls.map ExtractedUrlDto.url).count u.url = 1) ∧
    (((parse env received).hasMismatchedUrls = true ↔
        ∃ u ∈ extractedUrls env received, u.isMismatched = true) ↔
      ((∃ u ∈ extractedUrls env received, u.isMismatched = true) →
        ∃ before u after, extractedUrls env received = before ++ u :: after ∧
          u.isMismatched = true ∧ ∀ w ∈ before, w.url ≠ u.url)) := by
  have hreported : (parse env received).hasMismatchedUrls = true ↔
      ∃ before u after, extractedUrls env received = before ++ u :: after ∧
        u.isMismatched = true ∧ ∀ w ∈ before, w.url ≠ u.url := by
    have hany : (parse env received).hasMismatchedUrls =
        (parse env received).urls.any (·.isMismatched) := rfl
    rw [hany, urls_parse, List.any_eq_true]
    constructor
    · rintro ⟨u, hu, hmismatched⟩
      obtain ⟨-, before, after, hsplit, hbefore⟩ := (@mem_firsts_iff _ _ _ urlKey _ _ _ _ rfl).1 hu
      exact ⟨before, u, after, hsplit, hmismatched, fun w hw heq => hbefore w hw (congrArg some heq)⟩
    · rintro ⟨before, u, after, hsplit, hmismatched, hbefore⟩
      refine ⟨u, (@mem_firsts_iff _ _ _ urlKey _ _ _ _ rfl).2
        ⟨List.not_mem_nil, before, after, hsplit, ?_⟩, hmismatched⟩
      exact fun w hw heq => hbefore w hw (Option.some.inj heq)
  refine ⟨fun u hu => count_url_parse hu, ?_⟩
  rw [hreported]
  refine ⟨fun h => h.2, fun h => ⟨?_, h⟩⟩
  rintro ⟨before, u, after, hsplit, hmismatched, -⟩
  exact ⟨u, by rw [hsplit]; exact List.mem_append_right _ List.mem_cons_self, hmismatched⟩

end Runs

/-! ## Two messages -/

/-- An environment for ASCII texts, with the events of the HTML body given. -/
def asciiParsing (events : List HtmlEvent) : ParsingEnv where
  unicode := asciiUnicode
  nfkc s := s
  feed _ := some events
  replace _ _ := none
  utf8 data := some (data.map fun byte => Char.ofNat byte.toNat)
  best _ := none
  names := { decodeHeader := id, isPrintable := fun c => 32 ≤ c.toNat }
  isAlpha := Char.isAlpha
  name _ := []

/-- A part of a type, with a text. -/
def textPart (type text : String) : MimePart where
  contentType := type.toList
  payload := some (text.toList.map fun c => UInt8.ofNat c.toNat)

/-- The HTML of two links to one site, of which the second one shows another site. -/
def twoLinks : String :=
  "<a href='http://evil.example'>here</a><a href='http://evil.example'>https://bank.example</a>"

def twoLinksEvents : List HtmlEvent :=
  let link : String → List HtmlEvent := fun text =>
    [.startTag "a".toList [("href".toList, some "http://evil.example".toList)], .data text.toList,
      .endTag "a".toList]
  link "here" ++ link "https://bank.example"

/-- The second link is mismatched, and the message is not marked. -/
theorem mismatch_hidden :
    (∃ u ∈ extractedUrls (asciiParsing twoLinksEvents) (.ok (.leaf (textPart "text/html" twoLinks))),
      u.isMismatched = true) ∧
    (parse (asciiParsing twoLinksEvents)
      (.ok (.leaf (textPart "text/html" twoLinks)))).hasMismatchedUrls = false := by
  decide +kernel

/-- A message inside of so many containers. -/
def nested : ℕ → MimeTree → MimeTree
  | 0, msg => msg
  | n + 1, msg => .multipart [nested n msg]

/-- A calendar, and a text inside of 21 containers, are collected nowhere, without a diagnostic. -/
theorem parts_escape :
    (leaves (.leaf (textPart "text/calendar" "BEGIN:VCALENDAR")) =
        [(0, textPart "text/calendar" "BEGIN:VCALENDAR")] ∧
      collected (asciiParsing []) (.ok (.leaf (textPart "text/calendar" "BEGIN:VCALENDAR"))) = {} ∧
      (parse (asciiParsing [])
        (.ok (.leaf (textPart "text/calendar" "BEGIN:VCALENDAR")))).diagnostics = []) ∧
    (leaves (nested 21 (.leaf (textPart "text/plain" "Hi"))) = [(21, textPart "text/plain" "Hi")] ∧
      collected (asciiParsing []) (.ok (nested 21 (.leaf (textPart "text/plain" "Hi")))) = {} ∧
      (parse (asciiParsing [])
        (.ok (nested 21 (.leaf (textPart "text/plain" "Hi"))))).diagnostics = []) := by
  decide +kernel

end ScamOn.Parsing
