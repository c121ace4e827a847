import ScamOn.Lib.FirstOccurrences
import ScamOn.Analyzers.Url.Extractor

/-!
# What the plain-text scan extracts

`RegexUrlExtractor._scan` goes through the matches of an expression from left to right, trims
them, leaves out what is too long, and stops at a limit; `CompositeUrlExtractor` drops what
repeats the value and the source of an earlier URL.

* `Faithful` says what the extracted URLs of a text are of the text.
* `scanLoop_eq`: the loop is a filter of the matches, cut at the limit.
* `map_key_dropRepeated`: what is left is the first occurrence of each pair, in this order.
-/

namespace ScamOn.Analyzers
namespace Url

open Pattern

/-- **URLs that were taken from a text**: at most so many, one behind the other, each at its
position, without punctuation at its end and within the limit. -/
structure Faithful (max : ℕ) (text : Str) (urls : List ExtractedUrl) : Prop where
  length_le : urls.length ≤ max
  increasing : urls.Pairwise fun a b => a.position < b.position
  apart : urls.Pairwise fun a b => a.position + a.rawValue.length ≤ b.position
  slice : ∀ u ∈ urls, (text.drop u.position).take u.rawValue.length = u.rawValue
  trimmed : ∀ u ∈ urls, ∀ c ∈ u.rawValue.getLast?, isTrailingPunctuation c = false
  length_rawValue : ∀ u ∈ urls, u.rawValue.length ≤ maxRawUrlLength

/-! ## The scan -/

theorem stripTrailing_prefix (value : Str) : stripTrailing value <+: value := by
  rw [stripTrailing, ← List.reverse_suffix, List.reverse_reverse]
  exact List.dropWhile_suffix _

theorem getLast?_stripTrailing {value : Str} {c : Char}
    (h : c ∈ (stripTrailing value).getLast?) : isTrailingPunctuation c = false := by
  rw [stripTrailing, List.getLast?_reverse] at h
  have hhead := List.head?_dropWhile_not isTrailingPunctuation value.reverse
  rw [Option.mem_def.1 h] at hhead
  exact hhead

namespace RegexUrlExtractor

/-- The URL of a match, if it is kept. -/
def urlOf (source : UrlExtractionSource) (p : ℕ × Pattern.Match) : Option ExtractedUrl :=
  extractedUrl? (stripTrailing p.2.text) source p.1 none

/-- **The loop is a filter of the matches, cut at the limit.** -/
theorem scanLoop_eq (max : ℕ) (source : UrlExtractionSource) (extracted : List ExtractedUrl)
    (ms : List (ℕ × Pattern.Match)) :
    scanLoop max source extracted ms =
      extracted ++ (ms.filterMap (urlOf source)).take (max - extracted.length) := by
  induction ms generalizing extracted with
  | nil => simp [scanLoop]
  | cons p ms ih =>
    obtain ⟨position, m⟩ := p
    rw [scanLoop]
    split
    · next hmax => rw [Nat.sub_eq_zero_of_le hmax, List.take_zero, List.append_nil]
    · next hmax =>
      have hpos : max - extracted.length = (max - (extracted.length + 1)) + 1 := by omega
      cases hurl : extractedUrl? (stripTrailing m.text) source position none with
      | none =>
        have hnone : urlOf source (position, m) = none := hurl
        rw [List.filterMap_cons_none hnone]
        exact ih _
      | some url =>
        have hsome : urlOf source (position, m) = some url := hurl
        rw [List.filterMap_cons_some hsome, hpos, List.take_succ_cons]
        simpa using ih (extracted ++ [url])

theorem urlOf_eq_some {source : UrlExtractionSource} {p : ℕ × Pattern.Match} {u : ExtractedUrl}
    (h : urlOf source p = some u) :
    u.rawValue = stripTrailing p.2.text ∧ u.position = p.1 ∧ u.source = source := by
  rw [urlOf, extractedUrl?] at h
  split at h
  · cases h
    exact ⟨rfl, rfl, rfl⟩
  · cases h

theorem scan_eq (max : ℕ) (text : Str) (source : UrlExtractionSource) :
    scan max text source = ((urlRe.spans text).filterMap (urlOf source)).take max := by
  rw [scan, scanLoop_eq, List.nil_append, List.length_nil, Nat.sub_zero]

/-- An extracted URL comes from a match. -/
theorem exists_match_of_mem_scan {max : ℕ} {text : Str} {source : UrlExtractionSource}
    {u : ExtractedUrl} (h : u ∈ scan max text source) :
    ∃ p ∈ urlRe.spans text, urlOf source p = some u := by
  rw [scan_eq] at h
  exact List.mem_filterMap.1 (List.mem_of_mem_take h)

theorem faithful_scan (max : ℕ) (text : Str) (source : UrlExtractionSource) :
    Faithful max text (scan max text source) := by
  have hpre : ∀ {p : ℕ × Pattern.Match} {u}, urlOf source p = some u →
      u.rawValue <+: p.2.text := by
    intro p u hu
    rw [(urlOf_eq_some hu).1]
    exact stripTrailing_prefix _
  have hapart : (scan max text source).Pairwise fun a b =>
      a.position + a.rawValue.length ≤ b.position := by
    rw [scan_eq]
    refine List.Pairwise.sublist (List.take_sublist ..) (List.pairwise_filterMap.2 ?_)
    refine (pairwise_spansFrom urlRe _ 0 none text).imp fun hpq a ha b hb => ?_
    have hle := (hpre ha).length_le
    rw [(urlOf_eq_some ha).2.1, (urlOf_eq_some hb).2.1]
    omega
  refine ⟨?_, ?_, hapart, ?_, ?_, fun u _ => u.rawValue_length⟩
  · rw [scan_eq]
    exact List.length_take_le ..
  · refine hapart.imp fun {a b} hab => ?_
    have hpos := List.length_pos_iff.2 a.rawValue_ne_nil
    omega
  · intro u hu
    obtain ⟨p, hp, hurl⟩ := exists_match_of_mem_scan hu
    obtain ⟨front, hfront, hposition⟩ := mem_spansFrom hp
    obtain ⟨trimmed, htrimmed⟩ := hpre hurl
    rw [(urlOf_eq_some hurl).2.1, hposition, Nat.zero_add, ← hfront, ← htrimmed]
    simp only [List.append_assoc, List.drop_left, List.take_left]
  · intro u hu c hc
    obtain ⟨p, _, hurl⟩ := exists_match_of_mem_scan hu
    rw [(urlOf_eq_some hurl).1] at hc
    exact getLast?_stripTrailing hc

end RegexUrlExtractor

/-! ## Both extractors -/

/-- What `CompositeUrlExtractor` deduplicates by. -/
def ExtractedUrl.key (u : ExtractedUrl) : Str × UrlExtractionSource := (u.rawValue, u.source)

/-- The key of an entry, which every entry has. -/
def ExtractedUrl.key? (u : ExtractedUrl) : Option (Str × UrlExtractionSource) := some u.key

theorem dropRepeated_cons (seen : List (Str × UrlExtractionSource)) (u : ExtractedUrl)
    (urls : List ExtractedUrl) :
    dropRepeated seen (u :: urls) =
      if u.key ∈ seen then dropRepeated seen urls
      else u :: dropRepeated (u.key :: seen) urls := by
  rw [dropRepeated]
  rfl

theorem dropRepeated_eq_firsts (seen : List (Str × UrlExtractionSource))
    (urls : List ExtractedUrl) :
    dropRepeated seen urls = firsts ExtractedUrl.key? seen urls := by
  induction urls generalizing seen with
  | nil => rfl
  | cons u urls ih =>
    have hkey : u.key? = some u.key := rfl
    rw [dropRepeated_cons]
    by_cases h : u.key ∈ seen
    · rw [if_pos h, firsts_cons_of_mem hkey h, ih]
    · rw [if_neg h, firsts_cons_of_notMem hkey h, ih]

/-- **What is left is the first occurrence of each pair, in their order.** -/
theorem map_key_dropRepeated (seen : List (Str × UrlExtractionSource)) (urls : List ExtractedUrl) :
    (dropRepeated seen urls).map (·.key) =
      ((urls.map (·.key)).filter fun k => k ∉ seen).eraseDups := by
  induction urls generalizing seen with
  | nil => rfl
  | cons u urls ih =>
    rw [dropRepeated_cons]
    by_cases h : u.key ∈ seen
    · rw [if_pos h, ih, List.map_cons, List.filter_cons_of_neg (by simpa using h)]
    · rw [if_neg h, List.map_cons, ih, List.map_cons,
        List.filter_cons_of_pos (by simpa using h), List.eraseDups_cons, List.filter_filter]
      congr 2
      refine List.filter_congr fun k _ => ?_
      rw [Bool.beq_eq_decide_eq]
      simp [List.mem_cons, not_or]

/-- `CompositeUrlExtractor(max).extract`. -/
def CompositeUrlExtractor.extractWithin (max : ℕ) (x : Unicode)
    (feed : Str → Option (List HtmlEvent)) (email : EmailInput) : List ExtractedUrl :=
  dropRepeated [] (RegexUrlExtractor.extract max email ++ HtmlUrlExtractor.extract x feed email)

/-- **The extraction is faithful**: what the scan takes from a text stands there, and joining the
extractors keeps the first occurrence of each pair of value and source. -/
theorem extraction_faithful :
    (∀ (max : ℕ) (text : Str) (source : UrlExtractionSource),
      Faithful max text (RegexUrlExtractor.scan max text source)) ∧
    ∀ (max : ℕ) (x : Unicode) (feed : Str → Option (List HtmlEvent)) (email : EmailInput),
      let parts := RegexUrlExtractor.extract max email ++ HtmlUrlExtractor.extract x feed email
      let urls := CompositeUrlExtractor.extractWithin max x feed email
      (urls.map (·.key)).Nodup ∧ urls.map (·.key) = (parts.map (·.key)).eraseDups ∧
        (∀ k, k ∈ urls.map (·.key) ↔ k ∈ parts.map (·.key)) ∧
        ∀ u ∈ urls, parts.find? (fun v => v.key = u.key) = some u := by
  refine ⟨RegexUrlExtractor.faithful_scan, fun max x feed email => ?_⟩
  intro parts urls
  have hkeys : urls.map (·.key) = (parts.map (·.key)).eraseDups := by
    have hall : (parts.map (·.key)).filter (fun k => k ∉ []) = parts.map (·.key) :=
      List.filter_eq_self.2 fun k _ => by simp
    rw [← hall]
    exact map_key_dropRepeated [] parts
  have hfirsts : urls = firsts ExtractedUrl.key? [] parts := dropRepeated_eq_firsts [] parts
  refine ⟨?_, hkeys, fun k => by rw [hkeys, List.mem_eraseDups], fun u hu => ?_⟩
  · have h := @nodup_keys_firsts _ _ _ ExtractedUrl.key? [] parts
    have hmap : urls.filterMap ExtractedUrl.key? = urls.map (·.key) :=
      congrFun List.filterMap_eq_map urls
    rwa [← hfirsts, hmap] at h
  · rw [hfirsts] at hu
    have hkey : u.key? = some u.key := rfl
    simpa [ExtractedUrl.key?] using find?_of_mem_firsts hu hkey

end Url
end ScamOn.Analyzers
