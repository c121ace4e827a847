import ScamOn.Parsing.CanonicalUrl
import ScamOn.UrlIntelligence.RedirectExpander

/-!
# The URLs that an expansion has visited

`RedirectExpander.expand_url` remembers where it has been by canonical URLs, and makes the URL of
each hop canonical once more for its `canonical_url`.

* `CanonicalHops`: the URL of every hop is canonical, its `canonical_url` twice so.
* `visited_agrees_iff`: the two are the same exactly for a URL that is canonical after one pass.
-/

namespace ScamOn.UrlIntelligence

open UrlParse Parsing

variable {x : Unicode} {net : Internet} {exp : RedirectExpander} {s : Expansion}

/-- The current URL is canonical, the URL of every hop is canonical, and its `canonical_url` is
canonical once more. -/
structure CanonicalHops (x : Unicode) (s : Expansion) : Prop where
  current : ∃ v, s.currentUrl = normalizeUrlCanonical x v
  hops : ∀ h ∈ s.hops, ∃ v, h.url = normalizeUrlCanonical x v ∧
    h.canonicalUrl = normalizeUrlCanonical x (normalizeUrlCanonical x v)

theorem CanonicalHops.hop (h : CanonicalHops x s) (ip : Str) (statusCode : ℕ) (headers : Dict Str Str)
    (isSafe : Bool) : ∀ h ∈ s.hops ++ [s.hop x ip statusCode headers isSafe],
      ∃ v, h.url = normalizeUrlCanonical x v ∧
        h.canonicalUrl = normalizeUrlCanonical x (normalizeUrlCanonical x v) := by
  intro hop hmem
  rcases List.mem_append.1 hmem with hmem | hmem
  · exact h.hops hop hmem
  · obtain ⟨v, hv⟩ := h.current
    rw [List.mem_singleton.1 hmem]
    unfold Expansion.hop
    dsimp only
    rw [hv]
    exact ⟨v, by simp only, by simp only⟩

theorem CanonicalHops.requested (h : CanonicalHops x s) (ip netloc : Str) (pinned : Pinned) :
    CanonicalHops x (s.requested x ip netloc pinned) :=
  ⟨h.current, h.hop ip pinned.statusCode pinned.headers true⟩

/-- **What every turn keeps.** -/
theorem canonicalHops_hop (h : CanonicalHops x s) : CanonicalHops x (hop x net exp s).1 := by
  have hstep := hopStep_hop x net exp s
  generalize hop x net exp s = next at hstep
  cases hstep with
  | refused ip hcheck => exact ⟨h.current, h.hop ip 403 ∅ false⟩
  | unparsable ip hcheck hurl => exact ⟨h.current, h.hops⟩
  | arrived ip netloc pinned hcheck hurl hpinned hredirect => exact h.requested ip netloc pinned
  | unjoinable ip netloc location pinned hcheck hurl hpinned hredirect hjoin =>
    exact h.requested ip netloc pinned
  | looped ip netloc location joined pinned hcheck hurl hpinned hredirect hjoin hvisited =>
    exact ⟨h.current, (h.requested ip netloc pinned).hops⟩
  | moved ip netloc location joined pinned hcheck hurl hpinned hredirect hjoin hnew =>
    exact ⟨⟨joined, Expansion.moved_currentUrl ..⟩, (h.requested ip netloc pinned).hops⟩

/-- **Every expansion** makes the URLs of its hops canonical once, and their `canonical_url`
twice. -/
theorem canonicalHops_expandUrl (x : Unicode) (net : Internet) (exp : RedirectExpander)
    (initialUrl : Str) : CanonicalHops x (expandUrl x net exp initialUrl).1 := by
  have hstart : CanonicalHops x (.start (normalizeUrlCanonical x initialUrl)) :=
    ⟨⟨initialUrl, by simp only [Expansion.start]⟩, by simp [Expansion.start]⟩
  have hturn : ∀ s s' b, CanonicalHops x s → hop x net exp s = (s', b) → CanonicalHops x s' := by
    intro s s' b hs hrun
    have hnext : CanonicalHops x (hop x net exp s).1 := canonicalHops_hop hs
    rwa [hrun] at hnext
  have hloop := Loop.upTo_inv (I := fun _ => CanonicalHops x) (Q := fun s _ => CanonicalHops x s)
    (fun _ s s' => hturn s s' none) (fun _ s s' b => hturn s s' (some b)) exp.maxHops hstart
  unfold expandUrl
  dsimp only
  rcases hdone : Loop.upTo (hop x net exp) exp.maxHops
    (.start (normalizeUrlCanonical x initialUrl)) with ⟨s, _ | _ | e⟩
  all_goals
    rw [hdone] at hloop
    exact hloop

/-- **When canonical URLs are canonical**: for every URL, and so for the URL of every hop, which
stands in the set of visited URLs, beside its `canonical_url`. -/
theorem visited_agrees_iff (hx : Lawful x) :
    (∀ url, normalizeUrlCanonical x (normalizeUrlCanonical x url) = normalizeUrlCanonical x url ↔
        CanonicalAtOnce x url) ∧
      ∀ net exp initialUrl, ∀ h ∈ (expandUrl x net exp initialUrl).1.hops,
        ∃ url, h.url = normalizeUrlCanonical x url ∧
          (h.canonicalUrl = h.url ↔ CanonicalAtOnce x url) := by
  refine ⟨canonical_canonical_iff hx, fun net exp initialUrl h hmem => ?_⟩
  obtain ⟨url, hurl, hcanonical⟩ := (canonicalHops_expandUrl x net exp initialUrl).hops h hmem
  refine ⟨url, hurl, ?_⟩
  rw [hurl, hcanonical]
  exact canonical_canonical_iff hx url

/-- A URL that a second pass changes. -/
theorem visited_agrees_iff_dots :
    Lawful asciiUnicode ∧ ¬CanonicalAtOnce asciiUnicode "http://a../".toList ∧
      normalizeUrlCanonical asciiUnicode (normalizeUrlCanonical asciiUnicode "http://a../".toList) ≠
        normalizeUrlCanonical asciiUnicode "http://a../".toList := by
  have hdots : ¬CanonicalAtOnce asciiUnicode "http://a../".toList := by
    intro h
    have hparts := h ⟨"http".toList, "a..".toList, "/".toList, [], []⟩ (by decide +kernel)
    exact hparts.2 ⟨['a'], (['.'], ['.']), List.mem_cons_self .., by decide, by decide⟩
  exact ⟨lawful_asciiUnicode, hdots, fun h =>
    hdots (((visited_agrees_iff lawful_asciiUnicode).1 "http://a../".toList).1 h)⟩

/-- **A second dot** at the end of the host falls in a second pass only. -/
theorem second_pass_drops_dot :
    normalizeUrlCanonical asciiUnicode "http://a../".toList = "http://a./".toList ∧
      normalizeUrlCanonical asciiUnicode "http://a./".toList = "http://a/".toList ∧
      normalizeUrlCanonical asciiUnicode
          (normalizeUrlCanonical asciiUnicode "http://a../".toList) ≠
        normalizeUrlCanonical asciiUnicode "http://a../".toList := by
  decide +kernel

end ScamOn.UrlIntelligence
