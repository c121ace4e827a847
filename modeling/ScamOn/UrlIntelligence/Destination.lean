import ScamOn.UrlIntelligence.RedirectExpander

/-!
# Where an expansion says that a URL leads

The `Location` of a redirect is joined to the URL of its hop and made canonical outside of any
`try`, and the destination that is reported is the URL of the last hop, whichever way the loop
was left.

* `Reached` are the hops that the redirects of the servers lead to, one after the other.
* `ended_upTo`: the loop gets to each of them, up to the limit.
* `NotMisled` is what an expansion promises: it returns, and a redirect that was not followed is
  where the chain ends.
* `not_misled_iff`: for which servers it keeps the promise.
-/

namespace ScamOn.UrlIntelligence

open Chars UrlParse Parsing

variable (x : Unicode) (net : Internet) (v : SsrfValidator)

/-- The expander with the validator of the repository. -/
def SsrfValidator.expander (maxHops : ℕ) : RedirectExpander := ⟨v.validateUrl x, maxHops⟩

/-! ## The redirects of the servers -/

/-- What the request for hop `n` returns. -/
def answer (n : ℕ) (url : Str) : Pinned :=
  executePinnedRequest x net n url (v.validateUrl x n url).2

/-- Hop `n` is requested, and redirects. -/
structure Redirected (n : ℕ) (url location : Str) : Prop where
  accepted : (v.validateUrl x n url).1 = true
  redirect : redirect (answer x net v n url).statusCode (answer x net v n url).nextUrl = some location

/-- Hop `n`, at `url`, redirects to `target`. -/
def LeadsTo (n : ℕ) (url target : Str) : Prop :=
  ∃ location joined, Redirected x net v n url location ∧ urljoin x url location = some joined ∧
    normalizeUrlCanonical x joined = target

/-- Hop `n` is at `url`, and `visited` are the URLs so far, the first of which is `initial`. -/
inductive Reached (initial : Str) : ℕ → Str → List Str → Prop
  | start : Reached initial 1 initial [initial]
  | next {n : ℕ} {url target : Str} {visited : List Str} (hreached : Reached initial n url visited)
      (hleads : LeadsTo x net v n url target) (hnew : target ∉ visited) :
      Reached initial (n + 1) target (visited ++ [target])

/-! ## The promise -/

/-- The last response redirects to a URL that was not requested. -/
def LeftAt (s : Expansion) (target : Str) : Prop :=
  RedirectsTo x s.events target ∧ target ∉ s.hops.map (·.url)

/-- **The expansion returns**, and if its last redirect was not followed for the limit, then the
destination is the target of this redirect. -/
def NotMisled (maxHops : ℕ) (initialUrl : Str) : Prop :=
  ∃ chain, (expandUrl x net (v.expander x maxHops) initialUrl).2 = .ok chain ∧
    ∀ target, LeftAt x (expandUrl x net (v.expander x maxHops) initialUrl).1 target →
      chain.finalDestinationUrl = target

/-- Every redirect up to the limit can be joined, and the one at the limit leads to where the
chain has been, or to the canonical form of its own URL. -/
def Followable (maxHops : ℕ) (initial : Str) : Prop :=
  ∀ n url visited location, Reached x net v initial n url visited → n ≤ maxHops →
    Redirected x net v n url location → ∃ joined, urljoin x url location = some joined ∧
      (n = maxHops → normalizeUrlCanonical x joined ∈ visited ∨
        normalizeUrlCanonical x joined = normalizeUrlCanonical x url)

variable {x net v} {maxHops : ℕ} {initial initialUrl : Str} {s : Expansion}

/-! ## One hop -/

/-- A hop that redirects is on record, and the redirect decides how the loop goes on. -/
theorem hop_of_redirected (maxHops : ℕ) {location : Str}
    (h : Redirected x net v s.hopNum s.currentUrl location) :
    ∃ ip netloc, hop x net (v.expander x maxHops) s =
      (s.requested x ip netloc (answer x net v s.hopNum s.currentUrl)).follow x (some location) := by
  obtain ⟨ip, hcheck⟩ : ∃ ip, v.validateUrl x s.hopNum s.currentUrl = (true, ip) :=
    ⟨_, Prod.ext h.accepted rfl⟩
  have hsplit := isSome_urlparse_iff (x := x) [] s.currentUrl
  rw [urlsplit_of_validateUrl hcheck] at hsplit
  obtain ⟨parsed, hparsed⟩ := Option.isSome_iff_exists.1 hsplit
  refine ⟨ip, parsed.netloc, ?_⟩
  have hredirect := h.redirect
  simp only [answer, hcheck] at hredirect ⊢
  simp only [hop, SsrfValidator.expander, hcheck, hparsed, hredirect]

/-- A redirect to a new URL. -/
theorem hop_of_leadsTo (maxHops : ℕ) {target : Str} (h : LeadsTo x net v s.hopNum s.currentUrl target)
    (hnew : target ∉ s.visitedUrls) :
    ∃ ip netloc, hop x net (v.expander x maxHops) s =
      ((s.requested x ip netloc (answer x net v s.hopNum s.currentUrl)).moved target, none) := by
  obtain ⟨location, joined, hredirected, hjoin, rfl⟩ := h
  obtain ⟨ip, netloc, hhop⟩ := hop_of_redirected maxHops hredirected
  refine ⟨ip, netloc, hhop.trans ?_⟩
  simp only [Expansion.follow, Expansion.requested, hjoin]
  exact if_neg (by simpa using hnew)

theorem Following.next_of_leadsTo (hs : Following x s) (ip netloc : Str) {target : Str}
    (h : LeadsTo x net v s.hopNum s.currentUrl target) (hnew : target ∉ s.visitedUrls) :
    Following x ((s.requested x ip netloc (answer x net v s.hopNum s.currentUrl)).moved target) := by
  obtain ⟨location, joined, hredirected, hjoin, rfl⟩ := h
  exact hs.moved ip netloc rfl hredirected.redirect hjoin hnew

/-- **The loop gets to every hop that is reached**, up to the limit. -/
theorem upTo_of_reached {n : ℕ} {url : Str} {visited : List Str}
    (h : Reached x net v initial n url visited) (hle : n ≤ maxHops + 1) :
    ∃ s, Following x s ∧ s.hopNum = n ∧ s.currentUrl = url ∧ s.visitedUrls = visited ∧
      Loop.upTo (hop x net (v.expander x maxHops)) maxHops (.start initial) =
        Loop.upTo (hop x net (v.expander x maxHops)) (maxHops + 1 - n) s := by
  induction h with
  | start =>
    refine ⟨.start initial, following_start initial, rfl, rfl, rfl, ?_⟩
    rw [Nat.add_sub_cancel]
  | @next n url target visited _ hleads hnew ih =>
    obtain ⟨s, hs, rfl, rfl, rfl, hloop⟩ := ih (by omega)
    obtain ⟨ip, netloc, hhop⟩ := hop_of_leadsTo maxHops hleads hnew
    have hturns : maxHops + 1 - s.hopNum = (maxHops + 1 - (s.hopNum + 1)) + 1 := by omega
    have hnext := hs.next_of_leadsTo ip netloc hleads hnew
    refine ⟨_, hnext, rfl, rfl, rfl, ?_⟩
    rw [hloop, hturns, Loop.upTo, hhop]

/-! ## Followable redirects -/

/-- If the last redirect was not followed, then its target is the URL of the last hop. -/
def Ended (x : Unicode) (s : Expansion) : Prop :=
  ∀ target, LeftAt x s target → ∃ hop, s.hops.getLast? = some hop ∧ hop.canonicalUrl = target

/-- **What holds before every turn**, with the number of those that are left: the hop is one that
is reached, and if there is no turn for it, then it is where the chain ends. -/
structure Walking (x : Unicode) (net : Internet) (v : SsrfValidator) (maxHops : ℕ) (initial : Str)
    (k : ℕ) (s : Expansion) : Prop extends Following x s where
  reached : Reached x net v initial s.hopNum s.currentUrl s.visitedUrls
  left : s.hops.length + k = maxHops
  limit : k = 0 → lastAnswer s.events = none ∨
    ∃ hop, s.hops.getLast? = some hop ∧ hop.canonicalUrl = s.currentUrl

theorem walking_start (maxHops : ℕ) (initial : Str) :
    Walking x net v maxHops initial maxHops (.start initial) where
  toFollowing := following_start initial
  reached := .start
  left := by simp [Expansion.start]
  limit := fun _ => .inl rfl

/-- The last redirect led to the current URL. -/
theorem Following.target_eq (h : Following x s) {target : Str} (hredirects : RedirectsTo x s.events target) :
    target = s.currentUrl := by
  rcases h.arrived with hnone | harrived
  · obtain ⟨_, _, _, _, _, hlast, -⟩ := hredirects
    rw [hnone] at hlast
    cases hlast
  · exact hredirects.unique harrived

theorem Walking.ended (h : Walking x net v maxHops initial 0 s) : Ended x s := by
  rintro target ⟨hredirects, -⟩
  rw [h.target_eq hredirects]
  rcases h.limit rfl with hnone | hlast
  · obtain ⟨_, _, _, _, _, hlast, -⟩ := hredirects
    rw [hnone] at hlast
    cases hlast
  · exact hlast

/-- A hop that is requested is answered. -/
theorem redirected_of_hop {ip location : Str} {pinned : Pinned}
    (hcheck : v.validateUrl x s.hopNum s.currentUrl = (true, ip))
    (hpinned : pinned = executePinnedRequest x net s.hopNum s.currentUrl ip)
    (hredirect : redirect pinned.statusCode pinned.nextUrl = some location) :
    Redirected x net v s.hopNum s.currentUrl location := by
  have hanswer : answer x net v s.hopNum s.currentUrl = pinned := by
    rw [answer, hcheck, hpinned]
  exact ⟨by rw [hcheck], by rw [hanswer, hredirect]⟩

theorem canonicalUrl_hop (s : Expansion) (ip : Str) (statusCode : ℕ) (headers : Dict Str Str)
    (isSafe : Bool) :
    (s.hop x ip statusCode headers isSafe).canonicalUrl = normalizeUrlCanonical x s.currentUrl := by
  rw [Expansion.hop]

theorem getLast?_requested (s : Expansion) (ip netloc : Str) (pinned : Pinned) :
    (s.requested x ip netloc pinned).hops.getLast? =
      some (s.hop x ip pinned.statusCode pinned.headers true) := List.getLast?_concat ..

/-- A turn that goes on gets to the next hop. -/
theorem Walking.next (h : Followable x net v maxHops initial) {k : ℕ} {s' : Expansion}
    (hs : Walking x net v maxHops initial (k + 1) s)
    (hturn : hop x net (v.expander x maxHops) s = (s', none)) :
    Walking x net v maxHops initial k s' := by
  have hstep := hopStep_hop x net (v.expander x maxHops) s
  rw [hturn] at hstep
  cases hstep with
  | moved ip netloc location joined pinned hcheck hurl hpinned hredirect hjoin hnew =>
    have hredirected := redirected_of_hop hcheck hpinned hredirect
    have hleft := hs.left
    have hnumber := hs.number
    obtain ⟨joined', hjoin', hend⟩ := h _ _ _ _ hs.reached (by omega) hredirected
    obtain rfl := Option.some.inj (hjoin.symm.trans hjoin')
    have hmoved := hs.moved ip netloc hpinned hredirect hjoin hnew
    have hreached := hs.reached.next ⟨location, joined, hredirected, hjoin, rfl⟩ hnew
    generalize normalizeUrlCanonical x joined = target at hend hmoved hreached hnew ⊢
    refine ⟨hmoved, hreached, ?_, fun hk => .inr ⟨_, getLast?_requested s ip netloc pinned, ?_⟩⟩
    · simp only [Expansion.moved_hops, Expansion.requested, List.length_append, List.length_singleton]
      omega
    · rw [canonicalUrl_hop, Expansion.moved_currentUrl]
      exact ((hend (by omega)).resolve_left hnew).symm

/-- A turn that ends the loop leaves no redirect behind, and no exception. -/
theorem Walking.last (h : Followable x net v maxHops initial) {k : ℕ} {s' : Expansion}
    {b : Option UrlError} (hs : Walking x net v maxHops initial (k + 1) s)
    (hturn : hop x net (v.expander x maxHops) s = (s', some b)) : b = none ∧ Ended x s' := by
  have hstep := hopStep_hop x net (v.expander x maxHops) s
  rw [hturn] at hstep
  cases hstep with
  | refused ip hcheck =>
    refine ⟨rfl, ?_⟩
    rintro target ⟨hredirects, hnew⟩
    -- the last redirect led to the hop that is refused
    have hbefore : RedirectsTo x s.events target := by
      simpa only [RedirectsTo, Expansion.refused, lastAnswer_checked] using hredirects
    rw [hs.target_eq hbefore] at hnew
    exact absurd (by simp [Expansion.refused, Expansion.hop]) hnew
  | unparsable ip hcheck hurl =>
    rw [urlsplit_of_validateUrl hcheck] at hurl
    cases hurl
  | arrived ip netloc pinned hcheck hurl hpinned hredirect =>
    refine ⟨rfl, ?_⟩
    rintro target ⟨hredirects, -⟩
    obtain ⟨location, joined, hsome, -⟩ := redirectsTo_requested_iff.1 hredirects
    rw [hredirect] at hsome
    cases hsome
  | unjoinable ip netloc location pinned hcheck hurl hpinned hredirect hjoin =>
    have hleft := hs.left
    have hnumber := hs.number
    obtain ⟨joined, hjoin', -⟩ := h _ _ _ _ hs.reached (by omega)
      (redirected_of_hop hcheck hpinned hredirect)
    rw [hjoin] at hjoin'
    cases hjoin'
  | looped ip netloc location joined pinned hcheck hurl hpinned hredirect hjoin hvisited =>
    refine ⟨rfl, ?_⟩
    rintro target ⟨hredirects, hnew⟩
    rw [Expansion.looped_events] at hredirects
    obtain ⟨location', joined', hredirect', hjoin', rfl⟩ := redirectsTo_requested_iff.1 hredirects
    obtain rfl := Option.some.inj (hredirect.symm.trans hredirect')
    obtain rfl := Option.some.inj (hjoin.symm.trans hjoin')
    rw [Expansion.looped_hops, hs.urls_requested] at hnew
    exact absurd hvisited hnew

/-- Where the redirects are followable, the loop ends well. -/
theorem ended_upTo (h : Followable x net v maxHops initial) :
    (∀ e, (Loop.upTo (hop x net (v.expander x maxHops)) maxHops (.start initial)).2 ≠ some (some e)) ∧
      Ended x (Loop.upTo (hop x net (v.expander x maxHops)) maxHops (.start initial)).1 := by
  have hloop := Loop.upTo_inv (I := Walking x net v maxHops initial) (Q := fun s b => b = none ∧ Ended x s)
    (fun k s s' hs => hs.next h) (fun k s s' b hs => hs.last h) maxHops (walking_start maxHops initial)
  rcases hdone : Loop.upTo (hop x net (v.expander x maxHops)) maxHops (.start initial) with ⟨s, _ | b⟩
  · rw [hdone] at hloop
    exact ⟨by simp, hloop.ended⟩
  · rw [hdone] at hloop
    obtain ⟨rfl, hended⟩ := hloop
    exact ⟨by simp, hended⟩

/-- What the promise says of the loop. -/
theorem notMisled_iff_of_upTo {done : Expansion × Option (Option UrlError)}
    (hdone : Loop.upTo (hop x net (v.expander x maxHops)) maxHops
      (.start (normalizeUrlCanonical x initialUrl)) = done) :
    NotMisled x net v maxHops initialUrl ↔
      (∀ e, done.2 ≠ some (some e)) ∧ ∀ target, LeftAt x done.1 target →
        (done.1.chain (normalizeUrlCanonical x initialUrl)).finalDestinationUrl = target := by
  unfold NotMisled expandUrl
  simp only [SsrfValidator.expander] at hdone ⊢
  rw [hdone]
  generalize normalizeUrlCanonical x initialUrl = initial
  rcases done with ⟨s, _ | _ | e⟩
  · simp
  · simp
  · simp

/-- A redirect at the limit to a new URL. -/
theorem canonical_of_limit {n : ℕ} {url target : Str} {visited : List Str}
    (h : NotMisled x net v n initialUrl)
    (hreached : Reached x net v (normalizeUrlCanonical x initialUrl) n url visited)
    (hleads : LeadsTo x net v n url target) (hnew : target ∉ visited) :
    target = normalizeUrlCanonical x url := by
  obtain ⟨s, hs, rfl, rfl, rfl, hloop⟩ := upTo_of_reached hreached (Nat.le_succ n)
  obtain ⟨ip, netloc, hhop⟩ := hop_of_leadsTo s.hopNum hleads hnew
  rw [show s.hopNum + 1 - s.hopNum = 0 + 1 by omega, Loop.upTo, hhop] at hloop
  obtain ⟨-, hdestination⟩ := (notMisled_iff_of_upTo hloop).1 h
  have hleft : LeftAt x ((s.requested x ip netloc (answer x net v s.hopNum s.currentUrl)).moved
      target) target := by
    refine ⟨?_, ?_⟩
    · obtain ⟨location, joined, hredirected, hjoin, rfl⟩ := hleads
      rw [Expansion.moved_events]
      exact redirectsTo_requested_iff.2 ⟨location, joined, hredirected.redirect, hjoin, rfl⟩
    · rw [Expansion.moved_hops, hs.urls_requested]
      exact hnew
  have hfinal := hdestination target hleft
  simp only [Loop.upTo, Expansion.chain, Expansion.moved_hops, getLast?_requested, Option.map_some,
    Option.getD_some, canonicalUrl_hop] at hfinal
  exact hfinal.symm

/-- **A hostile server cannot mislead the expansion** if and only if every redirect up to the
limit can be joined to the URL of its hop, and the one at the limit leads to where the chain has
been, or to the canonical form of the URL it comes from. -/
theorem not_misled_iff (x : Unicode) (net : Internet) (v : SsrfValidator) (maxHops : ℕ)
    (initialUrl : Str) :
    NotMisled x net v maxHops initialUrl ↔
      Followable x net v maxHops (normalizeUrlCanonical x initialUrl) := by
  constructor
  · intro h n url visited location hreached hle hredirected
    cases hjoin : urljoin x url location with
    | none =>
      obtain ⟨s, hs, rfl, rfl, rfl, hloop⟩ := upTo_of_reached hreached (Nat.le_succ_of_le hle)
      obtain ⟨ip, netloc, hhop⟩ := hop_of_redirected maxHops hredirected
      rw [show maxHops + 1 - s.hopNum = (maxHops - s.hopNum) + 1 by omega, Loop.upTo, hhop] at hloop
      simp only [Expansion.follow, Expansion.requested, hjoin] at hloop
      exact absurd rfl (((notMisled_iff_of_upTo hloop).1 h).1 _)
    | some joined =>
      refine ⟨joined, rfl, ?_⟩
      rintro rfl
      by_cases hvisited : normalizeUrlCanonical x joined ∈ visited
      · exact .inl hvisited
      · exact .inr (canonical_of_limit h hreached ⟨location, joined, hredirected, hjoin, rfl⟩ hvisited)
  · intro h
    obtain ⟨hok, hended⟩ := ended_upTo h
    refine (notMisled_iff_of_upTo rfl).2 ⟨hok, fun target hleft => ?_⟩
    obtain ⟨hop, hlast, hurl⟩ := hended target hleft
    rw [Expansion.chain, hlast, Option.map_some, Option.getD_some, hurl]

/-! ## A bracket without its partner -/

/-- A server that redirects to what is not a URL. -/
def bracketServer : Internet where
  lookup _ _ _ := ["93.184.216.34".toList]
  pick _ _ := 0
  respond _ _ _ := .ok ⟨302, some "http://[".toList, []⟩

/-- **One `Location` ends the expansion in an exception.** -/
theorem bracket_raises :
    ¬NotMisled asciiUnicode bracketServer publicValidator 5 "http://site.test/".toList := by
  rintro ⟨chain, hchain, -⟩
  have houtcome : (match (expandUrl asciiUnicode bracketServer
      (publicValidator.expander asciiUnicode 5) "http://site.test/".toList).2 with
    | .error _ => true
    | .ok _ => false) = true := by
    decide +kernel
  rw [hchain] at houtcome
  cases houtcome

end ScamOn.UrlIntelligence
