import ScamOn.UrlIntelligence.RedirectExpander

/-!
# Whether requests go to the address that was checked

`_execute_pinned_request` is given the address that `validate_url` returned, and does not use
it: httpx looks up the host of the URL on its own, and connects to one of the answers.

* `PinnedTo` is what the module promises: a connection for a hop is to the address on record.
* `Agreed` says of the requests of an expansion that httpx is given no other address.
* `sameRequests_expandUrl`: which of its answers httpx takes does not matter for what is requested.
* `pinned_iff_agreed`: so the promise is kept, whatever httpx takes, exactly if there is nothing
  else to take.  `rebound_to_metadata` is an expansion where there is.
-/

namespace ScamOn.UrlIntelligence

open Chars UrlParse Parsing

/-! ## The promise -/

/-- Every connection is to the address on record for a hop that was accepted with it. -/
def PinnedTo (exp : RedirectExpander) (s : Expansion) : Prop :=
  ∀ n m a, .connected n m a ∈ s.events → ∃ h ∈ s.hops, h.hopNumber = n ∧ h.isSsrfSafe = true ∧
    h.resolvedIp = a ∧ exp.validate n h.url = (true, a)

/-- The lookups of the requests answer with no address but the one that was checked. -/
def Agreed (x : Unicode) (net : Internet) (exp : RedirectExpander) (events : List Event) : Prop :=
  ∀ n m url, .sent n m url ∈ events →
    ∀ a ∈ net.lookup n m (clientHost x url), a = (exp.validate n url).2

/-- httpx takes other answers. -/
def Internet.repick (net : Internet) (pick : ℕ → Method → ℕ) : Internet := { net with pick := pick }

variable {x : Unicode} {net : Internet} {exp : RedirectExpander} {s : Expansion}

/-! ## Connections and requests -/

/-- Of the lookup of a request, httpx takes the address that it picks. -/
def Taken (x : Unicode) (net : Internet) (n : ℕ) (m : Method) (url a : Str) : Prop :=
  (net.lookup n m (clientHost x url))[net.pick n m % (net.lookup n m (clientHost x url)).length]? =
    some a

/-- The connections are those that the requests make. -/
def Faithful (x : Unicode) (net : Internet) (events : List Event) : Prop :=
  ∀ n m a, .connected n m a ∈ events ↔ ∃ url, .sent n m url ∈ events ∧ Taken x net n m url a

theorem faithful_nil : Faithful x net [] := by simp [Faithful]

theorem faithful_checked (n : ℕ) (url : Str) (isSafe : Bool) :
    Faithful x net [.checked n url isSafe] := by
  simp [Faithful]

theorem faithful_answered (url : Str) (statusCode : ℕ) (nextUrl : Option Str) :
    Faithful x net [.answered url statusCode nextUrl] := by
  simp [Faithful]

theorem Faithful.append {events events' : List Event} (h : Faithful x net events)
    (h' : Faithful x net events') : Faithful x net (events ++ events') := by
  intro n m a
  simp only [List.mem_append, h n m a, h' n m a, or_and_right, exists_or]

theorem faithful_send (n : ℕ) (m : Method) (url : Str) : Faithful x net (send x net n m url).1 := by
  intro n' m' a
  unfold send Taken
  dsimp only
  split
  · rename_i hnone
    simp only [List.mem_singleton, reduceCtorEq, false_iff]
    rintro ⟨url', hsent, htaken⟩
    cases hsent
    rw [hnone] at htaken
    cases htaken
  · rename_i address haddress
    simp only [List.mem_cons, List.not_mem_nil, reduceCtorEq, false_or, or_false]
    constructor
    · intro hconnected
      cases hconnected
      exact ⟨url, rfl, haddress⟩
    · rintro ⟨url', hsent, htaken⟩
      cases hsent
      rw [haddress] at htaken
      cases htaken
      rfl

theorem faithful_executePinnedRequest (n : ℕ) (url ip : Str) :
    Faithful x net (executePinnedRequest x net n url ip).events := by
  obtain ⟨methods, hevents⟩ := exists_methods x net n url ip
  rw [hevents]
  clear hevents
  induction methods with
  | nil => exact faithful_nil
  | cons m methods ih => exact (faithful_send n m url).append ih

/-! ## Requests and hops -/

/-- Every hop has its own number, and every request is for a hop that was accepted. -/
structure Recorded (exp : RedirectExpander) (s : Expansion) : Prop where
  distinct : (s.hops.map (·.hopNumber)).Nodup
  sent : ∀ n m url, .sent n m url ∈ s.events → ∃ h ∈ s.hops, h.hopNumber = n ∧ h.url = url ∧
    h.isSsrfSafe = true ∧ exp.validate n url = (true, h.resolvedIp)

/-- **What holds before every turn**, in addition to `Following`. -/
structure Recording (x : Unicode) (net : Internet) (exp : RedirectExpander) (s : Expansion) : Prop
    extends Following x s, Recorded exp s where
  faithful : Faithful x net s.events

theorem recording_start (url : Str) : Recording x net exp (.start url) where
  toFollowing := following_start url
  distinct := List.nodup_nil
  sent := by simp [Expansion.start]
  faithful := faithful_nil

/-- The next hop has a new number. -/
theorem Recording.distinct_snoc (h : Recording x net exp s) (ip : Str) (statusCode : ℕ)
    (headers : Dict Str Str) (isSafe : Bool) :
    ((s.hops ++ [s.hop x ip statusCode headers isSafe]).map (·.hopNumber)).Nodup := by
  rw [(h.snoc ip statusCode headers isSafe).1]
  exact List.nodup_range' ..

/-- A check alone changes nothing. -/
theorem Recording.recorded_checked (h : Recording x net exp s) (url : Str) (isSafe : Bool) :
    Recorded exp { s with events := s.events ++ [.checked s.hopNum url isSafe] } ∧
      Faithful x net (s.events ++ [.checked s.hopNum url isSafe]) := by
  refine ⟨⟨h.distinct, ?_⟩, h.faithful.append (faithful_checked s.hopNum url isSafe)⟩
  intro n m url hsent
  simp only [List.mem_append, List.mem_singleton, reduceCtorEq, or_false] at hsent
  exact h.sent n m url hsent

theorem Recording.recorded_refused (h : Recording x net exp s) (ip : Str) :
    Recorded exp (s.refused x ip) ∧ Faithful x net (s.refused x ip).events := by
  obtain ⟨hchecked, hfaithful⟩ := h.recorded_checked s.currentUrl false
  refine ⟨⟨h.distinct_snoc ip 403 ∅ false, fun n m url hsent => ?_⟩, hfaithful⟩
  obtain ⟨hop, hhop, hrest⟩ := hchecked.sent n m url hsent
  exact ⟨hop, List.mem_append_left _ hhop, hrest⟩

/-- **A hop that is requested** is on record with the address that was checked. -/
theorem Recording.recorded_requested (h : Recording x net exp s) {ip : Str} (netloc : Str) {pinned : Pinned}
    (hcheck : exp.validate s.hopNum s.currentUrl = (true, ip))
    (hpinned : pinned = executePinnedRequest x net s.hopNum s.currentUrl ip) :
    Recorded exp (s.requested x ip netloc pinned) ∧
      Faithful x net (s.requested x ip netloc pinned).events := by
  have hfaithful : Faithful x net pinned.events := by
    rw [hpinned]
    exact faithful_executePinnedRequest s.hopNum s.currentUrl ip
  refine ⟨⟨h.distinct_snoc ip pinned.statusCode pinned.headers true, fun n m url hsent => ?_⟩,
    h.faithful.append ((faithful_checked s.hopNum s.currentUrl true).append
      (hfaithful.append (faithful_answered s.currentUrl pinned.statusCode pinned.nextUrl)))⟩
  simp only [Expansion.requested, List.mem_append, List.mem_cons, reduceCtorEq, List.not_mem_nil,
    or_false, false_or] at hsent ⊢
  rcases hsent with hsent | hsent
  · obtain ⟨hop, hhop, hrest⟩ := h.sent n m url hsent
    exact ⟨hop, .inl hhop, hrest⟩
  · rw [hpinned] at hsent
    obtain ⟨m', hsent | ⟨a, -, hsent⟩⟩ := mem_events_executePinnedRequest x net hsent
    · cases hsent
      exact ⟨_, .inr rfl, rfl, rfl, rfl, hcheck⟩
    · cases hsent

/-- What is on record depends on the hops and the events. -/
theorem Recorded.congr {s' : Expansion} (h : Recorded exp s) (hhops : s'.hops = s.hops)
    (hevents : s'.events = s.events) : Recorded exp s' := by
  constructor
  · rw [hhops]
    exact h.distinct
  · rw [hhops, hevents]
    exact h.sent

theorem Recording.hop (h : Recording x net exp s) {s' : Expansion}
    (hturn : hop x net exp s = (s', none)) : Recording x net exp s' := by
  have hstep := hopStep_hop x net exp s
  rw [hturn] at hstep
  cases hstep with
  | moved ip netloc location joined pinned hcheck hurl hpinned hredirect hjoin hnew =>
    obtain ⟨hrecorded, hfaithful⟩ := h.recorded_requested netloc hcheck hpinned
    have hfollowing := h.toFollowing.moved ip netloc hpinned hredirect hjoin hnew
    exact ⟨hfollowing, hrecorded.congr (Expansion.moved_hops ..) (Expansion.moved_events ..), hfaithful⟩

theorem Recording.hop_last (h : Recording x net exp s) {s' : Expansion} {b : Option UrlError}
    (hturn : UrlIntelligence.hop x net exp s = (s', some b)) :
    Recorded exp s' ∧ Faithful x net s'.events := by
  have hstep := hopStep_hop x net exp s
  rw [hturn] at hstep
  cases hstep with
  | refused ip hcheck => exact h.recorded_refused ip
  | unparsable ip hcheck hurl => exact h.recorded_checked s.currentUrl true
  | arrived ip netloc pinned hcheck hurl hpinned hredirect =>
    exact h.recorded_requested netloc hcheck hpinned
  | unjoinable ip netloc location pinned hcheck hurl hpinned hredirect hjoin =>
    exact h.recorded_requested netloc hcheck hpinned
  | looped ip netloc location joined pinned hcheck hurl hpinned hredirect hjoin hvisited =>
    obtain ⟨hrecorded, hfaithful⟩ := h.recorded_requested netloc hcheck hpinned
    exact ⟨hrecorded.congr (Expansion.looped_hops _) (Expansion.looped_events _), hfaithful⟩

/-- The state at the end is that of the loop. -/
theorem expandUrl_fst (initialUrl : Str) : (expandUrl x net exp initialUrl).1 =
    (Loop.upTo (hop x net exp) exp.maxHops (.start (normalizeUrlCanonical x initialUrl))).1 := by
  unfold expandUrl
  dsimp only
  split
  · rfl
  · rfl

/-- **What is on record at the end.** -/
theorem recorded_expandUrl (x : Unicode) (net : Internet) (exp : RedirectExpander) (initialUrl : Str) :
    Recorded exp (expandUrl x net exp initialUrl).1 ∧
      Faithful x net (expandUrl x net exp initialUrl).1.events := by
  have hloop := Loop.upTo_inv (I := fun _ s => Recording x net exp s)
    (fun k s s' hs => hs.hop) (fun k s s' b hs => hs.hop_last) exp.maxHops
    (recording_start (normalizeUrlCanonical x initialUrl))
  rw [expandUrl_fst]
  rcases hdone : Loop.upTo (hop x net exp) exp.maxHops
    (.start (normalizeUrlCanonical x initialUrl)) with ⟨s, _ | b⟩
  · rw [hdone] at hloop
    exact ⟨hloop.toRecorded, hloop.faithful⟩
  · rw [hdone] at hloop
    exact hloop

/-! ## Which answer is taken -/

/-- The same requests are made. -/
def SameRequests (events events' : List Event) : Prop :=
  ∀ n m url, .sent n m url ∈ events ↔ .sent n m url ∈ events'

theorem sameRequests_refl (events : List Event) : SameRequests events events := fun _ _ _ => Iff.rfl

theorem SameRequests.append {events events' rest rest' : List Event}
    (h : SameRequests events events') (hrest : SameRequests rest rest') :
    SameRequests (events ++ rest) (events' ++ rest') := by
  intro n m url
  rw [List.mem_append, List.mem_append, h n m url, hrest n m url]

/-- The variables are the same, and so are the requests so far. -/
def Alike (s t : Expansion) : Prop :=
  ∃ events, t = { s with events := events } ∧ SameRequests s.events events

/-- What a request returns does not depend on the answer that is taken. -/
theorem send_repick (x : Unicode) (net : Internet) (pick : ℕ → Method → ℕ) (n : ℕ) (m : Method)
    (url : Str) :
    (send x net n m url).2 = (send x (net.repick pick) n m url).2 ∧
      SameRequests (send x net n m url).1 (send x (net.repick pick) n m url).1 := by
  have hcases : ∀ pick, (send x (net.repick pick) n m url).2 =
        (if net.lookup n m (clientHost x url) = [] then .error "Name or service not known"
          else net.respond n m url) ∧
      SameRequests [.sent n m url] (send x (net.repick pick) n m url).1 := by
    intro pick
    unfold send Internet.repick
    dsimp only
    split
    · rename_i hnone
      have hempty : net.lookup n m (clientHost x url) = [] := by
        by_contra hne
        have hlt := Nat.mod_lt (pick n m) (List.length_pos_iff.2 hne)
        rw [List.getElem?_eq_getElem hlt] at hnone
        cases hnone
      rw [if_pos hempty]
      exact ⟨rfl, sameRequests_refl _⟩
    · rename_i address haddress
      have hne : net.lookup n m (clientHost x url) ≠ [] := by
        intro hempty
        rw [hempty] at haddress
        cases haddress
      rw [if_neg hne]
      exact ⟨rfl, by simp [SameRequests]⟩
  obtain ⟨hresult, hevents⟩ := hcases net.pick
  obtain ⟨hresult', hevents'⟩ := hcases pick
  refine ⟨hresult.trans hresult'.symm, fun n' m' url' => ?_⟩
  exact (hevents n' m' url').symm.trans (hevents' n' m' url')

theorem received_events (events events' : List Event) (result : Except String Response) :
    received x events' result = { received x events result with events := events' } ∧
      (received x events result).events = events := by
  cases result with
  | error e => exact ⟨rfl, rfl⟩
  | ok response => exact ⟨rfl, rfl⟩

theorem executePinnedRequest_repick (x : Unicode) (net : Internet) (pick : ℕ → Method → ℕ) (n : ℕ)
    (url ip : Str) :
    ∃ events, executePinnedRequest x (net.repick pick) n url ip =
        { executePinnedRequest x net n url ip with events := events } ∧
      SameRequests (executePinnedRequest x net n url ip).events events := by
  obtain ⟨hhead, hsent⟩ := send_repick x net pick n .head url
  obtain ⟨hget, hsent'⟩ := send_repick x net pick n .get url
  unfold executePinnedRequest
  split_ifs
  · exact ⟨_, rfl, sameRequests_refl _⟩
  · exact ⟨_, rfl, sameRequests_refl _⟩
  · exact ⟨_, rfl, sameRequests_refl _⟩
  · cases urlparse x [] url with
    | none => exact ⟨_, rfl, sameRequests_refl _⟩
    | some parsed =>
      rcases hold : send x net n .head url with ⟨events, result⟩
      rcases hnew : send x (net.repick pick) n .head url with ⟨events', result'⟩
      rw [hold, hnew] at hhead hsent
      obtain rfl : result = result' := hhead
      have hreceived : ∀ (es es' : List Event) (r : Except String Response), SameRequests es es' →
          ∃ events, received x es' r = { received x es r with events := events } ∧
            SameRequests (received x es r).events events := by
        intro es es' r hsame
        refine ⟨es', (received_events es es' r).1, ?_⟩
        rw [(received_events es es' r).2]
        exact hsame
      cases result with
      | error e => exact hreceived events events' (.error e) hsent
      | ok response =>
        dsimp only
        split_ifs
        · rw [← hget]
          exact hreceived _ _ _ (hsent.append hsent')
        · exact hreceived events events' (.ok response) hsent

theorem alike_refl (s : Expansion) : Alike s s := ⟨s.events, rfl, sameRequests_refl _⟩

theorem Alike.moved {s t : Expansion} (h : Alike s t) (target : Str) :
    Alike (s.moved target) (t.moved target) := by
  obtain ⟨events, rfl, hsame⟩ := h
  exact ⟨events, rfl, hsame⟩

theorem Alike.looped {s t : Expansion} (h : Alike s t) : Alike s.looped t.looped := by
  obtain ⟨events, rfl, hsame⟩ := h
  exact ⟨events, rfl, hsame⟩

theorem Alike.follow {s t : Expansion} (h : Alike s t) (location : Option Str) :
    Alike (s.follow x location).1 (t.follow x location).1 ∧
      (s.follow x location).2 = (t.follow x location).2 := by
  have hlooped := h.looped
  have hmoved := h.moved
  obtain ⟨events, rfl, hsame⟩ := h
  unfold Expansion.follow
  cases location with
  | none => exact ⟨⟨events, rfl, hsame⟩, rfl⟩
  | some l =>
    dsimp only
    cases urljoin x s.currentUrl l with
    | none => exact ⟨⟨events, rfl, hsame⟩, rfl⟩
    | some joined =>
      dsimp only
      split_ifs
      · exact ⟨hlooped, rfl⟩
      · exact ⟨hmoved _, rfl⟩

/-- **A turn** makes the same requests, whatever answers are taken. -/
theorem Alike.hop {s t : Expansion} (h : Alike s t) (pick : ℕ → Method → ℕ) :
    Alike (hop x net exp s).1 (hop x (net.repick pick) exp t).1 ∧
      (UrlIntelligence.hop x net exp s).2 = (UrlIntelligence.hop x (net.repick pick) exp t).2 := by
  obtain ⟨events, rfl, hsame⟩ := h
  unfold UrlIntelligence.hop
  dsimp only
  rcases exp.validate s.hopNum s.currentUrl with ⟨_ | _, ip⟩
  · exact ⟨⟨_, rfl, hsame.append (sameRequests_refl _)⟩, rfl⟩
  · cases urlparse x [] s.currentUrl with
    | none => exact ⟨⟨_, rfl, hsame.append (sameRequests_refl _)⟩, rfl⟩
    | some parsed =>
      obtain ⟨events', hpinned, hsent⟩ :=
        executePinnedRequest_repick x net pick s.hopNum s.currentUrl ip
      simp only [hpinned]
      refine Alike.follow ⟨_, rfl, ?_⟩ _
      exact hsame.append ((sameRequests_refl [.checked s.hopNum s.currentUrl true]).append
        (hsent.append (sameRequests_refl _)))

/-- **An expansion** makes the same requests, whatever answers are taken. -/
theorem sameRequests_expandUrl (pick : ℕ → Method → ℕ) (initialUrl : Str) :
    SameRequests (expandUrl x net exp initialUrl).1.events
      (expandUrl x (net.repick pick) exp initialUrl).1.events := by
  rw [expandUrl_fst, expandUrl_fst]
  obtain ⟨⟨events, hend, hsame⟩, -⟩ := Loop.upTo_rel (fun s t hst => hst.hop (x := x) pick)
    (alike_refl (.start (normalizeUrlCanonical x initialUrl))) exp.maxHops
  rw [hend]
  exact hsame

/-! ## The promise, kept and broken -/

/-- The hop of a request is the one with its number. -/
theorem Recorded.validate_eq (h : Recorded exp s) {n : ℕ} {m : Method} {url a : Str}
    (hsent : .sent n m url ∈ s.events) {hop : Hop} (hhop : hop ∈ s.hops) (hnumber : hop.hopNumber = n)
    (hvalidate : exp.validate n hop.url = (true, a)) : exp.validate n url = (true, a) := by
  obtain ⟨hop', hhop', hnumber', rfl, -⟩ := h.sent n m url hsent
  rwa [List.inj_on_of_nodup_map h.distinct hhop' hhop (hnumber'.trans hnumber.symm)]

/-- **Requests go to the address that was checked**, whichever answers httpx takes, exactly if
its lookups have no other answers. -/
theorem pinned_iff_agreed (x : Unicode) (net : Internet) (exp : RedirectExpander) (initialUrl : Str) :
    (∀ pick, PinnedTo exp (expandUrl x (net.repick pick) exp initialUrl).1) ↔
      Agreed x net exp (expandUrl x net exp initialUrl).1.events := by
  constructor
  · intro hpinned n m url hsent a ha
    obtain ⟨i, hi, hget⟩ := List.getElem_of_mem ha
    -- httpx takes this very answer
    obtain ⟨hrecorded, hfaithful⟩ :=
      recorded_expandUrl x (net.repick fun _ _ => i) exp initialUrl
    have hsent' := (sameRequests_expandUrl (fun _ _ => i) initialUrl n m url).1 hsent
    have htaken : Taken x (net.repick fun _ _ => i) n m url a := by
      unfold Taken Internet.repick
      dsimp only
      rw [Nat.mod_eq_of_lt hi, List.getElem?_eq_getElem hi, hget]
    have hconnected := (hfaithful n m a).2 ⟨url, hsent', htaken⟩
    obtain ⟨hop, hhop, hnumber, -, -, hvalidate⟩ := hpinned (fun _ _ => i) n m a hconnected
    rw [hrecorded.validate_eq hsent' hhop hnumber hvalidate]
  · intro hagreed pick n m a hconnected
    obtain ⟨hrecorded, hfaithful⟩ :=
      recorded_expandUrl x (net.repick pick) exp initialUrl
    obtain ⟨url, hsent, htaken⟩ := (hfaithful n m a).1 hconnected
    obtain ⟨hop, hhop, hnumber, rfl, hsafe, hvalidate⟩ := hrecorded.sent n m url hsent
    have hsent' := (sameRequests_expandUrl pick initialUrl n m hop.url).2 hsent
    have haddress : a = hop.resolvedIp := by
      rw [hagreed n m hop.url hsent' a (List.mem_of_getElem? htaken), hvalidate]
    exact ⟨hop, hhop, hnumber, hsafe, haddress.symm, haddress ▸ hvalidate⟩

/-- A name that is public when it is checked, and the metadata service when it is requested. -/
def rebindingServer : Internet where
  lookup _ _ _ := ["169.254.169.254".toList]
  pick _ _ := 0
  respond _ _ _ := .ok ⟨200, none, []⟩

/-- The request of a hop that was checked goes to the metadata service. -/
theorem rebound_to_metadata :
    ¬PinnedTo ⟨publicValidator.validateUrl asciiUnicode, 5⟩
      (expandUrl asciiUnicode rebindingServer ⟨publicValidator.validateUrl asciiUnicode, 5⟩
        "http://site.test/".toList).1 := by
  intro hpinned
  have hconnected : .connected 1 .head "169.254.169.254".toList ∈
      (expandUrl asciiUnicode rebindingServer ⟨publicValidator.validateUrl asciiUnicode, 5⟩
        "http://site.test/".toList).1.events := by
    decide +kernel
  have hrecord : ∀ h ∈ (expandUrl asciiUnicode rebindingServer
      ⟨publicValidator.validateUrl asciiUnicode, 5⟩ "http://site.test/".toList).1.hops,
      h.resolvedIp ≠ "169.254.169.254".toList := by
    decide +kernel
  obtain ⟨h, hh, -, -, hip, -⟩ := hpinned 1 .head _ hconnected
  exact hrecord h hh hip

end ScamOn.UrlIntelligence
