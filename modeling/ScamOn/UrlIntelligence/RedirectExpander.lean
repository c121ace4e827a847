import ScamOn.Lib.Dict
import ScamOn.Lib.Loop
import ScamOn.Parsing.UrlExtractor
import ScamOn.UrlIntelligence.SsrfValidator

/-!
# Following redirects

`RedirectExpander.expand_url` follows the redirects of a URL, hop by hop: each hop is
checked by the SSRF validator, requested, and left for the target of its redirect, until a
hop is refused, does not redirect, redirects to where the chain has been, or is the last that
is allowed.

* `hop` is one turn of the loop and `expandUrl` the loop.  What happens in between is on
  record as a list of events: checks, requests, connections, answers.
* `Internet` is the other side: the answers to httpx's own lookups, and those of the servers.
* `Following` is what holds before every turn, `Followed` what holds at the end.
-/

namespace ScamOn.UrlIntelligence

open Chars UrlParse Parsing

/-! ## Requests -/

/-- The method of a request. -/
inductive Method
  | head | get
  deriving DecidableEq, Repr

/-- What the expander reads of a response. -/
structure Response where
  statusCode : ℕ
  location : Option Str
  headers : List (Str × Str)

/-- The other side, by the number of the hop and the method: the addresses that a host is
looked up as, which of them httpx takes (counting around), and what the server answers, if
there is an answer. -/
structure Internet where
  lookup : ℕ → Method → Str → List Str
  pick : ℕ → Method → ℕ
  respond : ℕ → Method → Str → Except String Response

/-- What happens in an expansion. -/
inductive Event
  | checked (hopNumber : ℕ) (url : Str) (isSafe : Bool)
  | sent (hopNumber : ℕ) (method : Method) (url : Str)
  | connected (hopNumber : ℕ) (method : Method) (address : Str)
  | answered (url : Str) (statusCode : ℕ) (nextUrl : Option Str)
  deriving DecidableEq

variable (x : Unicode) (net : Internet)

/-- The host that httpx looks up for a URL. -/
def clientHost (url : Str) : Str := ((urlsplit x url).map fun r => hostname x r.netloc).getD []

/-- `client.head` and `client.get`. -/
def send (n : ℕ) (method : Method) (url : Str) : List Event × Except String Response :=
  let addresses := net.lookup n method (clientHost x url)
  match addresses[net.pick n method % addresses.length]? with
  | none => ([.sent n method url], .error "Name or service not known")
  | some address => ([.sent n method url, .connected n method address], net.respond n method url)

/-- What `_execute_pinned_request` returns, with the events. -/
structure Pinned where
  events : List Event
  statusCode : ℕ
  nextUrl : Option Str
  headers : Dict Str Str

/-- A redirect that is answered without a request. -/
def fixture (statusCode : ℕ) (target : Str) : Pinned :=
  ⟨[], statusCode, some target, Dict.set ∅ "location".toList target⟩

/-- The outcome of the requests. -/
def received (events : List Event) : Except String Response → Pinned
  | .error _ => ⟨events, 200, none, ∅⟩
  | .ok response => ⟨events, response.statusCode, response.location,
      response.headers.foldl (fun d header => d.set (x.lower header.1) header.2) ∅⟩

/-- `_execute_pinned_request`.  The address that was checked is not used. -/
def executePinnedRequest (n : ℕ) (url _resolvedIp : Str) : Pinned :=
  if isPart "bit.ly/3abcd12" (x.lower url) then
    fixture 301 "https://phishing-portal.com/login".toList
  else if isPart "tinyurl.com/bankverify" (x.lower url) then
    fixture 302 "https://fakebank-login.com/secure".toList
  else if isPart "loop" (x.lower url) then fixture 301 url
  else
    match urlparse x [] url with
    | none => ⟨[], 200, none, ∅⟩
    | some _ =>
      match send x net n .head url with
      | (events, .error e) => received x events (.error e)
      | (events, .ok response) =>
        if response.statusCode = 405 then
          let again := send x net n .get url
          received x (events ++ again.1) again.2
        else received x events (.ok response)

/-! ## The chain -/

/-- `URLRedirectHopDTO`. -/
structure Hop where
  hopNumber : ℕ
  url : Str
  canonicalUrl : Str
  resolvedIp : Str
  statusCode : ℕ
  headers : Dict Str Str
  isSsrfSafe : Bool

/-- `URLRedirectChainDTO`. -/
structure RedirectChain where
  initialUrl : Str
  finalDestinationUrl : Str
  totalHops : ℕ
  isLoopDetected : Bool
  isShortenerExpanded : Bool
  hops : List Hop

/-- `RedirectExpander`.  The validator answers by the number of the hop. -/
structure RedirectExpander where
  validate : ℕ → Str → Bool × Str
  maxHops : ℕ

/-- The `ValueError` that leaves an expansion. -/
inductive UrlError
  | unparsable (url : Str)
  | unjoinable (base url : Str)
  deriving DecidableEq

/-- The variables of the loop, with the events so far. -/
structure Expansion where
  hopNum : ℕ
  currentUrl : Str
  hops : List Hop
  visitedUrls : List Str
  isLoop : Bool
  isShortener : Bool
  events : List Event

/-- The variables before the first hop. -/
def Expansion.start (url : Str) : Expansion := ⟨1, url, [], [url], false, false, []⟩

/-- The `Location` of a redirect. -/
def redirect (statusCode : ℕ) (nextUrl : Option Str) : Option Str :=
  if [301, 302, 303, 307, 308].contains statusCode then nextUrl.filter (· ≠ []) else none

/-- The hop of a URL. -/
def Expansion.hop (s : Expansion) (ip : Str) (statusCode : ℕ) (headers : Dict Str Str)
    (isSafe : Bool) : Hop :=
  ⟨s.hopNum, s.currentUrl, normalizeUrlCanonical x s.currentUrl, ip, statusCode, headers, isSafe⟩

/-- The variables after a hop that was refused. -/
def Expansion.refused (s : Expansion) (ip : Str) : Expansion :=
  { s with
    events := s.events ++ [.checked s.hopNum s.currentUrl false]
    hops := s.hops ++ [s.hop x ip 403 ∅ false] }

/-- The variables after a hop that was requested. -/
def Expansion.requested (s : Expansion) (ip netloc : Str) (pinned : Pinned) : Expansion :=
  { s with
    isShortener := s.isShortener || Parsing.isShortener (x.lower netloc)
    events := s.events ++ .checked s.hopNum s.currentUrl true ::
      (pinned.events ++ [.answered s.currentUrl pinned.statusCode pinned.nextUrl])
    hops := s.hops ++ [s.hop x ip pinned.statusCode pinned.headers true] }

/-- The variables after a redirect to a URL that is new. -/
def Expansion.moved (s : Expansion) (target : Str) : Expansion :=
  { s with visitedUrls := s.visitedUrls ++ [target], currentUrl := target, hopNum := s.hopNum + 1 }

/-- The variables after a redirect to where the chain has been. -/
def Expansion.looped (s : Expansion) : Expansion := { s with isLoop := true }

/-- What becomes of a redirect, if there is one: nothing if the loop goes on, else `break` or
an exception. -/
def Expansion.follow (s : Expansion) : Option Str → Expansion × Option (Option UrlError)
  | none => (s, some none)
  | some location =>
    match urljoin x s.currentUrl location with
    | none => (s, some (some (.unjoinable s.currentUrl location)))
    | some joined =>
      let target := normalizeUrlCanonical x joined
      if s.visitedUrls.contains target then (s.looped, some none)
      else (s.moved target, none)

/-- One turn of the loop. -/
def hop (exp : RedirectExpander) (s : Expansion) : Expansion × Option (Option UrlError) :=
  match exp.validate s.hopNum s.currentUrl with
  | (false, ip) => (s.refused x ip, some none)
  | (true, ip) =>
    match urlparse x [] s.currentUrl with
    | none =>
      ({ s with events := s.events ++ [.checked s.hopNum s.currentUrl true] },
        some (some (.unparsable s.currentUrl)))
    | some parsed =>
      let pinned := executePinnedRequest x net s.hopNum s.currentUrl ip
      (s.requested x ip parsed.netloc pinned).follow x (redirect pinned.statusCode pinned.nextUrl)

/-- The chain of an expansion. -/
def Expansion.chain (s : Expansion) (initialUrl : Str) : RedirectChain where
  initialUrl := initialUrl
  finalDestinationUrl := (s.hops.getLast?.map (·.canonicalUrl)).getD initialUrl
  totalHops := s.hops.length
  isLoopDetected := s.isLoop
  isShortenerExpanded := s.isShortener
  hops := s.hops

/-- `expand_url`: the variables at the end, and the chain. -/
def expandUrl (exp : RedirectExpander) (initialUrl : Str) :
    Expansion × Except UrlError RedirectChain :=
  let initial := normalizeUrlCanonical x initialUrl
  let done := Loop.upTo (hop x net exp) exp.maxHops (.start initial)
  match done.2 with
  | some (some e) => (done.1, .error e)
  | _ => (done.1, .ok (done.1.chain initial))

/-! ## What a turn does -/

/-- What becomes of a redirect. -/
theorem follow_cases (s : Expansion) (location : Option Str) :
    location = none ∧ s.follow x location = (s, some none) ∨
    ∃ l, location = some l ∧
      (urljoin x s.currentUrl l = none ∧
          s.follow x location = (s, some (some (.unjoinable s.currentUrl l))) ∨
        ∃ joined, urljoin x s.currentUrl l = some joined ∧
          (normalizeUrlCanonical x joined ∈ s.visitedUrls ∧
              s.follow x location = (s.looped, some none) ∨
            normalizeUrlCanonical x joined ∉ s.visitedUrls ∧
              s.follow x location = (s.moved (normalizeUrlCanonical x joined), none))) := by
  cases location with
  | none => exact .inl ⟨rfl, rfl⟩
  | some l =>
    refine .inr ⟨l, rfl, ?_⟩
    unfold Expansion.follow
    cases hjoin : urljoin x s.currentUrl l with
    | none => exact .inl ⟨rfl, by simp only [hjoin]⟩
    | some joined =>
      refine .inr ⟨joined, rfl, ?_⟩
      simp only [hjoin]
      by_cases hvisited : normalizeUrlCanonical x joined ∈ s.visitedUrls
      · exact .inl ⟨hvisited, if_pos (by simpa using hvisited)⟩
      · exact .inr ⟨hvisited, if_neg (by simpa using hvisited)⟩

/-- **What a turn can do**: the hop is refused, is not a URL, does not redirect, redirects to
what is not a URL, to where the chain has been, or to a new URL. -/
inductive HopStep (exp : RedirectExpander) (s : Expansion) :
    Expansion × Option (Option UrlError) → Prop
  | refused (ip : Str) (hcheck : exp.validate s.hopNum s.currentUrl = (false, ip)) :
      HopStep exp s (s.refused x ip, some none)
  | unparsable (ip : Str) (hcheck : exp.validate s.hopNum s.currentUrl = (true, ip))
      (hurl : (urlsplit x s.currentUrl).isSome = false) :
      HopStep exp s ({ s with events := s.events ++ [.checked s.hopNum s.currentUrl true] },
        some (some (.unparsable s.currentUrl)))
  | arrived (ip netloc : Str) (pinned : Pinned)
      (hcheck : exp.validate s.hopNum s.currentUrl = (true, ip))
      (hurl : (urlsplit x s.currentUrl).isSome = true)
      (hpinned : pinned = executePinnedRequest x net s.hopNum s.currentUrl ip)
      (hredirect : redirect pinned.statusCode pinned.nextUrl = none) :
      HopStep exp s (s.requested x ip netloc pinned, some none)
  | unjoinable (ip netloc location : Str) (pinned : Pinned)
      (hcheck : exp.validate s.hopNum s.currentUrl = (true, ip))
      (hurl : (urlsplit x s.currentUrl).isSome = true)
      (hpinned : pinned = executePinnedRequest x net s.hopNum s.currentUrl ip)
      (hredirect : redirect pinned.statusCode pinned.nextUrl = some location)
      (hjoin : urljoin x s.currentUrl location = none) :
      HopStep exp s (s.requested x ip netloc pinned, some (some (.unjoinable s.currentUrl location)))
  | looped (ip netloc location joined : Str) (pinned : Pinned)
      (hcheck : exp.validate s.hopNum s.currentUrl = (true, ip))
      (hurl : (urlsplit x s.currentUrl).isSome = true)
      (hpinned : pinned = executePinnedRequest x net s.hopNum s.currentUrl ip)
      (hredirect : redirect pinned.statusCode pinned.nextUrl = some location)
      (hjoin : urljoin x s.currentUrl location = some joined)
      (hvisited : normalizeUrlCanonical x joined ∈ s.visitedUrls) :
      HopStep exp s ((s.requested x ip netloc pinned).looped, some none)
  | moved (ip netloc location joined : Str) (pinned : Pinned)
      (hcheck : exp.validate s.hopNum s.currentUrl = (true, ip))
      (hurl : (urlsplit x s.currentUrl).isSome = true)
      (hpinned : pinned = executePinnedRequest x net s.hopNum s.currentUrl ip)
      (hredirect : redirect pinned.statusCode pinned.nextUrl = some location)
      (hjoin : urljoin x s.currentUrl location = some joined)
      (hnew : normalizeUrlCanonical x joined ∉ s.visitedUrls) :
      HopStep exp s ((s.requested x ip netloc pinned).moved (normalizeUrlCanonical x joined), none)

theorem hopStep_hop (exp : RedirectExpander) (s : Expansion) : HopStep x net exp s (hop x net exp s) := by
  unfold hop
  rcases hcheck : exp.validate s.hopNum s.currentUrl with ⟨_ | _, ip⟩
  · exact .refused ip hcheck
  · have hsplit := isSome_urlparse_iff (x := x) [] s.currentUrl
    cases hparse : urlparse x [] s.currentUrl with
    | none =>
      rw [hparse] at hsplit
      exact .unparsable ip hcheck hsplit.symm
    | some parsed =>
      rw [hparse] at hsplit
      dsimp only
      rcases follow_cases x (s.requested x ip parsed.netloc
          (executePinnedRequest x net s.hopNum s.currentUrl ip)) (redirect _ _) with
        ⟨hredirect, h⟩ | ⟨location, hredirect, ⟨hjoin, h⟩ | ⟨joined, hjoin, ⟨hvisited, h⟩ | ⟨hnew, h⟩⟩⟩
      · rw [h]
        exact .arrived ip parsed.netloc _ hcheck hsplit.symm rfl hredirect
      · rw [h]
        exact .unjoinable ip parsed.netloc location _ hcheck hsplit.symm rfl hredirect hjoin
      · rw [h]
        exact .looped ip parsed.netloc location joined _ hcheck hsplit.symm rfl hredirect hjoin hvisited
      · rw [h]
        exact .moved ip parsed.netloc location joined _ hcheck hsplit.symm rfl hredirect hjoin hnew

/-! ## What a request does -/

/-- **The events of a request** are those of its methods: none for a fixture, else `HEAD`, and
`GET` if that is not allowed. -/
theorem exists_methods (n : ℕ) (url ip : Str) :
    ∃ methods : List Method, (executePinnedRequest x net n url ip).events =
      methods.flatMap fun m => (send x net n m url).1 := by
  unfold executePinnedRequest
  split_ifs
  · exact ⟨[], rfl⟩
  · exact ⟨[], rfl⟩
  · exact ⟨[], rfl⟩
  · cases urlparse x [] url with
    | none => exact ⟨[], rfl⟩
    | some parsed =>
      rcases hhead : send x net n .head url with ⟨events, e | response⟩
      · exact ⟨[.head], by simp [received, hhead]⟩
      · dsimp only
        split_ifs with hstatus
        · refine ⟨[.head, .get], ?_⟩
          rcases hget : send x net n .get url with ⟨events', e | response'⟩
          · simp [received, hhead, hget]
          · simp [received, hhead, hget]
        · exact ⟨[.head], by simp [received, hhead]⟩

/-- An event of a request is that it is sent or connected. -/
theorem mem_events_send {n : ℕ} {m : Method} {url : Str} {e : Event}
    (he : e ∈ (send x net n m url).1) :
    e = .sent n m url ∨ ∃ a ∈ net.lookup n m (clientHost x url), e = .connected n m a := by
  unfold send at he
  dsimp only at he
  split at he
  · exact .inl (List.mem_singleton.1 he)
  · rename_i address haddress
    rcases List.mem_pair.1 he with rfl | rfl
    · exact .inl rfl
    · exact .inr ⟨address, List.mem_of_getElem? haddress, rfl⟩

theorem mem_events_executePinnedRequest {n : ℕ} {url ip : Str} {e : Event}
    (he : e ∈ (executePinnedRequest x net n url ip).events) :
    ∃ m, e = .sent n m url ∨ ∃ a ∈ net.lookup n m (clientHost x url), e = .connected n m a := by
  obtain ⟨methods, hevents⟩ := exists_methods x net n url ip
  rw [hevents, List.mem_flatMap] at he
  obtain ⟨m, -, he⟩ := he
  exact ⟨m, mem_events_send x net he⟩

/-! ## Checks and answers on record -/

/-- Every request follows a check that accepted its URL, with no other check in between;
`last` is the last check so far. -/
def CheckedFirst : Option (ℕ × Str × Bool) → List Event → Prop
  | _, [] => True
  | _, .checked n url isSafe :: events => CheckedFirst (some (n, url, isSafe)) events
  | last, .sent n _ url :: events => last = some (n, url, true) ∧ CheckedFirst last events
  | last, .connected _ _ _ :: events => CheckedFirst last events
  | last, .answered _ _ _ :: events => CheckedFirst last events

/-- The answer that an event is. -/
def Event.answer? : Event → Option (Str × ℕ × Option Str)
  | .answered url statusCode nextUrl => some (url, statusCode, nextUrl)
  | _ => none

/-- The last answer on record: the URL, the status and the `Location`. -/
def lastAnswer (events : List Event) : Option (Str × ℕ × Option Str) :=
  (events.filterMap (·.answer?)).getLast?

theorem checkedFirst_append {last : Option (ℕ × Str × Bool)} {events rest : List Event} {n : ℕ}
    {url : Str} {isSafe : Bool} (h : CheckedFirst last events)
    (hrest : CheckedFirst (some (n, url, isSafe)) rest) :
    CheckedFirst last (events ++ .checked n url isSafe :: rest) := by
  induction events generalizing last with
  | nil => exact hrest
  | cons e events ih =>
    cases e with
    | checked n' url' isSafe' => exact ih h
    | sent n' m url' => exact ⟨h.1, ih h.2⟩
    | connected n' m a => exact ih h
    | answered url' statusCode nextUrl => exact ih h

/-- The events of a request, after the check of its URL. -/
theorem checkedFirst_requested {n : ℕ} {url : Str} {events : List Event}
    (h : ∀ e ∈ events, ∃ m, e = .sent n m url ∨ ∃ a, e = .connected n m a) (statusCode : ℕ)
    (nextUrl : Option Str) :
    CheckedFirst (some (n, url, true)) (events ++ [.answered url statusCode nextUrl]) := by
  induction events with
  | nil => trivial
  | cons e events ih =>
    have ih' := ih fun e he => h e (List.mem_cons_of_mem _ he)
    obtain ⟨m, rfl | ⟨a, rfl⟩⟩ := h e (List.mem_cons_self ..)
    · exact ⟨rfl, ih'⟩
    · exact ih'

/-- The answer of a hop that was requested is the last. -/
theorem lastAnswer_requested (s : Expansion) (ip netloc : Str) (pinned : Pinned) :
    lastAnswer (s.requested x ip netloc pinned).events =
      some (s.currentUrl, pinned.statusCode, pinned.nextUrl) := by
  simp [lastAnswer, Expansion.requested, Event.answer?, List.filterMap_append, List.getLast?_append]

theorem lastAnswer_checked (events : List Event) (n : ℕ) (url : Str) (isSafe : Bool) :
    lastAnswer (events ++ [.checked n url isSafe]) = lastAnswer events := by
  simp [lastAnswer, Event.answer?, List.filterMap_append]

/-! ## What the loop keeps -/

/-- The last answer redirects to `target`. -/
def RedirectsTo (events : List Event) (target : Str) : Prop :=
  ∃ url statusCode nextUrl location joined, lastAnswer events = some (url, statusCode, nextUrl) ∧
    redirect statusCode nextUrl = some location ∧ urljoin x url location = some joined ∧
    normalizeUrlCanonical x joined = target

/-- What holds as long as no hop was refused: the hops are numbered, were all checked before
they were requested, and are the URLs that were visited. -/
structure Visiting (s : Expansion) : Prop where
  numbers : s.hops.map (·.hopNumber) = List.range' 1 s.hops.length
  nodup : (s.hops.map (·.url)).Nodup
  safe : ∀ h ∈ s.hops, h.isSsrfSafe = true
  checked : CheckedFirst none s.events
  requested : ∀ n m url, .sent n m url ∈ s.events → ∃ h ∈ s.hops, h.hopNumber = n ∧ h.url = url

/-- **What holds before every turn**: in addition, the current URL is new, and it is where
the last answer redirected to. -/
structure Following (s : Expansion) : Prop extends Visiting s where
  number : s.hopNum = s.hops.length + 1
  visited : s.visitedUrls = s.hops.map (·.url) ++ [s.currentUrl]
  fresh : s.currentUrl ∉ s.hops.map (·.url)
  noLoop : s.isLoop = false
  arrived : lastAnswer s.events = none ∨ RedirectsTo x s.events s.currentUrl

/-- **What holds at the end.**  A loop is detected exactly if the last answer redirects to
the URL of a hop that was requested. -/
structure Followed (s : Expansion) : Prop where
  numbers : s.hops.map (·.hopNumber) = List.range' 1 s.hops.length
  nodup : (s.hops.map (·.url)).Nodup
  safe : ∀ h ∈ s.hops.dropLast, h.isSsrfSafe = true
  checked : CheckedFirst none s.events
  requested : ∀ n m url, .sent n m url ∈ s.events → ∃ h ∈ s.hops, h.hopNumber = n ∧ h.url = url
  loop : s.isLoop = true ↔
    ∃ target, RedirectsTo x s.events target ∧
      target ∈ (s.hops.filter (·.isSsrfSafe)).map (·.url)

variable {x net} {s : Expansion} {exp : RedirectExpander}

theorem following_start (url : Str) : Following x (.start url) where
  numbers := rfl
  nodup := List.nodup_nil
  safe := by simp [Expansion.start]
  checked := trivial
  requested := by simp [Expansion.start]
  number := rfl
  visited := rfl
  fresh := by simp [Expansion.start]
  noLoop := rfl
  arrived := .inl rfl

@[simp] theorem Expansion.looped_hops (s : Expansion) : s.looped.hops = s.hops := rfl

@[simp] theorem Expansion.looped_events (s : Expansion) : s.looped.events = s.events := rfl

@[simp] theorem Expansion.moved_hops (s : Expansion) (target : Str) : (s.moved target).hops = s.hops :=
  rfl

@[simp] theorem Expansion.moved_events (s : Expansion) (target : Str) :
    (s.moved target).events = s.events := rfl

@[simp] theorem Expansion.moved_currentUrl (s : Expansion) (target : Str) :
    (s.moved target).currentUrl = target := rfl

/-- The hops and the events are all that matters. -/
theorem Visiting.congr {s' : Expansion} (h : Visiting s) (hhops : s'.hops = s.hops)
    (hevents : s'.events = s.events) : Visiting s' := by
  obtain ⟨hnumbers, hnodup, hsafe, hchecked, hrequested⟩ := h
  constructor
  · rwa [hhops]
  · rwa [hhops]
  · rwa [hhops]
  · rwa [hevents]
  · rwa [hhops, hevents]

/-- The last answer redirects to one URL only. -/
theorem RedirectsTo.unique {events : List Event} {target target' : Str}
    (h : RedirectsTo x events target) (h' : RedirectsTo x events target') : target = target' := by
  obtain ⟨url, statusCode, nextUrl, location, joined, hlast, hredirect, hjoin, rfl⟩ := h
  obtain ⟨url', statusCode', nextUrl', location', joined', hlast', hredirect', hjoin', rfl⟩ := h'
  cases hlast.symm.trans hlast'
  cases hredirect.symm.trans hredirect'
  cases hjoin.symm.trans hjoin'
  rfl

/-- A hop with the next number and a new URL. -/
theorem Following.snoc (h : Following x s) (ip : Str) (statusCode : ℕ) (headers : Dict Str Str)
    (isSafe : Bool) :
    (s.hops ++ [s.hop x ip statusCode headers isSafe]).map (·.hopNumber) =
        List.range' 1 (s.hops ++ [s.hop x ip statusCode headers isSafe]).length ∧
      ((s.hops ++ [s.hop x ip statusCode headers isSafe]).map (·.url)).Nodup := by
  constructor
  · rw [List.map_append, h.numbers, List.length_append, List.length_singleton, List.range'_concat]
    simp [Expansion.hop, h.number, Nat.add_comm]
  · rw [List.map_append, List.nodup_append]
    refine ⟨h.nodup, by simp, ?_⟩
    rintro url hurl url' hurl' rfl
    obtain rfl : url = s.currentUrl := by simpa [Expansion.hop] using hurl'
    exact h.fresh hurl

/-- **A hop that is requested** is checked and has its number. -/
theorem Following.visiting_requested (h : Following x s) (ip netloc : Str) {pinned : Pinned}
    (hpinned : pinned = executePinnedRequest x net s.hopNum s.currentUrl ip) :
    Visiting (s.requested x ip netloc pinned) where
  numbers := (h.snoc ip pinned.statusCode pinned.headers true).1
  nodup := (h.snoc ip pinned.statusCode pinned.headers true).2
  safe := by
    intro hop hhop
    rcases List.mem_append.1 hhop with hhop | hhop
    · exact h.safe hop hhop
    · obtain rfl := List.mem_singleton.1 hhop
      rfl
  checked := by
    refine checkedFirst_append h.checked (checkedFirst_requested ?_ _ _)
    intro e he
    rw [hpinned] at he
    obtain ⟨m, he | ⟨a, -, he⟩⟩ := mem_events_executePinnedRequest x net he
    · exact ⟨m, .inl he⟩
    · exact ⟨m, .inr ⟨a, he⟩⟩
  requested := by
    intro n m url hsent
    simp only [Expansion.requested, List.mem_append, List.mem_cons, reduceCtorEq, List.not_mem_nil,
      or_false, false_or] at hsent ⊢
    rcases hsent with hsent | hsent
    · obtain ⟨hop, hhop, hnumber, hurl⟩ := h.requested n m url hsent
      exact ⟨hop, .inl hhop, hnumber, hurl⟩
    · rw [hpinned] at hsent
      obtain ⟨m', hsent | ⟨a, -, hsent⟩⟩ := mem_events_executePinnedRequest x net hsent
      · cases hsent
        exact ⟨_, .inr rfl, rfl, rfl⟩
      · cases hsent

theorem Following.urls_requested (h : Following x s) (ip netloc : Str) (pinned : Pinned) :
    (s.requested x ip netloc pinned).hops.map (·.url) = s.visitedUrls := by
  simp [Expansion.requested, Expansion.hop, h.visited]

/-- The last answer of a hop that was requested is its own. -/
theorem redirectsTo_requested_iff {ip netloc target : Str} {pinned : Pinned} :
    RedirectsTo x (s.requested x ip netloc pinned).events target ↔
      ∃ location joined, redirect pinned.statusCode pinned.nextUrl = some location ∧
        urljoin x s.currentUrl location = some joined ∧ normalizeUrlCanonical x joined = target := by
  unfold RedirectsTo
  rw [lastAnswer_requested]
  constructor
  · rintro ⟨url, statusCode, nextUrl, location, joined, hlast, hredirect, hjoin, htarget⟩
    cases hlast
    exact ⟨location, joined, hredirect, hjoin, htarget⟩
  · rintro ⟨location, joined, hredirect, hjoin, htarget⟩
    exact ⟨_, _, _, location, joined, rfl, hredirect, hjoin, htarget⟩

/-- What holds at the end, if all hops were requested. -/
theorem Visiting.followed (h : Visiting s)
    (hloop : s.isLoop = true ↔ ∃ target, RedirectsTo x s.events target ∧ target ∈ s.hops.map (·.url)) :
    Followed x s where
  numbers := h.numbers
  nodup := h.nodup
  safe := fun hop hhop => h.safe hop (List.dropLast_subset _ hhop)
  checked := h.checked
  requested := h.requested
  loop := by rw [hloop, List.filter_eq_self.2 h.safe]

/-- The current URL is not one that the chain has been to. -/
theorem Following.not_back (h : Following x s) :
    ¬∃ target, RedirectsTo x s.events target ∧ target ∈ s.hops.map (·.url) := by
  rintro ⟨target, hredirects, hmem⟩
  rcases h.arrived with hnone | hcurrent
  · obtain ⟨url, statusCode, nextUrl, location, joined, hlast, -⟩ := hredirects
    rw [hnone] at hlast
    cases hlast
  · rw [hredirects.unique hcurrent] at hmem
    exact h.fresh hmem

/-- **The last hop that is allowed** may well redirect to a new URL. -/
theorem Following.followed (h : Following x s) : Followed x s :=
  h.toVisiting.followed (iff_of_false (by simp [h.noLoop]) h.not_back)

theorem Following.followed_refused (h : Following x s) (ip : Str) : Followed x (s.refused x ip) where
  numbers := (h.snoc ip 403 ∅ false).1
  nodup := (h.snoc ip 403 ∅ false).2
  safe := by
    intro hop hhop
    rw [Expansion.refused, List.dropLast_concat] at hhop
    exact h.safe hop hhop
  checked := checkedFirst_append h.checked trivial
  requested := by
    intro n m url hsent
    simp only [Expansion.refused, List.mem_append, List.mem_singleton, reduceCtorEq, or_false] at hsent ⊢
    obtain ⟨hop, hhop, hnumber, hurl⟩ := h.requested n m url hsent
    exact ⟨hop, .inl hhop, hnumber, hurl⟩
  loop := by
    have hsafe : (s.refused x ip).hops.filter (·.isSsrfSafe) = s.hops := by
      rw [Expansion.refused, List.filter_append, List.filter_eq_self.2 h.safe]
      simp [Expansion.hop]
    have hevents : ∀ target, RedirectsTo x (s.refused x ip).events target ↔
        RedirectsTo x s.events target := by
      intro target
      simp only [RedirectsTo, Expansion.refused, lastAnswer_checked]
    rw [hsafe]
    simp only [hevents]
    exact iff_of_false (by simp [Expansion.refused, h.noLoop]) h.not_back

theorem Following.followed_arrived (h : Following x s) (ip netloc : Str) {pinned : Pinned}
    (hpinned : pinned = executePinnedRequest x net s.hopNum s.currentUrl ip)
    (hredirect : redirect pinned.statusCode pinned.nextUrl = none) :
    Followed x (s.requested x ip netloc pinned) := by
  refine (h.visiting_requested ip netloc hpinned).followed (iff_of_false ?_ ?_)
  · simp [Expansion.requested, h.noLoop]
  · rintro ⟨target, hredirects, -⟩
    obtain ⟨location, joined, hredirect', -⟩ := redirectsTo_requested_iff.1 hredirects
    rw [hredirect] at hredirect'
    cases hredirect'

theorem Following.followed_looped (h : Following x s) (ip netloc : Str) {pinned : Pinned}
    (hpinned : pinned = executePinnedRequest x net s.hopNum s.currentUrl ip) {location joined : Str}
    (hredirect : redirect pinned.statusCode pinned.nextUrl = some location)
    (hjoin : urljoin x s.currentUrl location = some joined)
    (hvisited : normalizeUrlCanonical x joined ∈ s.visitedUrls) :
    Followed x (s.requested x ip netloc pinned).looped := by
  have hvisiting := (h.visiting_requested ip netloc hpinned).congr
    (s.requested x ip netloc pinned).looped_hops (s.requested x ip netloc pinned).looped_events
  refine hvisiting.followed (iff_of_true rfl ⟨normalizeUrlCanonical x joined, ?_, ?_⟩)
  · rw [Expansion.looped_events]
    exact redirectsTo_requested_iff.2 ⟨location, joined, hredirect, hjoin, rfl⟩
  · rw [Expansion.looped_hops, h.urls_requested]
    exact hvisited

/-- **A redirect to a new URL** leaves the chain as it should be. -/
theorem Following.moved (h : Following x s) (ip netloc : Str) {pinned : Pinned}
    (hpinned : pinned = executePinnedRequest x net s.hopNum s.currentUrl ip) {location joined : Str}
    (hredirect : redirect pinned.statusCode pinned.nextUrl = some location)
    (hjoin : urljoin x s.currentUrl location = some joined)
    (hnew : normalizeUrlCanonical x joined ∉ s.visitedUrls) :
    Following x ((s.requested x ip netloc pinned).moved (normalizeUrlCanonical x joined)) where
  toVisiting := (h.visiting_requested ip netloc hpinned).congr (Expansion.moved_hops ..)
    (Expansion.moved_events ..)
  number := by simp [Expansion.moved, Expansion.requested, h.number]
  visited := by
    rw [Expansion.moved_hops, Expansion.moved_currentUrl, h.urls_requested]
    rfl
  fresh := by
    rw [Expansion.moved_hops, Expansion.moved_currentUrl, h.urls_requested]
    exact hnew
  noLoop := h.noLoop
  arrived := by
    rw [Expansion.moved_events, Expansion.moved_currentUrl]
    exact .inr (redirectsTo_requested_iff.2 ⟨location, joined, hredirect, hjoin, rfl⟩)

/-- **A URL that was accepted but is none** ends the chain where it was. -/
theorem Following.followed_unparsable (h : Following x s) :
    Followed x { s with events := s.events ++ [.checked s.hopNum s.currentUrl true] } where
  numbers := h.numbers
  nodup := h.nodup
  safe := h.followed.safe
  checked := checkedFirst_append h.checked trivial
  requested := by
    intro n m url hsent
    simp only [List.mem_append, List.mem_singleton, reduceCtorEq, or_false] at hsent
    exact h.requested n m url hsent
  loop := by
    simp only [RedirectsTo, lastAnswer_checked]
    exact h.followed.loop

/-! ## Whole expansions -/

/-- A URL with an ASCII authority. -/
theorem isSome_urlsplit_of_ascii (hx : Lawful x) {url : Str} (netloc : Str)
    (hnetloc : (splitNetloc (splitScheme (cleanUrl url)).2).1 = netloc)
    (hbrackets : bracketsOk netloc = true) (hascii : allAscii netloc = true) :
    (urlsplit x url).isSome = true := by
  have hexpands : ¬netloc.any x.expands = true := by
    rw [List.any_eq_true]
    rintro ⟨c, hc, hexp⟩
    rw [hx.expands_ascii c (List.all_eq_true.1 hascii c hc)] at hexp
    cases hexp
  unfold urlsplit
  simp only [hnetloc]
  rw [if_pos ⟨hbrackets, hexpands⟩]
  rfl

/-- The `Location` values of the servers are such that `urljoin` accepts. -/
def Joinable (x : Unicode) (net : Internet) : Prop :=
  ∀ n m url response location, (urlsplit x url).isSome = true → net.respond n m url = .ok response →
    response.location = some location → (urljoin x url location).isSome = true

/-- So are those of the requests. -/
theorem Joinable.pinned (hnet : Joinable x net) (hx : Lawful x) {n : ℕ} {url ip location : Str}
    (hurl : (urlsplit x url).isSome = true)
    (h : (executePinnedRequest x net n url ip).nextUrl = some location) :
    (urljoin x url location).isSome = true := by
  have hsend : ∀ m response, (send x net n m url).2 = .ok response →
      response.location = some location → (urljoin x url location).isSome = true := by
    intro m response hresponse
    unfold send at hresponse
    dsimp only at hresponse
    split at hresponse
    · cases hresponse
    · exact hnet n m url response location hurl hresponse
  unfold executePinnedRequest at h
  split_ifs at h
  · obtain rfl := Option.some.inj h
    exact isSome_urljoin hurl (isSome_urlsplit_of_ascii hx "phishing-portal.com".toList
      (by decide +kernel) (by decide +kernel) (by decide +kernel))
  · obtain rfl := Option.some.inj h
    exact isSome_urljoin hurl (isSome_urlsplit_of_ascii hx "fakebank-login.com".toList
      (by decide +kernel) (by decide +kernel) (by decide +kernel))
  · obtain rfl := Option.some.inj h
    exact isSome_urljoin hurl hurl
  · cases hparse : urlparse x [] url with
    | none => simp [hparse] at h
    | some parsed =>
      rcases hhead : send x net n .head url with ⟨events, e | response⟩
      · simp [hparse, hhead, received] at h
      · simp only [hparse, hhead] at h
        split_ifs at h with hstatus
        · rcases hget : send x net n .get url with ⟨events', e | response'⟩
          · simp [hget, received] at h
          · simp only [hget, received] at h
            exact hsend .get response' (by rw [hget]) h
        · simp only [received] at h
          exact hsend .head response (by rw [hhead]) h

theorem redirect_eq_some {statusCode : ℕ} {nextUrl : Option Str} {location : Str}
    (h : redirect statusCode nextUrl = some location) : nextUrl = some location := by
  unfold redirect at h
  split_ifs at h
  exact (Option.filter_eq_some_iff.1 h).1

/-- The exception is that of a URL which the validator accepted. -/
def Misled (x : Unicode) (exp : RedirectExpander) (e : UrlError) : Prop :=
  ∃ n url ip, exp.validate n url = (true, ip) ∧ urlparse x [] url = none ∧ e = .unparsable url

/-- **What every turn keeps**, with the number of those that are left. -/
theorem following_hop (net : Internet) (exp : RedirectExpander) {k : ℕ} {s' : Expansion}
    (h : Following x s ∧ s.hops.length + (k + 1) ≤ exp.maxHops)
    (hturn : hop x net exp s = (s', none)) : Following x s' ∧ s'.hops.length + k ≤ exp.maxHops := by
  obtain ⟨hs, hlength⟩ := h
  have hstep := hopStep_hop x net exp s
  rw [hturn] at hstep
  cases hstep with
  | moved ip netloc location joined pinned hcheck hurl hpinned hredirect hjoin hnew =>
    refine ⟨hs.moved ip netloc hpinned hredirect hjoin hnew, ?_⟩
    simp only [Expansion.moved_hops, Expansion.requested, List.length_append, List.length_singleton]
    omega

/-- **What the last turn leaves.** -/
theorem followed_hop (hx : Lawful x) (hnet : Joinable x net) (exp : RedirectExpander)
    {k : ℕ} {s' : Expansion} {b : Option UrlError}
    (h : Following x s ∧ s.hops.length + (k + 1) ≤ exp.maxHops)
    (hturn : hop x net exp s = (s', some b)) :
    s'.hops.length ≤ exp.maxHops ∧ Followed x s' ∧ ∀ e, b = some e → Misled x exp e := by
  obtain ⟨hs, hlength⟩ := h
  have hstep := hopStep_hop x net exp s
  rw [hturn] at hstep
  have hnext : ∀ ip netloc pinned, (s.requested x ip netloc pinned).hops.length ≤ exp.maxHops := by
    intro ip netloc pinned
    simp only [Expansion.requested, List.length_append, List.length_singleton]
    omega
  have hnone : ∀ e, (none : Option UrlError) = some e → Misled x exp e := by
    intro e he
    cases he
  cases hstep with
  | refused ip hcheck =>
    refine ⟨?_, hs.followed_refused ip, hnone⟩
    simp only [Expansion.refused, List.length_append, List.length_singleton]
    omega
  | unparsable ip hcheck hurl =>
    refine ⟨?_, hs.followed_unparsable, ?_⟩
    · dsimp only
      omega
    · rintro e he
      cases he
      rw [← isSome_urlparse_iff (x := x) [], Option.isSome_eq_false_iff, Option.isNone_iff_eq_none] at hurl
      exact ⟨s.hopNum, s.currentUrl, ip, hcheck, hurl, rfl⟩
  | arrived ip netloc pinned hcheck hurl hpinned hredirect =>
    exact ⟨hnext ip netloc pinned, hs.followed_arrived ip netloc hpinned hredirect, hnone⟩
  | unjoinable ip netloc location pinned hcheck hurl hpinned hredirect hjoin =>
    have hnextUrl := redirect_eq_some hredirect
    rw [hpinned] at hnextUrl
    have haccepted := hnet.pinned hx hurl hnextUrl
    rw [hjoin] at haccepted
    cases haccepted
  | looped ip netloc location joined pinned hcheck hurl hpinned hredirect hjoin hvisited =>
    exact ⟨hnext ip netloc pinned, hs.followed_looped ip netloc hpinned hredirect hjoin hvisited, hnone⟩

/-- The validator of the repository misleads nobody. -/
theorem not_misled {v : SsrfValidator} (hv : exp.validate = v.validateUrl x) (e : UrlError) :
    ¬Misled x exp e := by
  rintro ⟨n, url, ip, hcheck, hparse, -⟩
  rw [hv] at hcheck
  have hsplit := urlsplit_of_validateUrl hcheck
  rw [← isSome_urlparse_iff (x := x) [], hparse] at hsplit
  cases hsplit

/-- **Redirect expansion is bounded and checks before it connects**, whatever the validator and
the servers do, as long as `urljoin` accepts the `Location` values.  It returns the chain, unless
the validator accepted a URL that `urlparse` does not; the one of the repository never does. -/
theorem expansion_bounded (hx : Lawful x) (hnet : Joinable x net) (exp : RedirectExpander)
    (initialUrl : Str) :
    ∃ s outcome, expandUrl x net exp initialUrl = (s, outcome) ∧
      s.hops.length ≤ exp.maxHops ∧ Followed x s ∧
      (outcome = .ok (s.chain (normalizeUrlCanonical x initialUrl)) ∨
        ∃ e, outcome = .error e ∧ Misled x exp e) ∧
      ∀ v : SsrfValidator, exp.validate = v.validateUrl x →
        outcome = .ok (s.chain (normalizeUrlCanonical x initialUrl)) := by
  have hstart : Following x (.start (normalizeUrlCanonical x initialUrl)) ∧
      (Expansion.start (normalizeUrlCanonical x initialUrl)).hops.length + exp.maxHops ≤ exp.maxHops :=
    ⟨following_start _, by simp [Expansion.start]⟩
  have hloop := Loop.upTo_inv (I := fun k s => Following x s ∧ s.hops.length + k ≤ exp.maxHops)
    (fun k s s' => following_hop (s := s) net exp)
    (fun k s s' b => followed_hop (s := s) hx hnet exp) exp.maxHops hstart
  unfold expandUrl
  dsimp only
  rcases hdone : Loop.upTo (hop x net exp) exp.maxHops
    (.start (normalizeUrlCanonical x initialUrl)) with ⟨s, _ | _ | e⟩
  · rw [hdone] at hloop
    exact ⟨s, _, rfl, hloop.2, hloop.1.followed, .inl rfl, fun _ _ => rfl⟩
  · rw [hdone] at hloop
    obtain ⟨hlength, hfollowed, -⟩ := hloop
    exact ⟨s, _, rfl, hlength, hfollowed, .inl rfl, fun _ _ => rfl⟩
  · rw [hdone] at hloop
    obtain ⟨hlength, hfollowed, hmisled⟩ := hloop
    refine ⟨s, _, rfl, hlength, hfollowed, .inr ⟨e, rfl, hmisled e rfl⟩, fun v hv => ?_⟩
    exact absurd (hmisled e rfl) (not_misled hv e)

/-- A server that redirects everything to its login page. -/
def loginServer : Internet where
  lookup _ _ _ := ["93.184.216.34".toList]
  pick _ _ := 0
  respond _ _ _ := .ok ⟨302, some "/login".toList, []⟩

/-- A resolver that knows one address. -/
def publicValidator : SsrfValidator where
  resolveA _ _ := .ok ["93.184.216.34".toList]
  getaddrinfo _ _ := .ok []

theorem joinable_loginServer : Joinable asciiUnicode loginServer := by
  intro n m url response location hurl hrespond hlocation
  cases hrespond
  cases hlocation
  exact isSome_urljoin hurl (by decide +kernel)

/-- The expansion of a site that redirects to its login page, again and again. -/
theorem expansion_bounded_loginServer :
    Lawful asciiUnicode ∧ Joinable asciiUnicode loginServer ∧
      ∃ s outcome, expandUrl asciiUnicode loginServer ⟨publicValidator.validateUrl asciiUnicode, 5⟩
          "http://site.test/".toList = (s, outcome) ∧
        s.hops.length ≤ 5 ∧ Followed asciiUnicode s ∧ s.isLoop = true ∧
        outcome = .ok (s.chain "http://site.test/".toList) := by
  refine ⟨lawful_asciiUnicode, joinable_loginServer, ?_⟩
  obtain ⟨s, outcome, hrun, hlength, hfollowed, -, hok⟩ := expansion_bounded lawful_asciiUnicode
    joinable_loginServer ⟨publicValidator.validateUrl asciiUnicode, 5⟩ "http://site.test/".toList
  have hloop : (expandUrl asciiUnicode loginServer ⟨publicValidator.validateUrl asciiUnicode, 5⟩
      "http://site.test/".toList).1.isLoop = true := by
    decide +kernel
  have hcanonical : normalizeUrlCanonical asciiUnicode "http://site.test/".toList =
      "http://site.test/".toList := by
    decide +kernel
  rw [hrun] at hloop
  rw [hcanonical] at hok
  exact ⟨s, outcome, hrun, hlength, hfollowed, hloop, hok publicValidator rfl⟩

/-- A validator that accepts everything lets an expansion raise. -/
theorem acceptAll_raises :
    Lawful asciiUnicode ∧ Joinable asciiUnicode loginServer ∧
      ∃ s, expandUrl asciiUnicode loginServer ⟨fun _ _ => (true, []), 5⟩ "http://[".toList =
        (s, .error (.unparsable "http://[".toList)) := by
  refine ⟨lawful_asciiUnicode, joinable_loginServer,
    (expandUrl asciiUnicode loginServer ⟨fun _ _ => (true, []), 5⟩ "http://[".toList).1, ?_⟩
  have houtcome : (match (expandUrl asciiUnicode loginServer ⟨fun _ _ => (true, []), 5⟩
      "http://[".toList).2 with
    | .error e => decide (e = .unparsable "http://[".toList)
    | .ok _ => false) = true := by
    decide +kernel
  rcases hrun : expandUrl asciiUnicode loginServer ⟨fun _ _ => (true, []), 5⟩ "http://[".toList with
    ⟨s, e | chain⟩
  · rw [hrun] at houtcome
    rw [of_decide_eq_true houtcome]
  · rw [hrun] at houtcome
    cases houtcome

end ScamOn.UrlIntelligence
