import ScamOn.UrlIntelligence.RedirectExpander

/-!
# Which host the SSRF validator checks

The validator takes the host of a URL to be what stands before the first colon of the
authority, a client what `urlparse(url).hostname` says.  Where the two differ, or a part of the
host is that of a fixture, the validator vouches for a host that it has not looked at.

* `DnsTable` are fixed answers of the DNS, `SsrfValidator.ofTable` the validator on top of them:
  with `CachedDNSResolver`, which asks for IPv4 addresses, or with a resolver that asks for both
  families.
* `validateUrl_ofTable_iff` says when a URL is accepted.
* `ssrf_sound_iff`: for which URLs an accepted one leads to no prohibited host, whatever the
  answers.
-/

namespace ScamOn.UrlIntelligence

open Chars UrlParse IpAddress

/-! ## A fixed DNS -/

/-- Fixed answers, by names in lower case without blanks around. -/
structure DnsTable where
  a : Str → List Str
  aaaa : Str → List Str

variable (x : Unicode)

/-- `domain.strip().lower()`. -/
def cleanDomain (domain : Str) : Str := x.lower (strip domain)

/-- All addresses of a name. -/
def DnsTable.addresses (t : DnsTable) (name : Str) : List Str :=
  t.a (cleanDomain x name) ++ t.aaaa (cleanDomain x name)

/-- `resolve_a`: of `CachedDNSResolver`, which calls `gethostbyname_ex`, or of a resolver that
answers for both families as its interface says. -/
def DnsTable.resolveA (t : DnsTable) (bothFamilies : Bool) (name : Str) : List Str :=
  if bothFamilies then t.addresses x name else t.a (cleanDomain x name)

/-- The validator, where the DNS does not change. -/
def SsrfValidator.ofTable (bothFamilies : Bool) (t : DnsTable) : SsrfValidator where
  resolveA _ name := .ok (t.resolveA x bothFamilies name)
  getaddrinfo _ name :=
    if t.addresses x name = [] then .error "Name or service not known" else .ok (t.addresses x name)

/-- The host that the validator checks. -/
def checkedHost (url : Str) : Str :=
  ((urlsplit x url).map fun r => validatorHost x r.netloc).getD []

/-- A part of the host is the domain of a fixture. -/
def isFixture (host : Str) : Bool := fixtureDomains.any fun d => isPart d host

/-! ## What is accepted -/

/-- The URL is refused without a lookup. -/
def RefusedAtOnce (url : Str) : Prop :=
  url = [] ∨ checkedHost x url = [] ∨ checkedHost x url ∈ prohibitedHostnames ∨
    isFixture (checkedHost x url) = false ∧ (ipAddress (checkedHost x url)).isSome = true ∧
      isIpProhibited (checkedHost x url) = true

/-- The addresses that the validator looks at. -/
def DnsTable.lookedAt (t : DnsTable) (bothFamilies : Bool) (host : Str) : List Str :=
  if t.resolveA x bothFamilies host = [] then t.addresses x host
  else t.resolveA x bothFamilies host

variable {x} {t : DnsTable} {bothFamilies : Bool} {url : Str}

theorem addresses_ofTable (t : DnsTable) (bothFamilies : Bool) (n : ℕ) (host : Str) :
    (SsrfValidator.ofTable x bothFamilies t).addresses n host =
      some (t.lookedAt x bothFamilies host) := by
  unfold SsrfValidator.addresses SsrfValidator.ofTable DnsTable.lookedAt
  rcases hfirst : t.resolveA x bothFamilies host with _ | ⟨ip, ips⟩
  · by_cases hnone : t.addresses x host = []
    · simp [hfirst, hnone]
    · simp [hfirst, hnone]
  · simp [hfirst]

/-- **A URL is accepted** if it is not refused at once, and its host is that of a fixture, an
address, or a name with addresses none of which is prohibited. -/
theorem validateUrl_ofTable_iff (n : ℕ) :
    ((SsrfValidator.ofTable x bothFamilies t).validateUrl x n url).1 = true ↔
      ¬RefusedAtOnce x url ∧
        (isFixture (checkedHost x url) = true ∨ (ipAddress (checkedHost x url)).isSome = true ∨
          t.lookedAt x bothFamilies (checkedHost x url) ≠ [] ∧
            ∀ ip ∈ t.lookedAt x bothFamilies (checkedHost x url), isIpProhibited ip = false) := by
  unfold SsrfValidator.validateUrl RefusedAtOnce checkedHost
  by_cases hurl : url = []
  · simp [hurl, unchecked]
  rw [if_neg hurl]
  cases hsplit : urlsplit x url with
  | none => simp [urlparse, hsplit, unchecked]
  | some r =>
    simp only [urlparse, hsplit, Option.map_some, Option.getD_some, addresses_ofTable]
    generalize validatorHost x r.netloc = host
    by_cases hhost : host = [] ∨ host ∈ prohibitedHostnames
    · rcases hhost with hhost | hhost
      · simp [hhost]
      · simp [hhost]
    obtain ⟨hne, hnot⟩ := not_or.1 hhost
    rw [if_neg (by simp [hne, hnot]), show fixtureDomains.any (fun d => isPart d host) =
      isFixture host from rfl]
    by_cases hfixture : isFixture host = true
    · simp [hurl, hne, hnot, hfixture]
    have hfixture' : isFixture host = false := by simpa using hfixture
    rw [if_neg hfixture]
    by_cases hliteral : (ipAddress host).isSome = true
    · simp [hurl, hne, hnot, hfixture', hliteral]
    · rw [if_neg hliteral]
      generalize t.lookedAt x bothFamilies host = ips
      rcases ips with _ | ⟨ip, ips⟩
      · simp [hfixture', hliteral, unchecked]
      · rcases hfind : (ip :: ips).find? isIpProhibited with _ | prohibited
        · have hnone := List.find?_eq_none.1 hfind
          simpa [hurl, hne, hnot, hfixture', hliteral, hfind] using hnone
        · have hmem := List.mem_of_find?_eq_some hfind
          have hprohibited := List.find?_some hfind
          have hsome : ¬∀ ip' ∈ ip :: ips, isIpProhibited ip' = false := fun h => by
            rw [h prohibited hmem] at hprohibited
            cases hprohibited
          simp only [hfind, hfixture', hliteral, hsome, Bool.false_eq_true, and_false, or_self]

/-! ## What is promised -/

variable (x)

/-- The host that a client gets to is not prohibited, and no address of it is. -/
structure LeadsNowhereProhibited (t : DnsTable) (url : Str) : Prop where
  hostname : clientHost x url ∉ prohibitedHostnames
  literal : (ipAddress (clientHost x url)).isSome = true → isIpProhibited (clientHost x url) = false
  name : clientHost x url ≠ [] → ipAddress (clientHost x url) = none →
    ∀ ip ∈ t.addresses x (clientHost x url), isIpProhibited ip = false

/-- The client has no host to go to, or an address that is not prohibited. -/
def HarmlessHost (url : Str) : Prop :=
  clientHost x url = [] ∨
    (ipAddress (clientHost x url)).isSome = true ∧ isIpProhibited (clientHost x url) = false

/-- The validator looks up the name that the client gets to. -/
structure SameName (url : Str) : Prop where
  noFixture : isFixture (checkedHost x url) = false
  checkedName : ipAddress (checkedHost x url) = none
  clientName : ipAddress (clientHost x url) = none
  same : cleanDomain x (checkedHost x url) = cleanDomain x (clientHost x url)
  hostname : clientHost x url ∉ prohibitedHostnames

variable {x}

theorem isIpProhibited_prohibitedHostnames : ∀ host ∈ prohibitedHostnames,
    isIpProhibited host = true := by
  decide +kernel

theorem HarmlessHost.leads (h : HarmlessHost x url) (t : DnsTable) :
    LeadsNowhereProhibited x t url := by
  rcases h with hnone | ⟨hliteral, hallowed⟩
  · refine ⟨?_, fun h => ?_, fun hne => absurd hnone hne⟩
    · rw [hnone]
      decide
    · rw [hnone] at h
      exact absurd h (by decide)
  · refine ⟨fun hmem => ?_, fun _ => hallowed, fun _ hname => ?_⟩
    · rw [isIpProhibited_prohibitedHostnames _ hmem] at hallowed
      cases hallowed
    · rw [hname] at hliteral
      cases hliteral

/-- A resolver for both families looks at every address of the name it is asked for. -/
theorem lookedAt_true (t : DnsTable) (host : Str) : t.lookedAt x true host = t.addresses x host := by
  unfold DnsTable.lookedAt DnsTable.resolveA
  simp

theorem SameName.leads (h : SameName x url) {n : ℕ}
    (haccepted : ((SsrfValidator.ofTable x true t).validateUrl x n url).1 = true) :
    LeadsNowhereProhibited x t url := by
  refine ⟨h.hostname, fun hliteral => ?_, fun _ _ => ?_⟩
  · rw [h.clientName] at hliteral
    cases hliteral
  · obtain ⟨-, hfixture | hliteral | ⟨-, hall⟩⟩ := validateUrl_ofTable_iff n |>.1 haccepted
    · rw [h.noFixture] at hfixture
      cases hfixture
    · rw [h.checkedName] at hliteral
      cases hliteral
    · rw [lookedAt_true, DnsTable.addresses, h.same] at hall
      exact hall

/-! ## Where the hosts differ -/

/-- An address that may be contacted. -/
def publicAddress : Str := "93.184.216.34".toList

/-- The address of the machine itself. -/
def ownAddress : Str := "127.0.0.1".toList

theorem isIpProhibited_publicAddress : isIpProhibited publicAddress = false := by decide +kernel

theorem isIpProhibited_ownAddress : isIpProhibited ownAddress = true := by decide +kernel

/-- If all that the validator looks at is a public address, it accepts what it does not refuse
at once. -/
theorem validateUrl_of_public (n : ℕ) (hrefused : ¬RefusedAtOnce x url)
    (h : t.lookedAt x bothFamilies (checkedHost x url) = [publicAddress]) :
    ((SsrfValidator.ofTable x bothFamilies t).validateUrl x n url).1 = true := by
  refine (validateUrl_ofTable_iff n).2 ⟨hrefused, .inr (.inr ⟨by simp [h], ?_⟩)⟩
  simp [h, isIpProhibited_publicAddress]

/-- Answers under which an accepted URL leads to a prohibited host. -/
theorem exists_misleading (hrefused : ¬RefusedAtOnce x url) (hharmful : ¬HarmlessHost x url)
    (hother : ¬(bothFamilies = true ∧ SameName x url)) :
    ∃ t : DnsTable, ((SsrfValidator.ofTable x bothFamilies t).validateUrl x 0 url).1 = true ∧
      ¬LeadsNowhereProhibited x t url := by
  obtain ⟨hhost, hharmful⟩ := not_or.1 hharmful
  by_cases hname : clientHost x url ∉ prohibitedHostnames ∧ ipAddress (clientHost x url) = none
  · obtain ⟨hallowed, hname⟩ := hname
    -- an answer with the machine's own address leads there
    have hleads : ∀ t : DnsTable, ∀ ip ∈ t.addresses x (clientHost x url),
        isIpProhibited ip = true → ¬LeadsNowhereProhibited x t url := by
      intro t ip hip hprohibited h
      rw [h.name hhost hname ip hip] at hprohibited
      cases hprohibited
    cases bothFamilies with
    | false =>
      refine ⟨⟨fun _ => [publicAddress], fun _ => ["::1".toList]⟩,
        validateUrl_of_public 0 hrefused ?_, hleads _ "::1".toList ?_ (by decide +kernel)⟩
      · simp [DnsTable.lookedAt, DnsTable.resolveA]
      · simp [DnsTable.addresses]
    | true =>
      by_cases hchecked : isFixture (checkedHost x url) = true ∨
          (ipAddress (checkedHost x url)).isSome = true
      · refine ⟨⟨fun _ => [ownAddress], fun _ => []⟩,
          (validateUrl_ofTable_iff 0).2 ⟨hrefused, ?_⟩,
          hleads _ ownAddress (by simp [DnsTable.addresses]) isIpProhibited_ownAddress⟩
        rcases hchecked with hfixture | hliteral
        · exact .inl hfixture
        · exact .inr (.inl hliteral)
      · obtain ⟨hfixture, hliteral⟩ := not_or.1 hchecked
        have hdiffer : cleanDomain x (checkedHost x url) ≠ cleanDomain x (clientHost x url) :=
          fun hsame => hother ⟨rfl, by simpa using hfixture, by simpa using hliteral, hname, hsame,
            hallowed⟩
        refine ⟨⟨fun name => if name = cleanDomain x (clientHost x url) then [ownAddress]
          else [publicAddress], fun _ => []⟩, validateUrl_of_public 0 hrefused ?_,
          hleads _ ownAddress ?_ isIpProhibited_ownAddress⟩
        · simp [lookedAt_true, DnsTable.addresses, hdiffer]
        · simp [DnsTable.addresses]
  · refine ⟨⟨fun _ => [publicAddress], fun _ => []⟩, validateUrl_of_public 0 hrefused ?_, fun h => ?_⟩
    · simp [DnsTable.lookedAt, DnsTable.resolveA, DnsTable.addresses]
    · rcases not_and_or.1 hname with hmem | hliteral
      · exact hmem h.hostname
      · have hsome : (ipAddress (clientHost x url)).isSome = true := by
          rwa [← Option.ne_none_iff_isSome]
        exact hharmful ⟨hsome, h.literal hsome⟩

/-- **For which URLs the validator vouches for the host that is contacted**, whatever the DNS
answers: those it refuses at once, those that lead a client nowhere or to a public address, and,
if the resolver answers for both families of addresses, those whose host it reads as the client
does.  With `CachedDNSResolver`, which asks for IPv4 addresses only, it never vouches for a name. -/
theorem ssrf_sound_iff (x : Unicode) (bothFamilies : Bool) (url : Str) :
    (∀ (t : DnsTable) (n : ℕ) (ip : Str),
        (SsrfValidator.ofTable x bothFamilies t).validateUrl x n url = (true, ip) →
          LeadsNowhereProhibited x t url) ↔
      RefusedAtOnce x url ∨ HarmlessHost x url ∨ bothFamilies = true ∧ SameName x url := by
  constructor
  · intro h
    by_contra hnot
    simp only [not_or] at hnot
    obtain ⟨t, haccepted, hmisled⟩ := exists_misleading hnot.1 hnot.2.1 hnot.2.2
    exact hmisled (h t 0 _ (Prod.ext haccepted rfl))
  · rintro h t n ip hanswer
    have haccepted : ((SsrfValidator.ofTable x bothFamilies t).validateUrl x n url).1 = true := by
      rw [hanswer]
    rcases h with hrefused | hharmless | ⟨rfl, hsame⟩
    · exact absurd hrefused ((validateUrl_ofTable_iff n).1 haccepted).1
    · exact hharmless.leads t
    · exact hsame.leads haccepted

/-- **User information in front of the host**: the validator accepts the domain of a fixture, and
the client goes to the machine itself. -/
theorem user_info_misleads :
    (SsrfValidator.ofTable asciiUnicode true ⟨fun _ => [publicAddress], fun _ => []⟩).validateUrl
        asciiUnicode 0 "http://example.com:80@127.0.0.1/".toList = (true, "93.184.216.34".toList) ∧
      ¬LeadsNowhereProhibited asciiUnicode ⟨fun _ => [publicAddress], fun _ => []⟩
        "http://example.com:80@127.0.0.1/".toList := by
  refine ⟨by decide +kernel, fun h => ?_⟩
  have hhost : clientHost asciiUnicode "http://example.com:80@127.0.0.1/".toList = ownAddress := by
    decide +kernel
  have hallowed := h.literal (by rw [hhost]; decide +kernel)
  rw [hhost, isIpProhibited_ownAddress] at hallowed
  cases hallowed

end ScamOn.UrlIntelligence
