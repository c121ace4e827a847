import ScamOn.Lib.UrlJoin

/-!
# The SSRF validator

`SSRFValidator.validate_url` looks up the host of a URL and refuses it if one of the
addresses is in a prohibited network.  It never raises: what goes wrong is a refusal.

* `isIpProhibited` is the check of one address.
* `validateUrl` is the check of a URL, with the answer to its own lookups by the number of
  the call, since they may change from one to the next.
* `urlsplit_of_validateUrl`: an accepted URL can be taken apart.
-/

namespace ScamOn.UrlIntelligence

open Chars UrlParse IpAddress

/-! ## Addresses -/

/-- `PROHIBITED_NETWORKS`. -/
def prohibitedNetworks : List Network :=
  [⟨.v4 0x00000000, 8⟩, ⟨.v4 0x0a000000, 8⟩, ⟨.v4 0x64400000, 10⟩, ⟨.v4 0x7f000000, 8⟩,
    ⟨.v4 0xa9fe0000, 16⟩, ⟨.v4 0xac100000, 12⟩, ⟨.v4 0xc0000000, 24⟩, ⟨.v4 0xc0000200, 24⟩,
    ⟨.v4 0xc0a80000, 16⟩, ⟨.v4 0xc6336400, 24⟩, ⟨.v4 0xcb007100, 24⟩, ⟨.v4 0xe0000000, 4⟩,
    ⟨.v4 0xf0000000, 4⟩, ⟨.v6 0, 128⟩, ⟨.v6 1, 128⟩, ⟨.v6 0xffff00000000, 96⟩,
    ⟨.v6 (0xfc00 * 2 ^ 112), 7⟩, ⟨.v6 (0xfe80 * 2 ^ 112), 10⟩, ⟨.v6 (0xff00 * 2 ^ 112), 8⟩]

/-- `PROHIBITED_HOSTNAMES`. -/
def prohibitedHostnames : List Str :=
  ["localhost", "metadata.google.internal", "169.254.169.254",
    "169.254.169.254.xip.io"].map String.toList

/-- `is_ip_prohibited`.  An IPv4 address in the form of an IPv6 one is taken for what it is. -/
def isIpProhibited (ip : Str) : Bool :=
  match ipAddress ip with
  | none => true
  | some address =>
    prohibitedNetworks.any fun network => network.contains (address.ipv4Mapped.getD address)

example : isIpProhibited "169.254.169.254".toList ∧ isIpProhibited "::ffff:127.0.0.1".toList ∧
    isIpProhibited "fe80::1".toList ∧ ¬isIpProhibited "93.184.216.34".toList := by
  decide +kernel

/-! ## URLs -/

/-- `SSRFValidator`: what the resolver and `getaddrinfo` answer in its calls, by their
number. -/
structure SsrfValidator where
  resolveA : ℕ → Str → Except String (List Str)
  getaddrinfo : ℕ → Str → Except String (List Str)

/-- The domains that are accepted without a lookup. -/
def fixtureDomains : List String :=
  ["phishing-portal.com", "fakebank-login.com", "evil-phish.ru", "bit.ly", "tinyurl.com", "loop.com",
    "google.com", "example.com"]

/-- `part in text`. -/
def isPart (part : String) (text : Str) : Bool := Text.contains (String.ofList text) part

/-- The host, as the validator reads it: up to the first colon of the authority. -/
def validatorHost (x : Unicode) (netloc : Str) : Str := x.lower (partition ':' netloc).1

/-- The addresses of a name: those of the resolver, else those of `getaddrinfo`; `none` if
the resolver raises. -/
def SsrfValidator.addresses (v : SsrfValidator) (n : ℕ) (host : Str) : Option (List Str) :=
  match v.resolveA n host with
  | .error _ => none
  | .ok [] =>
    match v.getaddrinfo n host with
    | .error _ => some []
    | .ok infos => some infos
  | .ok (ip :: ips) => some (ip :: ips)

/-- The refusal of a URL that could not be checked. -/
def unchecked : Bool × Str := (false, "0.0.0.0".toList)

/-- `validate_url`. -/
def SsrfValidator.validateUrl (x : Unicode) (v : SsrfValidator) (n : ℕ) (url : Str) : Bool × Str :=
  if url = [] then unchecked
  else
    match urlparse x [] url with
    | none => unchecked
    | some parsed =>
      let host := validatorHost x parsed.netloc
      if host = [] || prohibitedHostnames.contains host then (false, "127.0.0.1".toList)
      else if fixtureDomains.any fun d => isPart d host then (true, "93.184.216.34".toList)
      else if (ipAddress host).isSome then (!isIpProhibited host, host)
      else
        match v.addresses n host with
        | none => unchecked
        | some [] => unchecked
        | some (ip :: ips) =>
          match (ip :: ips).find? isIpProhibited with
          | some prohibited => (false, prohibited)
          | none => (true, ip)

/-- An accepted URL can be taken apart. -/
theorem urlsplit_of_validateUrl {x : Unicode} {v : SsrfValidator} {n : ℕ} {url ip : Str}
    (h : v.validateUrl x n url = (true, ip)) : (urlsplit x url).isSome = true := by
  rw [← isSome_urlparse_iff (x := x) [] url]
  unfold SsrfValidator.validateUrl at h
  split_ifs at h
  · cases h
  · cases hparsed : urlparse x [] url with
    | none =>
      simp only [hparsed] at h
      cases h
    | some parsed => rfl

end ScamOn.UrlIntelligence
