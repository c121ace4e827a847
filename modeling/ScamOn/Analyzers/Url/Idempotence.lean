import ScamOn.Analyzers.Url.Normalizer

/-!
# Normalising a URL twice

The normalizer writes the host of an authority without the brackets it stood in, so what
it writes need not be read back.

* `WrittenHost`: what a lower-cased and encoded host is like.
* `HostReadsBack`: the host, followed by its port, is taken apart into these two again.
* `canonicalNetloc_eq_self_iff`: the authority is a fixed point exactly then.
* `normalize_idempotent_iff`: so is the URL.
* `ipv6_not_idempotent`: an IPv6 host loses its brackets, and the result is invalid.
-/

namespace ScamOn.Analyzers
namespace Url

open Chars UrlParse Percent

variable {x : Unicode} {scheme netloc host : Str} {kept : Option ℕ}

/-! ## User info -/

theorem userinfoText_eq (netloc : Str) :
    userinfoText netloc = ((rpartition '@' netloc).1.map (· ++ ['@'])).getD [] := by
  unfold userinfoText userinfo
  rcases (rpartition '@' netloc).1 with _ | info
  · rfl
  simp only [Option.map_some, Option.getD_some]
  rcases hcut : partition ':' info with ⟨username, _ | password⟩
  · obtain ⟨-, rfl⟩ := partition_eq_none_iff.1 hcut
    rfl
  · obtain ⟨-, rfl⟩ := partition_eq_some_iff.1 hcut
    rfl

theorem userinfoText_append_hostAndPort (netloc : Str) :
    userinfoText netloc ++ hostAndPort netloc = netloc := by
  rw [userinfoText_eq, hostAndPort]
  rcases hcut : rpartition '@' netloc with ⟨_ | info, rest⟩
  · obtain ⟨-, rfl⟩ := rpartition_eq_none_iff.1 hcut
    rfl
  · obtain ⟨-, rfl⟩ := rpartition_eq_some_iff.1 hcut
    simp

/-- Behind the user info, everything but an `@` can be exchanged. -/
theorem rpartition_userinfoText (netloc : Str) {rest : Str} (h : '@' ∉ rest) :
    userinfoText (userinfoText netloc ++ rest) = userinfoText netloc ∧
      hostAndPort (userinfoText netloc ++ rest) = rest := by
  have hcut : rpartition '@' (userinfoText netloc ++ rest) =
      ((rpartition '@' netloc).1, rest) := by
    rw [userinfoText_eq]
    rcases (rpartition '@' netloc).1 with _ | info
    · exact rpartition_eq_none_iff.2 ⟨h, rfl⟩
    · exact rpartition_eq_some_iff.2 ⟨h, by simp⟩
  refine ⟨?_, ?_⟩
  · rw [userinfoText_eq (userinfoText netloc ++ rest), hcut, userinfoText_eq netloc]
  · rw [hostAndPort, hcut]

/-! ## The host -/

/-- A host as it is written back: no character that ends it, lower case up to a zone, and
encoded as far as that is possible. -/
structure WrittenHost (x : Unicode) (host : Str) : Prop where
  chars : ∀ c ∈ host, endsNetloc c = false ∧ isUnsafe c = false ∧ c ≠ '@' ∧ x.expands c = false
  lowered : ∀ c ∈ (partition '%' host).1, x.lower [c] = [c]
  encoded : allAscii host = true ∨ x.idna host = none

theorem idnaEncodeHost_eq_self (h : allAscii host = true ∨ x.idna host = none) :
    (idnaEncodeHost x host).1 = host := by
  unfold idnaEncodeHost
  split_ifs with hascii
  · rfl
  · rw [h.resolve_left hascii]

/-- What the encoding changes is ASCII afterwards, and was not before. -/
theorem idnaEncodeHost_cases (hx : Lawful x) (host : Str) :
    (allAscii host = true ∨ x.idna host = none) ∨
      allAscii host ≠ true ∧ allAscii (idnaEncodeHost x host).1 = true := by
  by_cases hascii : allAscii host = true
  · exact .inl (.inl hascii)
  · rcases hidna : x.idna host with _ | encoded
    · exact .inl (.inr rfl)
    · refine .inr ⟨hascii, ?_⟩
      rw [idnaEncodeHost, if_neg hascii, hidna]
      exact hx.idna_ascii _ _ hidna

/-- A character that can stand in a host. -/
def IsHostChar (x : Unicode) (c : Char) : Prop :=
  endsNetloc c = false ∧ isUnsafe c = false ∧ c ≠ '@' ∧ x.expands c = false

theorem isHostChar_hostinfo
    (h : ∀ c ∈ netloc, endsNetloc c = false ∧ isUnsafe c = false ∧ x.expands c = false) :
    ∀ c ∈ (hostinfo netloc).1, IsHostChar x c := by
  intro c hc
  have hmem := hostinfo_fst_subset netloc hc
  obtain ⟨hsub, hat⟩ := rpartition_snd_spec '@' netloc
  obtain ⟨hends, hunsafe, hexp⟩ := h c (hsub hmem)
  exact ⟨hends, hunsafe, ne_of_mem_of_not_mem hmem hat, hexp⟩

/-- There is no delimiter in what takes its delimiters from a host. -/
theorem isHostChar_of_delim {s : Str} {c : Char} (hs : ∀ c ∈ s, IsHostChar x c)
    (hdelim : endsNetloc c = true ∨ isUnsafe c = true ∨ c = '@' → c ∈ s)
    (hexp : x.expands c = false) : IsHostChar x c := by
  refine ⟨?_, ?_, ?_, hexp⟩
  · by_contra hends
    exact hends (hs c (hdelim (.inl (by simpa using hends)))).1
  · by_contra hunsafe
    exact hunsafe (hs c (hdelim (.inr (.inl (by simpa using hunsafe))))).2.1
  · rintro rfl
    exact (hs _ (hdelim (.inr (.inr rfl)))).2.2.1 rfl

theorem isHostChar_lowerHost (hx : Lawful x) {raw : Str} (h : ∀ c ∈ raw, IsHostChar x c) :
    ∀ c ∈ lowerHost x raw, IsHostChar x c := by
  intro c hc
  obtain ⟨hdelim, hexpands⟩ := mem_lowerHost hx hc
  refine isHostChar_of_delim h (fun hkind => hdelim ?_) ?_
  · rcases hkind with hends | hunsafe | rfl
    · simp [isDelim, hends]
    · simp [isDelim, hunsafe]
    · decide
  · by_contra hexp
    obtain ⟨d, hd, hdexp⟩ := hexpands (by simpa using hexp)
    rw [(h d hd).2.2.2] at hdexp
    cases hdexp

theorem isHostChar_idna (hx : Lawful x) {s encoded : Str} (hidna : x.idna s = some encoded)
    (h : ∀ c ∈ s, IsHostChar x c) : ∀ c ∈ encoded, IsHostChar x c := by
  intro c hc
  have hascii : isAscii c = true := List.all_eq_true.1 (hx.idna_ascii _ _ hidna) c hc
  refine isHostChar_of_delim h (fun hkind => ?_) (hx.expands_ascii c hascii)
  rcases hx.idna_delim _ _ hidna c hc hkind with hmem | ⟨d, hd, hexp⟩
  · exact hmem
  · rw [(h d hd).2.2.2] at hexp
    cases hexp

/-- The host of an authority is written back as `WrittenHost` says. -/
theorem writtenHost_spec (hx : Lawful x)
    (h : ∀ c ∈ netloc, endsNetloc c = false ∧ isUnsafe c = false ∧ x.expands c = false) :
    WrittenHost x (writtenHost x netloc) := by
  have hnil : WrittenHost x [] := ⟨by simp, by simp [partition], .inl rfl⟩
  unfold writtenHost hostname
  split_ifs with hempty
  · rw [idnaEncodeHost_eq_self (.inl rfl)]
    exact hnil
  have hlower := isHostChar_lowerHost hx (isHostChar_hostinfo h)
  generalize (hostinfo netloc).1 = raw at hlower
  unfold idnaEncodeHost
  split_ifs with hascii
  · exact ⟨hlower, lowerHost_lowered hx raw, .inl hascii⟩
  rcases hidna : x.idna (lowerHost x raw) with _ | encoded
  · exact ⟨hlower, lowerHost_lowered hx raw, .inr hidna⟩
  have hencoded := hx.idna_ascii _ _ hidna
  refine ⟨isHostChar_idna hx hidna hlower, fun c hc => ?_, .inl hencoded⟩
  have hmem : c ∈ encoded := (partition_fst_spec '%' encoded).1.subset hc
  rw [hx.lower_ascii c (List.all_eq_true.1 hencoded c hmem),
    hx.idna_lower _ _ hidna (lowerHost_lowered hx raw) c hc]

/-! ## The port -/

/-- A port that is written, and left out by no default. -/
def PortStays (scheme : Str) (kept : Option ℕ) : Prop :=
  ∀ p, kept = some p → p ≤ 65535 ∧ defaultPort scheme ≠ some p

theorem isDigit_toDigits (p : ℕ) : (Nat.toDigits 10 p).all Char.isDigit = true :=
  List.all_eq_true.2 fun _ hc => Nat.isDigit_of_mem_toDigits (by decide) (by decide) hc

theorem mem_portText {c : Char} (h : c ∈ portText kept) : c = ':' ∨ c.isDigit = true := by
  rcases kept with _ | p
  · cases h
  · rcases List.mem_cons.1 h with rfl | h
    · exact .inl rfl
    · exact .inr (List.all_eq_true.1 (isDigit_toDigits p) c h)

theorem keepPort_of_stays (h : PortStays scheme kept) : keepPort scheme kept = kept := by
  rcases kept with _ | p
  · rfl
  · exact if_neg (h p rfl).2

/-- A port that is read can be written. -/
theorem port_eq_some_iff {q : Option ℕ} :
    port netloc = some q ↔
      ((hostinfo netloc).2 = [] ∧ q = none) ∨
      ((hostinfo netloc).2 ≠ [] ∧ (hostinfo netloc).2.all Char.isDigit = true ∧
        (hostinfo netloc).2.length ≤ Text.intMaxStrDigits ∧
        Nat.ofDigitChars 10 (hostinfo netloc).2 0 ≤ 65535 ∧
        q = some (Nat.ofDigitChars 10 (hostinfo netloc).2 0)) := by
  unfold port
  dsimp only
  by_cases hempty : (hostinfo netloc).2 = []
  · simp [hempty, eq_comm]
  · rw [if_neg hempty]
    split_ifs with hdigits
    · simp [hempty, hdigits, eq_comm]
    · constructor
      · intro hnone
        cases hnone
      · rintro (⟨hnil, -⟩ | ⟨-, hall, hlength, hle, -⟩)
        · exact absurd hnil hempty
        · exact absurd ⟨hall, hlength, hle⟩ hdigits

theorem portStays_keepPort {q : Option ℕ} (h : port netloc = some q) :
    PortStays scheme (keepPort scheme q) := by
  intro p hp
  rcases q with _ | q
  · cases hp
  unfold keepPort at hp
  dsimp only at hp
  split_ifs at hp with hdefault
  cases hp
  rcases port_eq_some_iff.1 h with ⟨-, hnone⟩ | ⟨-, -, -, hle, hq⟩
  · cases hnone
  · cases hq
    exact ⟨hle, hdefault⟩

theorem port_of_toDigits {p : ℕ} (h : (hostinfo netloc).2 = Nat.toDigits 10 p)
    (hp : p ≤ 65535) : port netloc = some (some p) := by
  have hlength : (Nat.toDigits 10 p).length ≤ 5 :=
    (Nat.length_toDigits_le_iff (by decide) (by decide)).2 (by omega)
  refine port_eq_some_iff.2 (.inr ?_)
  rw [h, Nat.ofDigitChars_ten_toDigits]
  exact ⟨Nat.toDigits_ne_nil, isDigit_toDigits p, hlength.trans (by decide), hp, rfl⟩

/-! ## The authority -/

/-- **The host is read back as it is written**: it has no bracket, and at most one colon,
which a port follows that stays. -/
structure HostReadsBack (x : Unicode) (scheme host : Str) (kept : Option ℕ) : Prop where
  bracket : '[' ∉ host
  colon : ':' ∈ host → kept = none ∧ ∃ name p, host = name ++ ':' :: Nat.toDigits 10 p ∧
    ':' ∉ name ∧ PortStays scheme (some p) ∧ (allAscii name = true ∨ x.idna name = none)

/-- The authority that a host and a port make behind the user info of another. -/
def authority (netloc host : Str) (kept : Option ℕ) : Str :=
  userinfoText netloc ++ (host ++ portText kept)

theorem at_not_mem_hostText (hhost : WrittenHost x host) : '@' ∉ host ++ portText kept := by
  intro hmem
  rcases List.mem_append.1 hmem with hmem | hmem
  · exact (hhost.chars _ hmem).2.2.1 rfl
  · rcases mem_portText hmem with heq | hdigit
    · cases heq
    · exact absurd hdigit (by decide)

theorem hostAndPort_authority (hhost : WrittenHost x host) :
    hostAndPort (authority netloc host kept) = host ++ portText kept :=
  (rpartition_userinfoText netloc (at_not_mem_hostText hhost)).2

/-- The authority is a fixed point if host and port are. -/
theorem canonicalNetloc_authority (hhost : WrittenHost x host) :
    canonicalNetloc x scheme (authority netloc host kept) = some (authority netloc host kept) ↔
      ∃ q, port (authority netloc host kept) = some q ∧
        writtenHost x (authority netloc host kept) ++ portText (keepPort scheme q) =
          host ++ portText kept := by
  have hinfo : userinfoText (authority netloc host kept) = userinfoText netloc :=
    (rpartition_userinfoText netloc (at_not_mem_hostText hhost)).1
  unfold canonicalNetloc
  rw [Option.map_eq_some_iff]
  simp only [hinfo]
  simp only [authority, List.append_assoc, List.append_cancel_left_eq]

theorem bracket_not_mem_portText : '[' ∉ portText kept := by
  intro hmem
  rcases mem_portText hmem with heq | hdigit
  · cases heq
  · exact absurd hdigit (by decide)

theorem allAscii_portText : allAscii (portText kept) = true := by
  refine List.all_eq_true.2 fun c hc => ?_
  rcases mem_portText hc with rfl | hdigit
  · decide
  · simp only [Char.isDigit, Bool.and_eq_true, decide_eq_true_eq] at hdigit
    have hle : c.toNat ≤ 57 := hdigit.2
    simp only [isAscii, decide_eq_true_eq]
    omega

/-- Only what is ASCII is a part of an ASCII text. -/
theorem allAscii_of_append_eq {a b s : Str} (hs : allAscii s = true)
    (h : s ++ portText kept = a ++ b) : allAscii a = true := by
  refine List.all_eq_true.2 fun c hc => ?_
  have hmem : c ∈ s ++ portText kept := by
    rw [h]
    exact List.mem_append_left _ hc
  rcases List.mem_append.1 hmem with hmem | hmem
  · exact List.all_eq_true.1 hs c hmem
  · exact List.all_eq_true.1 allAscii_portText c hmem

/-- How an authority is taken apart at its first colon. -/
theorem hostinfo_authority (hhost : WrittenHost x host) (hbracket : '[' ∉ host) {name rest : Str}
    (hname : ':' ∉ name) (heq : host ++ portText kept = name ++ ':' :: rest) :
    hostinfo (authority netloc host kept) = (name, rest) := by
  have hno : '[' ∉ host ++ portText kept := by
    simp [hbracket, bracket_not_mem_portText]
  unfold hostinfo
  rw [hostAndPort_authority hhost, partition_of_not_mem hno, heq]
  simp only [partition_append hname, Option.getD_some]

theorem writtenHost_of_lowered (hx : Lawful x) {name : Str} (hname : (hostinfo netloc).1 = name)
    (hlowered : ∀ c ∈ (partition '%' name).1, x.lower [c] = [c]) :
    writtenHost x netloc = (idnaEncodeHost x name).1 := by
  unfold writtenHost hostname
  rw [hname, lowerHost_eq_self hx hlowered]
  split_ifs with hempty
  · rw [hempty]
  · rfl

/-- A host without brackets and colons is read back. -/
theorem canonicalNetloc_of_plain (hx : Lawful x) (hhost : WrittenHost x host)
    (hport : PortStays scheme kept) (hbracket : '[' ∉ host) (hcolon : ':' ∉ host) :
    canonicalNetloc x scheme (authority netloc host kept) =
      some (authority netloc host kept) := by
  refine (canonicalNetloc_authority hhost).2 ⟨kept, ?_⟩
  rw [keepPort_of_stays hport]
  rcases kept with _ | p
  · have hinfo : hostinfo (authority netloc host none) = (host, []) := by
      unfold hostinfo
      rw [hostAndPort_authority hhost, portText, List.append_nil, partition_of_not_mem hbracket]
      simp only [partition_of_not_mem hcolon, Option.getD_none]
    refine ⟨port_eq_some_iff.2 (.inl ⟨by rw [hinfo], rfl⟩), ?_⟩
    rw [writtenHost_of_lowered hx (by rw [hinfo]) hhost.lowered,
      idnaEncodeHost_eq_self hhost.encoded]
  · have hinfo : hostinfo (authority netloc host (some p)) = (host, Nat.toDigits 10 p) :=
      hostinfo_authority hhost hbracket hcolon rfl
    refine ⟨port_of_toDigits (by rw [hinfo]) (hport p rfl).1, ?_⟩
    rw [writtenHost_of_lowered hx (by rw [hinfo]) hhost.lowered,
      idnaEncodeHost_eq_self hhost.encoded]

/-- A host with a colon is read back if that is the colon of a port. -/
theorem canonicalNetloc_of_colon (hx : Lawful x) (hhost : WrittenHost x host)
    (hbracket : '[' ∉ host) {name rest : Str} (hname : ':' ∉ name)
    (heq : host = name ++ ':' :: rest) :
    canonicalNetloc x scheme (authority netloc host kept) = some (authority netloc host kept) ↔
      kept = none ∧ (allAscii name = true ∨ x.idna name = none) ∧
        ∃ p, rest = Nat.toDigits 10 p ∧ PortStays scheme (some p) := by
  have hinfo : hostinfo (authority netloc host kept) = (name, rest ++ portText kept) := by
    refine hostinfo_authority hhost hbracket hname ?_
    rw [heq, List.append_assoc, List.cons_append]
  have hlowered : ∀ c ∈ (partition '%' name).1, x.lower [c] = [c] := by
    have hprefix : name <+: host := by
      rw [heq]
      exact List.prefix_append _ _
    exact fun c hc => hhost.lowered c (partition_fst_subset_of_front hprefix hc)
  rw [canonicalNetloc_authority hhost,
    writtenHost_of_lowered hx (by rw [hinfo]) hlowered, heq, List.append_assoc, List.cons_append]
  constructor
  · rintro ⟨q, hq, hwritten⟩
    rcases idnaEncodeHost_cases hx name with hencoded | ⟨hnot, hascii⟩
    · rw [idnaEncodeHost_eq_self hencoded, List.append_cancel_left_eq] at hwritten
      have hstays : PortStays scheme (keepPort scheme q) := portStays_keepPort hq
      generalize keepPort scheme q = written at hwritten hstays
      rcases written with _ | p
      · cases hwritten
      have hrest : Nat.toDigits 10 p = rest ++ portText kept := (List.cons.inj hwritten).2
      rcases kept with _ | k
      · rw [portText, List.append_nil] at hrest
        exact ⟨rfl, hencoded, p, hrest.symm, hstays⟩
      · have hdigit : ':'.isDigit = true := by
          refine List.all_eq_true.1 (isDigit_toDigits p) ':' ?_
          rw [hrest]
          exact List.mem_append_right _ (List.mem_cons_self ..)
        exact absurd hdigit (by decide)
    · exact absurd (allAscii_of_append_eq hascii hwritten) hnot
  · rintro ⟨rfl, hencoded, p, rfl, hstays⟩
    rw [portText, List.append_nil] at hinfo
    refine ⟨some p, port_of_toDigits ?_ (hstays p rfl).1, ?_⟩
    · rw [← heq, hinfo]
    · rw [idnaEncodeHost_eq_self hencoded, keepPort_of_stays hstays]
      simp [portText]

theorem lower_portText (hx : Lawful x) {c : Char} (h : c ∈ portText kept) :
    x.lower [c] = [c] := by
  rw [hx.lower_ascii c (List.all_eq_true.1 allAscii_portText c h)]
  rcases mem_portText h with rfl | hdigit
  · rfl
  · simp only [Char.isDigit, Bool.and_eq_true, decide_eq_true_eq] at hdigit
    have hupper : ¬(c.val ≥ 'A'.val ∧ c.val ≤ 'Z'.val) := fun hupper =>
      absurd (UInt32.le_trans hupper.1 hdigit.2) (by decide)
    have hsame : c.toLower = c := dif_neg hupper
    rw [hsame]

/-- What stands in brackets is an address, and it is the host. -/
theorem bracketed_of_bracketsOk (hhost : WrittenHost x host) (hbracket : '[' ∈ host)
    (hok : bracketsOk (authority netloc host kept) = true) :
    ∃ bracketed, host ++ portText kept = '[' :: bracketed ∧
      checkBracketedHost (partition ']' bracketed).1 = true ∧
      (hostinfo (authority netloc host kept)).1 = (partition ']' bracketed).1 := by
  have hmem : '[' ∈ authority netloc host kept := by
    simp [authority, hbracket]
  unfold bracketsOk at hok
  split_ifs at hok with hboth
  · unfold checkBracketedNetloc at hok
    unfold hostinfo
    rw [hostAndPort_authority hhost] at hok ⊢
    rcases hcut : partition '[' (host ++ portText kept) with ⟨before, _ | bracketed⟩
    · exact absurd (List.mem_append_left _ hbracket) (partition_eq_none_iff.1 hcut).1
    · obtain ⟨-, heq⟩ := partition_eq_some_iff.1 hcut
      rw [hcut] at hok
      simp only [decide_eq_true_eq] at hok
      obtain ⟨rfl, -, hcheck⟩ := hok
      exact ⟨bracketed, heq, hcheck, rfl⟩
  · simp [hmem] at hok

/-- What is read out of brackets is written without them. -/
theorem canonicalNetloc_of_bracket (hx : Lawful x) (hhost : WrittenHost x host)
    (hbracket : '[' ∈ host) (hok : bracketsOk (authority netloc host kept) = true) :
    canonicalNetloc x scheme (authority netloc host kept) ≠
      some (authority netloc host kept) := by
  intro hfixed
  obtain ⟨q, -, hwritten⟩ := (canonicalNetloc_authority hhost).1 hfixed
  obtain ⟨bracketed, heq, hcheck, hinfo⟩ := bracketed_of_bracketsOk hhost hbracket hok
  obtain ⟨c, rest, hhead, hc⟩ := checkBracketedHost_head hcheck
  have hprefix : (partition ']' bracketed).1 <+: bracketed := (partition_fst_spec ']' _).1
  generalize (partition ']' bracketed).1 = inner at hinfo hhead hprefix
  have hlowered : ∀ d ∈ (partition '%' inner).1, x.lower [d] = [d] := by
    intro d hd
    have hd' : d ∈ (partition '%' (host ++ portText kept)).1 := by
      rw [heq, partition, if_neg (by decide)]
      exact List.mem_cons_of_mem _ (partition_fst_subset_of_front hprefix hd)
    rcases mem_partition_fst_append hd' with hd' | hd'
    · exact hhost.lowered d hd'
    · exact lower_portText hx hd'
  rw [writtenHost_of_lowered hx hinfo hlowered, heq] at hwritten
  rcases idnaEncodeHost_cases hx inner with hencoded | ⟨hnot, hascii⟩
  · rw [idnaEncodeHost_eq_self hencoded, hhead] at hwritten
    exact hc (List.cons.inj hwritten).1
  · obtain ⟨tail, htail⟩ := hprefix
    rw [← htail, ← List.cons_append] at hwritten
    have hinner := allAscii_of_append_eq hascii hwritten
    rw [allAscii, List.all_cons, Bool.and_eq_true] at hinner
    exact hnot hinner.2

/-- **The authority is a fixed point** exactly if its host is read back. -/
theorem canonicalNetloc_eq_self_iff (hx : Lawful x) (hhost : WrittenHost x host)
    (hport : PortStays scheme kept) (hok : bracketsOk (authority netloc host kept) = true) :
    canonicalNetloc x scheme (authority netloc host kept) = some (authority netloc host kept) ↔
      HostReadsBack x scheme host kept := by
  by_cases hbracket : '[' ∈ host
  · exact ⟨fun hfixed => absurd hfixed (canonicalNetloc_of_bracket hx hhost hbracket hok),
      fun hback => absurd hbracket hback.bracket⟩
  rcases hcut : partition ':' host with ⟨name, _ | rest⟩
  · obtain ⟨hcolon, -⟩ := partition_eq_none_iff.1 hcut
    exact ⟨fun _ => ⟨hbracket, fun hmem => absurd hmem hcolon⟩,
      fun _ => canonicalNetloc_of_plain hx hhost hport hbracket hcolon⟩
  · obtain ⟨hname, heq⟩ := partition_eq_some_iff.1 hcut
    rw [canonicalNetloc_of_colon hx hhost hbracket hname heq]
    constructor
    · rintro ⟨rfl, hencoded, p, rfl, hstays⟩
      exact ⟨hbracket, fun _ => ⟨rfl, name, p, heq, hname, hstays, hencoded⟩⟩
    · rintro ⟨-, hcolon⟩
      obtain ⟨rfl, name', p, heq', hname', hstays, hencoded⟩ := hcolon (by rw [heq]; simp)
      have hsame := partition_eq_some_iff.2 ⟨hname', heq'⟩
      rw [hcut] at hsame
      cases hsame
      exact ⟨rfl, hencoded, p, rfl, hstays⟩

/-! ## The URL -/

/-- The authority of the parts is read back as it is written. -/
structure ReadsBack (x : Unicode) (r : SplitResult) (q : Option ℕ) : Prop where
  brackets : bracketsOk (authority r.netloc (writtenHost x r.netloc) (keepPort r.scheme q)) = true
  host : HostReadsBack x r.scheme (writtenHost x r.netloc) (keepPort r.scheme q)

variable {r r' : SplitResult} {u v : Str}

theorem canonical_eq_some (h : canonical x r = some r') :
    ∃ q, port r.netloc = some q ∧
      r' = ⟨r.scheme, authority r.netloc (writtenHost x r.netloc) (keepPort r.scheme q),
        canonicalPath x r.scheme r.path, x.nfc r.query, []⟩ := by
  unfold canonical canonicalNetloc at h
  rcases hport : port r.netloc with _ | q
  · rw [hport] at h
    cases h
  · rw [hport] at h
    cases h
    refine ⟨q, rfl, ?_⟩
    simp only [authority, List.append_assoc]

/-- The characters of an authority that is written back. -/
theorem mem_authority (hx : Lawful x) (hhost : WrittenHost x host)
    (h : ∀ c ∈ netloc, endsNetloc c = false ∧ isUnsafe c = false ∧ x.expands c = false) :
    ∀ c ∈ authority netloc host kept,
      endsNetloc c = false ∧ isUnsafe c = false ∧ x.expands c = false := by
  intro c hc
  simp only [authority, List.mem_append] at hc
  rcases hc with hc | hc | hc
  · refine h c ?_
    rw [← userinfoText_append_hostAndPort netloc]
    exact List.mem_append_left _ hc
  · obtain ⟨hends, hunsafe, -, hexp⟩ := hhost.chars c hc
    exact ⟨hends, hunsafe, hexp⟩
  · refine ⟨?_, ?_, hx.expands_ascii c (List.all_eq_true.1 allAscii_portText c hc)⟩
    · by_contra hends
      simp only [endsNetloc, decide_eq_false_iff_not, not_not] at hends
      rcases mem_portText hc with rfl | hdigit
      · exact absurd hends (by decide)
      · rcases hends with rfl | rfl | rfl <;> exact absurd hdigit (by decide)
    · by_contra hunsafe
      simp only [isUnsafe, decide_eq_false_iff_not, not_not] at hunsafe
      rcases mem_portText hc with rfl | hdigit
      · exact absurd hunsafe (by decide)
      · rcases hunsafe with rfl | rfl | rfl <;> exact absurd hdigit (by decide)

/-- Without an authority none is written. -/
theorem authority_nil (x : Unicode) {q : Option ℕ} (h : port [] = some q) :
    authority [] (writtenHost x []) (keepPort scheme q) = [] := by
  cases h
  rfl

/-- The parts that are written back can be told apart again. -/
theorem components_canonical (hx : Lawful x) (hr : Components { r with fragment := [] })
    (hexp : ∀ c ∈ r.netloc, x.expands c = false) (h : canonical x r = some r') :
    Components r' ∧ ∀ c ∈ r'.netloc, x.expands c = false := by
  obtain ⟨q, hq, rfl⟩ := canonical_eq_some h
  have hnetloc : ∀ c ∈ r.netloc,
      endsNetloc c = false ∧ isUnsafe c = false ∧ x.expands c = false :=
    fun c hc => ⟨(hr.netloc c hc).1, (hr.netloc c hc).2, hexp c hc⟩
  have hchars : ∀ c ∈ authority r.netloc (writtenHost x r.netloc) (keepPort r.scheme q),
      endsNetloc c = false ∧ isUnsafe c = false ∧ x.expands c = false :=
    mem_authority hx (writtenHost_spec hx hnetloc) hnetloc
  have hquoted := (quoted_canonicalPath hx r.scheme r.path).2
  refine ⟨⟨hr.scheme_head, hr.scheme_chars, hr.scheme_lower,
    fun c hc => ⟨(hchars c hc).1, (hchars c hc).2.1⟩, (quoted_path_chars hquoted).2, fun hne => ?_,
    fun c hc => ⟨?_, ?_⟩, rfl⟩, fun c hc => (hchars c hc).2.2⟩
  · refine canonicalPath_head hx r.scheme (hr.path_head fun hnil => hne ?_)
    have hnil' : r.netloc = [] := hnil
    rw [hnil'] at hq ⊢
    exact authority_nil x hq
  · rintro rfl
    exact (hr.query _ (hx.nfc_delim _ _ hc (.inl rfl))).1 rfl
  · by_contra hunsafe
    have hmem := hx.nfc_delim _ c hc (.inr (by simpa using hunsafe))
    exact hunsafe (hr.query c hmem).2

/-- What is written back is parsed as it is. -/
theorem parse_urlunsplit (hr : Components r) (hexp : ∀ c ∈ r.netloc, x.expands c = false) :
    parse x (urlunsplit r) = if bracketsOk r.netloc then some r else none := by
  have hany : ¬r.netloc.any x.expands = true := by
    rw [List.any_eq_true]
    rintro ⟨c, hc, hexpands⟩
    rw [hexp c hc] at hexpands
    cases hexpands
  have hscheme : r.scheme ≠ [] := ne_nil_of_scheme_head hr.scheme_head
  unfold parse
  rw [urlsplit_urlunsplit x hr]
  by_cases hok : bracketsOk r.netloc = true
  · rw [if_pos ⟨hok, hany⟩, if_pos hok, Option.bind_some, if_pos hscheme]
  · rw [if_neg fun h => hok h.1, if_neg hok, Option.bind_none]

/-- The URL is no blank text. -/
theorem urlunsplit_not_blank (hr : Components r) : (urlunsplit r).all Text.isSpace = false := by
  obtain ⟨c, rest, heq, hc⟩ := hr.scheme_head
  have hmem : c ∈ urlunsplit r := by
    unfold urlunsplit
    rw [heq, if_neg (List.cons_ne_nil _ _)]
    simp
  -- the scheme begins with a letter
  have hspace : Text.isSpace c = false := isSpace_of_isAsciiAlpha hc
  rw [List.all_eq_false]
  exact ⟨c, hmem, by simp [hspace]⟩

/-- **The parts are a fixed point** exactly if the authority is accepted and is one. -/
theorem normalize_urlunsplit_iff (hx : Lawful x) (hr : Components { r with fragment := [] })
    (hexp : ∀ c ∈ r.netloc, x.expands c = false) (h : canonical x r = some r')
    (hlength : (urlunsplit r').length ≤ maxNormalizedUrlLength) :
    ((normalize x (urlunsplit r')).isValid = true ∧
      (normalize x (urlunsplit r')).normalizedValue = some (urlunsplit r')) ↔
    bracketsOk r'.netloc = true ∧ canonicalNetloc x r'.scheme r'.netloc = some r'.netloc := by
  obtain ⟨hr', hexp'⟩ := components_canonical hx hr hexp h
  have hr'' : Components { r' with fragment := [] } := by
    obtain ⟨q, -, rfl⟩ := canonical_eq_some h
    exact hr'
  rw [normalize_eq_some_iff, parse_urlunsplit hr' hexp']
  constructor
  · rintro ⟨-, r₁, r₂, hparse, hcanonical, heq, -⟩
    split_ifs at hparse with hok
    cases hparse
    -- both URLs are taken apart into the same parts
    obtain ⟨hr₂, hexp₂⟩ := components_canonical hx hr'' hexp' hcanonical
    have hback := parse_urlunsplit hr₂ hexp₂
    rw [heq, parse_urlunsplit hr' hexp', if_pos hok] at hback
    split_ifs at hback with hok₂
    cases hback
    refine ⟨hok, ?_⟩
    unfold canonical at hcanonical
    obtain ⟨netloc, hnetloc, hr'eq⟩ := Option.map_eq_some_iff.1 hcanonical
    rw [hnetloc, ← hr'eq]
  · rintro ⟨hok, hfixed⟩
    refine ⟨urlunsplit_not_blank hr', r', r', if_pos hok, ?_, rfl, hlength⟩
    obtain ⟨q, -, rfl⟩ := canonical_eq_some h
    unfold canonical
    rw [hfixed]
    simp only [Option.map_some, canonicalPath_canonicalPath hx, hx.nfc_nfc]

/-- **Normalising twice.**  A URL that is normalised is normalised to the same again exactly
if its authority is read back as it is written. -/
theorem normalize_idempotent_iff (hx : Lawful x) (hvalid : (normalize x u).isValid = true) :
    (∃ v, (normalize x u).normalizedValue = some v ∧ (normalize x v).isValid = true ∧
      (normalize x v).normalizedValue = some v) ↔
    ∃ r q, parse x u = some r ∧ port r.netloc = some q ∧ ReadsBack x r q := by
  obtain ⟨v, hv⟩ := exists_normalizedValue hvalid
  obtain ⟨-, r, r', hparse, hcanonical, rfl, hlength⟩ := normalize_eq_some_iff.1 ⟨hvalid, hv⟩
  obtain ⟨⟨url, hurl⟩, hscheme⟩ := parse_scheme hparse
  obtain ⟨hr, -, hexp⟩ := urlsplit_components hurl hscheme
  have hfixed := normalize_urlunsplit_iff hx hr hexp hcanonical hlength
  obtain ⟨q, hq, rfl⟩ := canonical_eq_some hcanonical
  have hhost : WrittenHost x (writtenHost x r.netloc) :=
    writtenHost_spec hx fun c hc => ⟨(hr.netloc c hc).1, (hr.netloc c hc).2, hexp c hc⟩
  have hport : PortStays r.scheme (keepPort r.scheme q) := portStays_keepPort hq
  constructor
  · rintro ⟨w, hw, hagain⟩
    rw [hv, Option.some.injEq] at hw
    subst hw
    obtain ⟨hok, hnetloc⟩ := hfixed.1 hagain
    exact ⟨r, q, hparse, hq, hok, (canonicalNetloc_eq_self_iff hx hhost hport hok).1 hnetloc⟩
  · rintro ⟨r₁, q₁, hparse₁, hq₁, hback⟩
    rw [hparse, Option.some.injEq] at hparse₁
    subst hparse₁
    rw [hq, Option.some.injEq] at hq₁
    subst hq₁
    exact ⟨_, hv, hfixed.2 ⟨hback.brackets,
      (canonicalNetloc_eq_self_iff hx hhost hport hback.brackets).2 hback.host⟩⟩

/-- `HTTP://user@Host.example:8080/a/./b?q#f`. -/
def sampleUrl : Str := "HTTP://user@Host.example:8080/a/./b?q#f".toList

def sampleParts : SplitResult :=
  ⟨"http".toList, "user@Host.example:8080".toList, "/a/./b".toList, "q".toList, "f".toList⟩

theorem normalize_idempotent_sampleUrl :
    (normalize asciiUnicode sampleUrl).isValid = true ∧
    ∃ v, (normalize asciiUnicode sampleUrl).normalizedValue = some v ∧
      (normalize asciiUnicode v).isValid = true ∧
      (normalize asciiUnicode v).normalizedValue = some v := by
  have hvalid : (normalize asciiUnicode sampleUrl).isValid = true := by decide +kernel
  have hparse : parse asciiUnicode sampleUrl = some sampleParts := by decide +kernel
  have hport : port sampleParts.netloc = some (some 8080) := by decide +kernel
  have hhost : writtenHost asciiUnicode sampleParts.netloc = "host.example".toList := by
    decide +kernel
  refine ⟨hvalid, (normalize_idempotent_iff lawful_asciiUnicode hvalid).2
    ⟨sampleParts, some 8080, hparse, hport, by decide +kernel, ?_, fun hcolon => ?_⟩⟩
  · rw [hhost]
    decide
  · rw [hhost] at hcolon
    exact absurd hcolon (by decide)

/-- **An IPv6 host** is written without its brackets, and the result is not a URL. -/
theorem ipv6_not_idempotent :
    Lawful asciiUnicode ∧
    (normalize asciiUnicode "http://[::1]/".toList).isValid = true ∧
    (normalize asciiUnicode "http://[::1]/".toList).normalizedValue = some "http://::1".toList ∧
    (normalize asciiUnicode "http://::1".toList).isValid = false := by
  refine ⟨lawful_asciiUnicode, ?_, ?_, ?_⟩ <;> decide +kernel

end Url
end ScamOn.Analyzers
