import Mathlib.Data.List.TakeWhile
import ScamOn.Lib.Chars
import ScamOn.Lib.IpAddress
import ScamOn.Lib.Text

/-!
# Taking a URL apart and putting it together

`urllib.parse.urlsplit`, `urlunsplit` and the attributes of their result, on texts as
lists of characters.

* `Unicode` is what URL handling takes from the Unicode database, `Lawful` what it may
  rely on; `asciiUnicode` is the part of it that ASCII texts need.
* `urlsplit` answers `none` where Python raises `ValueError`: brackets that do not hold an
  address, or a character of the authority that stands for a delimiter.
* `urlsplit_urlunsplit`: components without stray delimiters are read back from the URL
  they make, provided the authority is accepted.
-/

namespace ScamOn

/-- The functions of the Unicode database that URL handling uses. -/
structure Unicode where
  /-- `str.lower`. -/
  lower : Str → Str
  /-- `unicodedata.normalize("NFC", s)`. -/
  nfc : Str → Str
  /-- `s.encode("idna").decode("ascii")`; `none` is `UnicodeError`. -/
  idna : Str → Option Str
  /-- The character decomposes, under NFKC, into one of `/`, `?`, `#`, `@` and `:`. -/
  expands : Char → Bool

namespace UrlParse

open Chars

/-! ## Taking apart -/

/-- `urlsplit(url)`. -/
structure SplitResult where
  scheme : Str
  netloc : Str
  path : Str
  query : Str
  fragment : Str
  deriving DecidableEq

/-- The characters that are taken out of a URL wherever they stand. -/
def isUnsafe (c : Char) : Bool := c = '\t' ∨ c = '\r' ∨ c = '\n'

/-- The URL without control characters and blanks in front, and without unsafe ones. -/
def cleanUrl (url : Str) : Str :=
  (url.dropWhile fun c => c.toNat ≤ 32).filter fun c => ¬isUnsafe c

def isAsciiAlpha (c : Char) : Bool := ('a' ≤ c ∧ c ≤ 'z') ∨ ('A' ≤ c ∧ c ≤ 'Z')

def isSchemeChar (c : Char) : Bool := isAsciiAlpha c ∨ c.isDigit ∨ c = '+' ∨ c = '-' ∨ c = '.'

/-- The scheme in lower case, if there is one, and what follows it. -/
def splitScheme (url : Str) : Str × Str :=
  match partition ':' url with
  | (c :: scheme, some rest) =>
    if isAsciiAlpha c ∧ (c :: scheme).all isSchemeChar then ((c :: scheme).map Char.toLower, rest)
    else ([], url)
  | _ => ([], url)

/-- The delimiters that end an authority. -/
def endsNetloc (c : Char) : Bool := c = '/' ∨ c = '?' ∨ c = '#'

/-- The authority, if two slashes announce one, and what follows it. -/
def splitNetloc (url : Str) : Str × Str :=
  match url with
  | '/' :: '/' :: rest => (rest.takeWhile fun c => ¬endsNetloc c, rest.dropWhile fun c => ¬endsNetloc c)
  | _ => ([], url)

/-- `v`, hexadecimal digits, a dot and anything. -/
def isIPvFuture (s : Str) : Bool :=
  match s with
  | 'v' :: rest =>
    (partition '.' rest).1 ≠ [] ∧ (partition '.' rest).1.all IpAddress.isHexDigit ∧
      ((partition '.' rest).2.getD []) ≠ []
  | _ => false

/-- `_check_bracketed_host`. -/
def checkBracketedHost (hostname : Str) : Bool :=
  if hostname.head? = some 'v' then isIPvFuture hostname else IpAddress.isIPv6 hostname

/-- What follows the last `@` of an authority. -/
def hostAndPort (netloc : Str) : Str := (rpartition '@' netloc).2

/-- `_check_bracketed_netloc`. -/
def checkBracketedNetloc (netloc : Str) : Bool :=
  match partition '[' (hostAndPort netloc) with
  | (before, some bracketed) =>
    let port := (partition ']' bracketed).2.getD []
    before = [] ∧ (port = [] ∨ port.head? = some ':') ∧
      checkBracketedHost (partition ']' bracketed).1
  | (_, none) => checkBracketedHost (partition ':' (hostAndPort netloc)).1

/-- The brackets of an authority come in pairs, and hold an address. -/
def bracketsOk (netloc : Str) : Bool :=
  if '[' ∈ netloc ∧ ']' ∈ netloc then checkBracketedNetloc netloc
  else '[' ∉ netloc ∧ ']' ∉ netloc

/-- Path, query and fragment. -/
def splitPath (url : Str) : Str × Str × Str :=
  let cut := partition '#' url
  let cut' := partition '?' cut.1
  (cut'.1, cut'.2.getD [], cut.2.getD [])

/-- `urlsplit(url)`; `none` is `ValueError`. -/
def urlsplit (x : Unicode) (url : Str) : Option SplitResult :=
  let byScheme := splitScheme (cleanUrl url)
  let byNetloc := splitNetloc byScheme.2
  let parts := splitPath byNetloc.2
  if bracketsOk byNetloc.1 ∧ ¬byNetloc.1.any x.expands then
    some ⟨byScheme.1, byNetloc.1, parts.1, parts.2.1, parts.2.2⟩
  else none

/-! ## The attributes of an authority -/

/-- `username` and `password`. -/
def userinfo (netloc : Str) : Option (Str × Option Str) :=
  (rpartition '@' netloc).1.map fun info => partition ':' info

/-- The host as it is written, and the text of the port. -/
def hostinfo (netloc : Str) : Str × Str :=
  match partition '[' (hostAndPort netloc) with
  | (_, some bracketed) =>
    ((partition ']' bracketed).1,
      ((partition ':' ((partition ']' bracketed).2.getD [])).2).getD [])
  | (_, none) =>
    ((partition ':' (hostAndPort netloc)).1, (partition ':' (hostAndPort netloc)).2.getD [])

/-- Lower case, up to the zone of a scoped address. -/
def lowerHost (x : Unicode) (host : Str) : Str :=
  match partition '%' host with
  | (name, some zone) => x.lower name ++ '%' :: zone
  | (name, none) => x.lower name

/-- `hostname`, the empty text standing for `None`. -/
def hostname (x : Unicode) (netloc : Str) : Str :=
  if (hostinfo netloc).1 = [] then [] else lowerHost x (hostinfo netloc).1

/-- `port`: `none` is `ValueError`, `some none` is `None`. -/
def port (netloc : Str) : Option (Option ℕ) :=
  let text := (hostinfo netloc).2
  if text = [] then some none
  else if text.all Char.isDigit ∧ text.length ≤ Text.intMaxStrDigits ∧
      Nat.ofDigitChars 10 text 0 ≤ 65535 then
    some (some (Nat.ofDigitChars 10 text 0))
  else none

/-! ## Putting together -/

/-- `uses_netloc`. -/
def usesNetloc : List Str :=
  ["", "ftp", "http", "gopher", "nntp", "telnet", "imap", "wais", "file", "mms", "https", "shttp",
    "snews", "prospero", "rtsp", "rtsps", "rtspu", "rsync", "svn", "svn+ssh", "sftp", "nfs", "git",
    "git+ssh", "ws", "wss", "itms-services"].map String.toList

/-- Authority and path, as they stand in a URL. -/
def joinNetloc (scheme netloc path : Str) : Str :=
  if netloc ≠ [] then
    ['/', '/'] ++ netloc ++ (if path ≠ [] ∧ path.head? ≠ some '/' then '/' :: path else path)
  else if path.take 2 = ['/', '/'] then ['/', '/'] ++ path
  else if scheme ≠ [] ∧ scheme ∈ usesNetloc ∧ (path = [] ∨ path.head? = some '/') then
    ['/', '/'] ++ path
  else path

/-- A delimiter and a component, if there is one. -/
def withDelim (delim : Char) (s : Str) : Str := if s = [] then [] else delim :: s

/-- `urlunsplit(components)`. -/
def urlunsplit (r : SplitResult) : Str :=
  (if r.scheme = [] then [] else r.scheme ++ [':']) ++ joinNetloc r.scheme r.netloc r.path ++
    withDelim '?' r.query ++ withDelim '#' r.fragment

/-! ## What may be relied on -/

/-- A character that means something to a parser of authorities. -/
def isDelim (c : Char) : Bool :=
  endsNetloc c ∨ isUnsafe c ∨ c = '@' ∨ c = ':' ∨ c = '[' ∨ c = ']' ∨ c = '%'

/-- **What is documented of the Unicode database.**  Lower-casing works by the character,
except that a capital sigma looks around; it touches letters only.  NFC is idempotent,
keeps ASCII, and makes no control character and no `#`.  IDNA makes ASCII, keeps what is in
lower case up to a zone so, and makes a delimiter only out of itself or of a character that
expands to one. -/
structure Lawful (x : Unicode) : Prop where
  lower_lowered : ∀ s, ∀ c ∈ x.lower s, x.lower [c] = [c]
  lower_eq_self : ∀ s, (∀ c ∈ s, x.lower [c] = [c]) → x.lower s = s
  lower_ascii : ∀ c, isAscii c = true → x.lower [c] = [c.toLower]
  lower_delim : ∀ s, ∀ c ∈ x.lower s, isDelim c = true → c ∈ s
  lower_expands : ∀ s, ∀ c ∈ x.lower s, x.expands c = true → ∃ d ∈ s, x.expands d = true
  nfc_nfc : ∀ s, x.nfc (x.nfc s) = x.nfc s
  nfc_ascii : ∀ s, allAscii s = true → x.nfc s = s
  nfc_delim : ∀ s, ∀ c ∈ x.nfc s, c = '#' ∨ isUnsafe c = true → c ∈ s
  idna_ascii : ∀ s t, x.idna s = some t → allAscii t = true
  idna_lower : ∀ s t, x.idna s = some t → (∀ c ∈ (partition '%' s).1, x.lower [c] = [c]) →
    ∀ c ∈ (partition '%' t).1, c.toLower = c
  idna_delim : ∀ s t, x.idna s = some t → ∀ c ∈ t,
    endsNetloc c = true ∨ isUnsafe c = true ∨ c = '@' → c ∈ s ∨ ∃ d ∈ s, x.expands d = true
  expands_ascii : ∀ c, isAscii c = true → x.expands c = false

/-- The Unicode database, as far as ASCII goes. -/
def asciiUnicode : Unicode where
  lower s := s.map Char.toLower
  nfc s := s
  idna _ := none
  expands _ := false

theorem toLower_cases (c : Char) :
    c.toLower.toLower = c.toLower ∧ (c.toLower = c ∨ isDelim c.toLower = false) := by
  by_cases hupper : c.val ≥ 'A'.val ∧ c.val ≤ 'Z'.val
  · have hascii : c.toNat < 128 := lt_of_le_of_lt hupper.2 (by decide)
    refine of_ascii_cases (P := fun c => c.toLower.toLower = c.toLower ∧
      (c.toLower = c ∨ isDelim c.toLower = false)) ?_ hascii
    decide
  · have hsame : c.toLower = c := dif_neg hupper
    exact ⟨by rw [hsame, hsame], .inl hsame⟩

theorem lawful_asciiUnicode : Lawful asciiUnicode where
  lower_lowered s c hc := by
    obtain ⟨d, -, rfl⟩ := List.mem_map.1 hc
    exact congrArg (fun e => [e]) (toLower_cases d).1
  lower_eq_self s h := by
    refine List.map_congr_left (fun c hc => ?_) |>.trans (List.map_id _)
    exact (List.cons.inj (h c hc)).1
  lower_ascii _ _ := rfl
  lower_delim s c hc hdelim := by
    obtain ⟨d, hd, rfl⟩ := List.mem_map.1 hc
    rcases (toLower_cases d).2 with hsame | hnot
    · rw [hsame]
      exact hd
    · rw [hnot] at hdelim
      cases hdelim
  lower_expands _ _ _ h := by cases h
  nfc_nfc _ := rfl
  nfc_ascii _ _ := rfl
  nfc_delim _ _ hc _ := hc
  idna_ascii _ _ h := by cases h
  idna_lower _ _ h := by cases h
  idna_delim _ _ h := by cases h
  expands_ascii _ _ := rfl

/-! ## The round trip -/

/-- Components that a delimiter cannot be mistaken in, without a fragment. -/
structure Components (r : SplitResult) : Prop where
  scheme_head : ∃ c scheme, r.scheme = c :: scheme ∧ isAsciiAlpha c = true
  scheme_chars : ∀ c ∈ r.scheme, isSchemeChar c = true
  scheme_lower : r.scheme.map Char.toLower = r.scheme
  netloc : ∀ c ∈ r.netloc, endsNetloc c = false ∧ isUnsafe c = false
  path : ∀ c ∈ r.path, c ≠ '?' ∧ c ≠ '#' ∧ isUnsafe c = false
  path_head : r.netloc ≠ [] → r.path = [] ∨ r.path.head? = some '/'
  query : ∀ c ∈ r.query, c ≠ '#' ∧ isUnsafe c = false
  fragment : r.fragment = []

variable {x : Unicode} {r : SplitResult} {c : Char} {url : Str}

theorem isSchemeChar_of_isAsciiAlpha (h : isAsciiAlpha c = true) : isSchemeChar c = true := by
  simp [isSchemeChar, h]

/-- A character of a scheme is neither a blank nor a delimiter. -/
theorem isSchemeChar_bounds (h : isSchemeChar c = true) :
    32 < c.toNat ∧ c ≠ ':' ∧ isUnsafe c = false := by
  refine ⟨?_, ?_, ?_⟩
  · simp only [isSchemeChar, isAsciiAlpha, Char.isDigit, Bool.and_eq_true, Bool.decide_or,
      Bool.decide_and, Bool.or_eq_true, decide_eq_true_eq, Char.le_def, UInt32.le_iff_toNat_le] at h
    rcases h with (⟨h, -⟩ | ⟨h, -⟩) | ⟨h, -⟩ | rfl | rfl | rfl
    · exact lt_of_lt_of_le (by decide) h
    · exact lt_of_lt_of_le (by decide) h
    · exact lt_of_lt_of_le (by decide) h
    · decide
    · decide
    · decide
  · rintro rfl
    exact absurd h (by decide)
  · by_contra hunsafe
    simp only [isUnsafe, decide_eq_false_iff_not, not_not] at hunsafe
    rcases hunsafe with rfl | rfl | rfl <;> exact absurd h (by decide)

theorem cleanUrl_eq_self (hhead : ∀ c ∈ url.head?, 32 < c.toNat)
    (h : ∀ c ∈ url, isUnsafe c = false) : cleanUrl url = url := by
  have hdrop : (url.dropWhile fun c => c.toNat ≤ 32) = url := by
    rcases url with _ | ⟨c, url⟩
    · rfl
    · have hc := hhead c rfl
      exact List.dropWhile_cons_of_neg (by simpa using hc)
  rw [cleanUrl, hdrop, List.filter_eq_self]
  intro c hc
  simp [h c hc]

theorem splitScheme_append {scheme : Str} (hhead : ∃ c rest, scheme = c :: rest ∧ isAsciiAlpha c = true)
    (hchars : ∀ c ∈ scheme, isSchemeChar c = true) (hlower : scheme.map Char.toLower = scheme)
    (rest : Str) : splitScheme (scheme ++ ':' :: rest) = (scheme, rest) := by
  have hcolon : ':' ∉ scheme := fun hmem => (isSchemeChar_bounds (hchars _ hmem)).2.1 rfl
  obtain ⟨c, scheme, rfl, hc⟩ := hhead
  unfold splitScheme
  rw [partition_append hcolon]
  dsimp only
  rw [if_pos ⟨hc, List.all_eq_true.2 hchars⟩, hlower]

/-- A text that stops the authority, or ends. -/
def StopsNetloc (s : Str) : Prop := ∀ c ∈ s.head?, endsNetloc c = true

theorem splitNetloc_append {netloc tail : Str} (h : ∀ c ∈ netloc, endsNetloc c = false)
    (htail : StopsNetloc tail) :
    splitNetloc ('/' :: '/' :: (netloc ++ tail)) = (netloc, tail) := by
  have hnetloc : ∀ c ∈ netloc, (fun c => decide ¬endsNetloc c = true) c = true := by
    intro c hc
    simp [h c hc]
  show ((netloc ++ tail).takeWhile _, (netloc ++ tail).dropWhile _) = _
  rw [List.takeWhile_append_of_pos hnetloc, List.dropWhile_append_of_pos hnetloc]
  rcases tail with _ | ⟨c, tail⟩
  · simp
  · have hc := htail c rfl
    simp [hc]

theorem splitNetloc_of_no_slashes (h : url.take 2 ≠ ['/', '/']) : splitNetloc url = ([], url) := by
  unfold splitNetloc
  split
  · exact absurd rfl h
  · rfl

theorem not_mem_withDelim {delim c : Char} {s : Str} (hdelim : c ≠ delim) (h : c ∉ s) :
    c ∉ withDelim delim s := by
  unfold withDelim
  split_ifs
  · exact List.not_mem_nil
  · rw [List.mem_cons, not_or]
    exact ⟨hdelim, h⟩

/-- A component behind its delimiter is read back. -/
theorem partition_withDelim {delim : Char} {front : Str} (h : delim ∉ front) (s : Str) :
    (partition delim (front ++ withDelim delim s)).1 = front ∧
      (partition delim (front ++ withDelim delim s)).2.getD [] = s := by
  unfold withDelim
  split_ifs with hempty
  · rw [List.append_nil, partition_of_not_mem h]
    exact ⟨rfl, hempty.symm⟩
  · rw [partition_append h]
    exact ⟨rfl, rfl⟩

theorem splitPath_append {path query : Str} (hpath : ∀ c ∈ path, c ≠ '?' ∧ c ≠ '#')
    (hquery : ∀ c ∈ query, c ≠ '#') (fragment : Str) :
    splitPath (path ++ (withDelim '?' query ++ withDelim '#' fragment)) =
      (path, query, fragment) := by
  have hmark : '?' ∉ path := fun hmem => (hpath _ hmem).1 rfl
  have hhash : '#' ∉ path ++ withDelim '?' query := by
    rw [List.mem_append, not_or]
    exact ⟨fun hmem => (hpath _ hmem).2 rfl,
      not_mem_withDelim (by decide) fun hmem => hquery _ hmem rfl⟩
  obtain ⟨hfront, hfragment⟩ := partition_withDelim hhash fragment
  obtain ⟨hpath', hquery'⟩ := partition_withDelim hmark query
  unfold splitPath
  rw [← List.append_assoc]
  dsimp only
  rw [hfront, hfragment, hpath', hquery']

/-- A text that ends the path, or ends. -/
def EndsPath (s : Str) : Prop := ∀ c ∈ s.head?, c = '?' ∨ c = '#'

theorem endsPath_withDelim (query fragment : Str) :
    EndsPath (withDelim '?' query ++ withDelim '#' fragment) := by
  intro c hc
  unfold withDelim at hc
  split_ifs at hc
  · cases hc
  · cases hc
    exact .inr rfl
  · cases hc
    exact .inl rfl
  · cases hc
    exact .inl rfl

theorem stopsNetloc_of_path {path : Str} (h : path = [] ∨ path.head? = some '/') {tail : Str}
    (htail : EndsPath tail) : StopsNetloc (path ++ tail) := by
  intro c hc
  rcases h with rfl | hslash
  · rcases htail c hc with rfl | rfl <;> decide
  · rcases path with _ | ⟨d, path⟩
    · cases hslash
    · cases hslash
      cases hc
      decide

/-- What ends the path adds no slash to it. -/
theorem take_two_append {path tail : Str} (hpath : path.take 2 ≠ ['/', '/'])
    (htail : EndsPath tail) : (path ++ tail).take 2 ≠ ['/', '/'] := by
  rcases path with _ | ⟨c, _ | ⟨d, path⟩⟩
  · rcases tail with _ | ⟨c, tail⟩
    · rintro ⟨⟩
    · rcases htail c rfl with rfl | rfl <;> rintro ⟨⟩
  · rcases tail with _ | ⟨d, tail⟩
    · rintro ⟨⟩
    · rcases htail d rfl with rfl | rfl <;> rintro ⟨⟩
  · simpa using hpath

/-- The authority and what follows it are read back. -/
theorem splitNetloc_joinNetloc (h : Components r) {tail : Str} (htail : EndsPath tail) :
    splitNetloc (joinNetloc r.scheme r.netloc r.path ++ tail) = (r.netloc, r.path ++ tail) := by
  unfold joinNetloc
  by_cases hnetloc : r.netloc = []
  · rw [if_neg (by simpa using hnetloc), hnetloc]
    have hempty : ∀ c ∈ ([] : Str), endsNetloc c = false := by simp
    split_ifs with hslashes huses
    · have hhead : r.path.head? = some '/' := by
        rcases hpath : r.path with _ | ⟨c, path⟩
        · rw [hpath] at hslashes
          cases hslashes
        · rw [hpath] at hslashes
          cases (List.cons.inj hslashes).1
          rfl
      exact splitNetloc_append hempty (stopsNetloc_of_path (.inr hhead) htail)
    · exact splitNetloc_append hempty (stopsNetloc_of_path huses.2.2 htail)
    · exact splitNetloc_of_no_slashes (take_two_append hslashes htail)
  · have hpath := h.path_head hnetloc
    have hpath' : ¬(r.path ≠ [] ∧ r.path.head? ≠ some '/') := by tauto
    rw [if_pos hnetloc, if_neg hpath', List.append_assoc, List.append_assoc]
    exact splitNetloc_append (fun c hc => (h.netloc c hc).1) (stopsNetloc_of_path hpath htail)

theorem isUnsafe_withDelim {delim : Char} (hdelim : isUnsafe delim = false) {s : Str}
    (h : ∀ c ∈ s, isUnsafe c = false) : ∀ c ∈ withDelim delim s, isUnsafe c = false := by
  intro c hc
  unfold withDelim at hc
  split_ifs at hc
  · cases hc
  · rcases List.mem_cons.1 hc with rfl | hc
    · exact hdelim
    · exact h c hc

theorem isUnsafe_joinNetloc (h : Components r) :
    ∀ c ∈ joinNetloc r.scheme r.netloc r.path, isUnsafe c = false := by
  have hslash : isUnsafe '/' = false := by decide
  have hpath : ∀ c ∈ r.path, isUnsafe c = false := fun c hc => (h.path c hc).2.2
  have hnetloc : ∀ c ∈ r.netloc, isUnsafe c = false := fun c hc => (h.netloc c hc).2
  have hpath' : ∀ c ∈ '/' :: r.path, isUnsafe c = false := by
    simpa [hslash] using hpath
  intro c hc
  unfold joinNetloc at hc
  split_ifs at hc with h₁ h₂ h₃ h₄
  · simp only [List.mem_append, List.mem_cons, List.not_mem_nil, or_false, or_self] at hc
    rcases hc with (rfl | hc) | rfl | hc
    · exact hslash
    · exact hnetloc c hc
    · exact hslash
    · exact hpath c hc
  · simp only [List.mem_append, List.mem_cons, List.not_mem_nil, or_false, or_self] at hc
    rcases hc with (rfl | hc) | hc
    · exact hslash
    · exact hnetloc c hc
    · exact hpath c hc
  · simp only [List.mem_append, List.mem_cons, List.not_mem_nil, or_false, or_self] at hc
    rcases hc with rfl | hc
    · exact hslash
    · exact hpath c hc
  · simp only [List.mem_append, List.mem_cons, List.not_mem_nil, or_false, or_self] at hc
    rcases hc with rfl | hc
    · exact hslash
    · exact hpath c hc
  · exact hpath c hc

theorem urlunsplit_eq (hne : r.scheme ≠ []) :
    urlunsplit r = r.scheme ++ ':' :: (joinNetloc r.scheme r.netloc r.path ++
      (withDelim '?' r.query ++ withDelim '#' r.fragment)) := by
  unfold urlunsplit
  rw [if_neg hne]
  simp

/-- A scheme that begins with a letter is not empty. -/
theorem ne_nil_of_scheme_head {scheme : Str}
    (h : ∃ c rest, scheme = c :: rest ∧ isAsciiAlpha c = true) : scheme ≠ [] := by
  obtain ⟨c, rest, rfl, -⟩ := h
  exact List.cons_ne_nil _ _

theorem Components.scheme_ne_nil (h : Components { r with fragment := [] }) : r.scheme ≠ [] :=
  ne_nil_of_scheme_head h.scheme_head

theorem isUnsafe_urlunsplit (h : Components { r with fragment := [] })
    (hfragment : ∀ c ∈ r.fragment, isUnsafe c = false) :
    ∀ c ∈ urlunsplit r, isUnsafe c = false := by
  intro d hd
  rw [urlunsplit_eq h.scheme_ne_nil] at hd
  rcases List.mem_append.1 hd with hd | hd
  · exact (isSchemeChar_bounds (h.scheme_chars d hd)).2.2
  rcases List.mem_cons.1 hd with rfl | hd
  · decide
  rcases List.mem_append.1 hd with hd | hd
  · exact isUnsafe_joinNetloc h d hd
  rcases List.mem_append.1 hd with hd | hd
  · exact isUnsafe_withDelim (by decide) (fun e he => (h.query e he).2) d hd
  · exact isUnsafe_withDelim (by decide) hfragment d hd

/-- A text behind a scheme is cleaned of unsafe characters only. -/
theorem cleanUrl_scheme {scheme rest : Str}
    (hhead : ∃ c rest, scheme = c :: rest ∧ isAsciiAlpha c = true)
    (h : ∀ c ∈ scheme ++ ':' :: rest, isUnsafe c = false) :
    cleanUrl (scheme ++ ':' :: rest) = scheme ++ ':' :: rest := by
  obtain ⟨c, scheme, rfl, hc⟩ := hhead
  refine cleanUrl_eq_self ?_ h
  intro d hd
  cases hd
  exact (isSchemeChar_bounds (isSchemeChar_of_isAsciiAlpha hc)).1

/-- The round trip, with a fragment. -/
theorem urlsplit_urlunsplit_fragment (x : Unicode) (h : Components { r with fragment := [] })
    (hfragment : ∀ c ∈ r.fragment, isUnsafe c = false) :
    urlsplit x (urlunsplit r) =
      if bracketsOk r.netloc ∧ ¬r.netloc.any x.expands then some r else none := by
  have hsafe := isUnsafe_urlunsplit h hfragment
  rw [urlunsplit_eq h.scheme_ne_nil] at hsafe ⊢
  unfold urlsplit
  rw [cleanUrl_scheme h.scheme_head hsafe,
    splitScheme_append h.scheme_head h.scheme_chars h.scheme_lower]
  dsimp only
  rw [splitNetloc_joinNetloc h (endsPath_withDelim r.query r.fragment)]
  dsimp only
  rw [splitPath_append (fun d hd => ⟨(h.path d hd).1, (h.path d hd).2.1⟩)
    (fun d hd => (h.query d hd).1)]

/-- **The round trip.**  Components without stray delimiters are read back, provided the
authority is accepted. -/
theorem urlsplit_urlunsplit (x : Unicode) (h : Components r) :
    urlsplit x (urlunsplit r) =
      if bracketsOk r.netloc ∧ ¬r.netloc.any x.expands then some r else none := by
  have hr : { r with fragment := [] } = r := by
    obtain ⟨_, _, _, _, fragment⟩ := r
    cases h.fragment
    rfl
  refine urlsplit_urlunsplit_fragment x (by rwa [hr]) fun c hc => ?_
  rw [h.fragment] at hc
  cases hc

/-! ## What is taken apart -/

theorem isSchemeChar_ascii (h : isSchemeChar c = true) : c.toNat < 128 := by
  simp only [isSchemeChar, isAsciiAlpha, Char.isDigit, Bool.and_eq_true, Bool.decide_or,
    Bool.decide_and, Bool.or_eq_true, decide_eq_true_eq, Char.le_def, UInt32.le_iff_toNat_le] at h
  rcases h with (⟨-, h⟩ | ⟨-, h⟩) | ⟨-, h⟩ | rfl | rfl | rfl
  · exact lt_of_le_of_lt h (by decide)
  · exact lt_of_le_of_lt h (by decide)
  · exact lt_of_le_of_lt h (by decide)
  · decide
  · decide
  · decide

/-- A letter is no white space. -/
theorem isSpace_of_isAsciiAlpha (h : isAsciiAlpha c = true) : Text.isSpace c = false := by
  refine of_ascii_cases (P := fun c => isAsciiAlpha c = true → Text.isSpace c = false) ?_
    (isSchemeChar_ascii (isSchemeChar_of_isAsciiAlpha h)) h
  decide

theorem toLower_schemeChar (h : isSchemeChar c = true) :
    isSchemeChar c.toLower = true ∧ c.toLower.toLower = c.toLower ∧
      (isAsciiAlpha c = true → isAsciiAlpha c.toLower = true) := by
  refine of_ascii_cases (P := fun c => isSchemeChar c = true → isSchemeChar c.toLower = true ∧
    c.toLower.toLower = c.toLower ∧ (isAsciiAlpha c = true → isAsciiAlpha c.toLower = true))
    ?_ (isSchemeChar_ascii h) h
  decide

/-- What `splitScheme` answers: a scheme in lower case and what follows it, or nothing. -/
theorem splitScheme_cases (url : Str) :
    ((splitScheme url).1 = [] ∧ (splitScheme url).2 = url) ∨
    ((∃ c scheme, (splitScheme url).1 = c :: scheme ∧ isAsciiAlpha c = true) ∧
      (∀ c ∈ (splitScheme url).1, isSchemeChar c = true) ∧
      (splitScheme url).1.map Char.toLower = (splitScheme url).1 ∧
      (splitScheme url).2 <:+ url) := by
  unfold splitScheme
  split
  · rename_i c scheme rest hcut
    split_ifs with hscheme
    · obtain ⟨-, heq⟩ := partition_eq_some_iff.1 hcut
      have hchars := List.all_eq_true.1 hscheme.2
      refine .inr ⟨⟨c.toLower, scheme.map Char.toLower, rfl, ?_⟩, ?_, ?_, ?_⟩
      · exact (toLower_schemeChar (isSchemeChar_of_isAsciiAlpha hscheme.1)).2.2 hscheme.1
      · intro d hd
        obtain ⟨e, he, rfl⟩ := List.mem_map.1 hd
        exact (toLower_schemeChar (hchars e he)).1
      · rw [List.map_map]
        exact List.map_congr_left fun e he => (toLower_schemeChar (hchars e he)).2.1
      · rw [heq, List.append_cons]
        exact List.suffix_append _ _
    · exact .inl ⟨rfl, rfl⟩
  · exact .inl ⟨rfl, rfl⟩

theorem splitScheme_snd_suffix (url : Str) : (splitScheme url).2 <:+ url := by
  rcases splitScheme_cases url with ⟨-, heq⟩ | ⟨-, -, -, hsuffix⟩
  · rw [heq]
  · exact hsuffix

theorem splitNetloc_spec (url : Str) :
    (splitNetloc url).1 ⊆ url ∧ (splitNetloc url).2 <:+ url ∧
      (∀ c ∈ (splitNetloc url).1, endsNetloc c = false) ∧
      ((splitNetloc url).1 ≠ [] → StopsNetloc (splitNetloc url).2) := by
  unfold splitNetloc
  split
  · rename_i rest
    have hsuffix : rest <:+ '/' :: '/' :: rest := List.suffix_append ['/', '/'] rest
    refine ⟨fun c hc => hsuffix.subset ((List.takeWhile_sublist _).subset hc),
      (List.dropWhile_suffix _).trans hsuffix, ?_, ?_⟩
    · intro c hc
      simpa using List.mem_takeWhile_imp hc
    · intro _ c hc
      have hstop := List.head?_dropWhile_not (fun c => decide ¬endsNetloc c = true) rest
      rw [Option.mem_def] at hc
      simp only [hc] at hstop
      simpa using hstop
  · exact ⟨by simp, List.suffix_rfl, by simp, by simp⟩

theorem splitNetloc_cases (url : Str) :
    (∃ rest, url = '/' :: '/' :: rest ∧ (splitNetloc url).1 ++ (splitNetloc url).2 = rest) ∨
      url.take 2 ≠ ['/', '/'] ∧ splitNetloc url = ([], url) := by
  by_cases h : url.take 2 = ['/', '/']
  · left
    rcases url with _ | ⟨c, _ | ⟨d, rest⟩⟩
    · cases h
    · cases h
    · obtain ⟨rfl, rfl⟩ : c = '/' ∧ d = '/' := by simpa using h
      exact ⟨rest, rfl, List.takeWhile_append_dropWhile⟩
  · exact .inr ⟨h, splitNetloc_of_no_slashes h⟩

theorem splitPath_spec (url : Str) :
    (splitPath url).1 ⊆ url ∧ (splitPath url).2.1 ⊆ url ∧ (splitPath url).2.2 <:+ url ∧
      (∀ c ∈ (splitPath url).1, c ≠ '?' ∧ c ≠ '#') ∧ (∀ c ∈ (splitPath url).2.1, c ≠ '#') := by
  unfold splitPath
  dsimp only
  -- before the fragment there is no `#`
  have hbefore : (partition '#' url).1 ⊆ url ∧ '#' ∉ (partition '#' url).1 ∧
      (partition '#' url).2.getD [] <:+ url := by
    rcases hcut : partition '#' url with ⟨before, _ | after⟩
    · obtain ⟨hmem, rfl⟩ := partition_eq_none_iff.1 hcut
      exact ⟨fun _ hc => hc, hmem, List.nil_suffix⟩
    · obtain ⟨hmem, rfl⟩ := partition_eq_some_iff.1 hcut
      refine ⟨List.subset_append_left _ _, hmem, ?_⟩
      rw [Option.getD_some, List.append_cons]
      exact List.suffix_append _ _
  obtain ⟨hsub, hhash, hfragment⟩ := hbefore
  generalize (partition '#' url).1 = before at hsub hhash
  rcases hcut : partition '?' before with ⟨path, _ | query⟩
  · obtain ⟨hmem, rfl⟩ := partition_eq_none_iff.1 hcut
    exact ⟨hsub, by simp, hfragment,
      fun c hc => ⟨ne_of_mem_of_not_mem hc hmem, ne_of_mem_of_not_mem hc hhash⟩, by simp⟩
  · obtain ⟨hmem, rfl⟩ := partition_eq_some_iff.1 hcut
    refine ⟨fun c hc => hsub (List.mem_append_left _ hc),
      fun c hc => hsub (List.mem_append_right _ (List.mem_cons_of_mem _ hc)), hfragment,
      fun c hc => ?_, fun c hc => ?_⟩
    · exact ⟨ne_of_mem_of_not_mem hc hmem,
        ne_of_mem_of_not_mem (List.mem_append_left _ hc) hhash⟩
    · exact ne_of_mem_of_not_mem (List.mem_append_right _ (List.mem_cons_of_mem _ hc)) hhash

/-- Without a fragment, path and query make the text again, unless there is the mark of an empty
query. -/
theorem splitPath_rejoin (hhash : '#' ∉ url) (hmark : '?' ∈ url → (splitPath url).2.1 ≠ []) :
    url = (splitPath url).1 ++ withDelim '?' (splitPath url).2.1 := by
  unfold splitPath at hmark ⊢
  rw [partition_of_not_mem hhash] at hmark ⊢
  dsimp only at hmark ⊢
  rcases hcut : partition '?' url with ⟨path, _ | query⟩
  · obtain ⟨-, rfl⟩ := partition_eq_none_iff.1 hcut
    simp [withDelim]
  · obtain ⟨hmem, rfl⟩ := partition_eq_some_iff.1 hcut
    rw [hcut] at hmark
    have hne : query ≠ [] := hmark (by simp)
    simp [withDelim, hne]

/-- After an authority, the path is empty or begins with a slash. -/
theorem splitPath_head (h : StopsNetloc url) :
    (splitPath url).1 = [] ∨ (splitPath url).1.head? = some '/' := by
  rcases url with _ | ⟨c, url⟩
  · exact .inl rfl
  have hc := h c rfl
  simp only [endsNetloc, decide_eq_true_eq] at hc
  unfold splitPath
  dsimp only
  rcases hc with rfl | rfl | rfl
  · right
    have hfirst : partition '#' ('/' :: url) = ('/' :: (partition '#' url).1, (partition '#' url).2) :=
      rfl
    rw [hfirst]
    rfl
  · left
    have hfirst : partition '#' ('?' :: url) = ('?' :: (partition '#' url).1, (partition '#' url).2) :=
      rfl
    rw [hfirst]
    rfl
  · exact .inl rfl

theorem isUnsafe_cleanUrl (hc : c ∈ cleanUrl url) : isUnsafe c = false := by
  have hfilter := (List.mem_filter.1 hc).2
  simpa using hfilter

theorem urlsplit_eq (h : urlsplit x url = some r) :
    r = ⟨(splitScheme (cleanUrl url)).1, (splitNetloc (splitScheme (cleanUrl url)).2).1,
      (splitPath (splitNetloc (splitScheme (cleanUrl url)).2).2).1,
      (splitPath (splitNetloc (splitScheme (cleanUrl url)).2).2).2.1,
      (splitPath (splitNetloc (splitScheme (cleanUrl url)).2).2).2.2⟩ := by
  unfold urlsplit at h
  dsimp only at h
  split_ifs at h
  exact (Option.some.inj h).symm

/-- **What is taken apart** has no stray delimiters, and an accepted authority; a scheme may be
missing. -/
theorem urlsplit_components_of_scheme (h : urlsplit x url = some r) {scheme : Str}
    (hhead : ∃ c rest, scheme = c :: rest ∧ isAsciiAlpha c = true)
    (hchars : ∀ c ∈ scheme, isSchemeChar c = true) (hlower : scheme.map Char.toLower = scheme) :
    Components { r with scheme := scheme, fragment := [] } ∧
      (∀ c ∈ r.fragment, isUnsafe c = false) ∧ bracketsOk r.netloc = true ∧
      ∀ c ∈ r.netloc, x.expands c = false := by
  unfold urlsplit at h
  dsimp only at h
  split_ifs at h with haccepted
  cases h
  have hrest := (splitScheme_snd_suffix (cleanUrl url)).subset
  obtain ⟨hnetlocSub, htailSub, hnetloc, hstops⟩ := splitNetloc_spec (splitScheme (cleanUrl url)).2
  obtain ⟨hpathSub, hquerySub, hfragmentSub, hpath, hquery⟩ :=
    splitPath_spec (splitNetloc (splitScheme (cleanUrl url)).2).2
  refine ⟨⟨hhead, hchars, hlower, fun c hc => ⟨hnetloc c hc, ?_⟩, fun c hc => ?_,
    fun hne => splitPath_head (hstops hne), fun c hc => ⟨hquery c hc, ?_⟩, rfl⟩, fun c hc => ?_,
    haccepted.1, ?_⟩
  · exact isUnsafe_cleanUrl (hrest (hnetlocSub hc))
  · obtain ⟨hmark, hhash⟩ := hpath c hc
    exact ⟨hmark, hhash, isUnsafe_cleanUrl (hrest (htailSub.subset (hpathSub hc)))⟩
  · exact isUnsafe_cleanUrl (hrest (htailSub.subset (hquerySub hc)))
  · exact isUnsafe_cleanUrl (hrest (htailSub.subset (hfragmentSub.subset hc)))
  · intro c hc
    by_contra hexpands
    exact haccepted.2 (List.any_eq_true.2 ⟨c, hc, by simpa using hexpands⟩)

/-- The fragment stands at the end. -/
theorem urlsplit_fragment_suffix (h : urlsplit x url = some r) : r.fragment <:+ cleanUrl url := by
  rw [urlsplit_eq h]
  obtain ⟨-, htail, -⟩ := splitNetloc_spec (splitScheme (cleanUrl url)).2
  obtain ⟨-, -, hfragment, -⟩ := splitPath_spec (splitNetloc (splitScheme (cleanUrl url)).2).2
  exact (hfragment.trans htail).trans (splitScheme_snd_suffix _)

/-- The scheme of a URL, if there is one. -/
theorem urlsplit_scheme (h : urlsplit x url = some r) :
    r.scheme = [] ∨ (∃ c rest, r.scheme = c :: rest ∧ isAsciiAlpha c = true) ∧
      (∀ c ∈ r.scheme, isSchemeChar c = true) ∧ r.scheme.map Char.toLower = r.scheme := by
  rw [urlsplit_eq h]
  rcases splitScheme_cases (cleanUrl url) with ⟨hnil, -⟩ | ⟨hhead, hchars, hlower, -⟩
  · exact .inl hnil
  · exact .inr ⟨hhead, hchars, hlower⟩

/-- **What is taken apart** after a scheme has no stray delimiters, and an accepted authority. -/
theorem urlsplit_components (h : urlsplit x url = some r) (hscheme : r.scheme ≠ []) :
    Components { r with fragment := [] } ∧ bracketsOk r.netloc = true ∧
      ∀ c ∈ r.netloc, x.expands c = false := by
  obtain ⟨hhead, hchars, hlower⟩ := (urlsplit_scheme h).resolve_left hscheme
  obtain ⟨hcomponents, -, haccepted⟩ := urlsplit_components_of_scheme h hhead hchars hlower
  exact ⟨hcomponents, haccepted⟩

/-! ## Hosts -/

theorem hostinfo_fst_subset (netloc : Str) : (hostinfo netloc).1 ⊆ hostAndPort netloc := by
  unfold hostinfo
  rcases hcut : partition '[' (hostAndPort netloc) with ⟨before, _ | bracketed⟩
  · exact (partition_fst_spec ':' _).1.subset
  · obtain ⟨-, heq⟩ := partition_eq_some_iff.1 hcut
    dsimp only
    rw [heq]
    intro c hc
    have hmem := (partition_fst_spec ']' bracketed).1.subset hc
    exact List.mem_append_right _ (List.mem_cons_of_mem _ hmem)

/-- What is in lower case up to a zone stays. -/
theorem lowerHost_eq_self (hx : Lawful x) {host : Str}
    (h : ∀ c ∈ (partition '%' host).1, x.lower [c] = [c]) : lowerHost x host = host := by
  unfold lowerHost
  rcases hcut : partition '%' host with ⟨name, _ | zone⟩
  · obtain ⟨-, rfl⟩ := partition_eq_none_iff.1 hcut
    rw [hcut] at h
    exact hx.lower_eq_self _ h
  · obtain ⟨-, rfl⟩ := partition_eq_some_iff.1 hcut
    rw [hcut] at h
    exact congrArg (· ++ '%' :: zone) (hx.lower_eq_self _ h)

theorem lowerHost_lowered (hx : Lawful x) (host : Str) :
    ∀ c ∈ (partition '%' (lowerHost x host)).1, x.lower [c] = [c] := by
  -- lower-casing makes no percent sign
  have hpercent : ∀ name : Str, '%' ∉ name → '%' ∉ x.lower name := fun name hname hmem =>
    hname (hx.lower_delim name _ hmem (by decide))
  unfold lowerHost
  rcases hcut : partition '%' host with ⟨name, _ | zone⟩
  · obtain ⟨hmem, rfl⟩ := partition_eq_none_iff.1 hcut
    dsimp only
    rw [partition_of_not_mem (hpercent _ hmem)]
    exact hx.lower_lowered _
  · obtain ⟨hmem, rfl⟩ := partition_eq_some_iff.1 hcut
    dsimp only
    rw [partition_append (hpercent _ hmem)]
    exact hx.lower_lowered _

/-- Lower-casing makes no delimiter, and nothing that expands to one. -/
theorem mem_lowerHost (hx : Lawful x) {host : Str} (hc : c ∈ lowerHost x host) :
    (isDelim c = true → c ∈ host) ∧ (x.expands c = true → ∃ d ∈ host, x.expands d = true) := by
  unfold lowerHost at hc
  rcases hcut : partition '%' host with ⟨name, _ | zone⟩
  · obtain ⟨-, rfl⟩ := partition_eq_none_iff.1 hcut
    rw [hcut] at hc
    exact ⟨hx.lower_delim _ c hc, hx.lower_expands _ c hc⟩
  · obtain ⟨-, rfl⟩ := partition_eq_some_iff.1 hcut
    rw [hcut] at hc
    dsimp only at hc
    rcases List.mem_append.1 hc with hc | hc
    · refine ⟨fun hdelim => List.mem_append_left _ (hx.lower_delim _ c hc hdelim), fun hexp => ?_⟩
      obtain ⟨d, hd, hdexp⟩ := hx.lower_expands _ c hc hexp
      exact ⟨d, List.mem_append_left _ hd, hdexp⟩
    · exact ⟨fun _ => List.mem_append_right _ hc,
        fun hexp => ⟨c, List.mem_append_right _ hc, hexp⟩⟩

/-- What brackets may hold does not begin with a bracket. -/
theorem checkBracketedHost_head {host : Str} (h : checkBracketedHost host = true) :
    ∃ c rest, host = c :: rest ∧ c ≠ '[' := by
  rcases host with _ | ⟨c, rest⟩
  · exact absurd h (by decide)
  refine ⟨c, rest, rfl, ?_⟩
  rintro rfl
  unfold checkBracketedHost at h
  rw [if_neg (by simp)] at h
  rcases IpAddress.isIPv6_head h with hcolon | hdigit
  · exact absurd hcolon (by decide)
  · exact absurd hdigit (by decide)

end UrlParse
end ScamOn
