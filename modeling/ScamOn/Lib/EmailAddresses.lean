import Mathlib.Data.List.TakeWhile
import ScamOn.Lib.Chars
import ScamOn.Lib.Readers
import ScamOn.Lib.Text

/-!
# Lists of e-mail addresses

`email.utils.getaddresses` of a single field, with the parser `AddrlistClass` under it.

* The methods of the parser take the text from the current position on and return what they read,
  the comments they came across, and the text that is left.
* `getaddresses` is strict: a field whose parentheses are not balanced, or that has more or fewer
  addresses than commas outside of double quotes allow, gives one empty pair.
-/

namespace ScamOn.EmailAddresses

open Readers

/-! ## Characters -/

/-- `LWS`. -/
def isLws (c : Char) : Bool := c = ' ' ∨ c = '\t'

/-- `CR`. -/
def isCr (c : Char) : Bool := c = '\r' ∨ c = '\n'

/-- `FWS`. -/
def isFws (c : Char) : Bool := isLws c ∨ isCr c

def isSpecial (c : Char) : Bool := c ∈ "()<>@,:;.\"[]".toList

/-- `atomends`. -/
def isAtomEnd (c : Char) : Bool := isSpecial c ∨ isFws c

/-- `phraseends`. -/
def isPhraseEnd (c : Char) : Bool := isAtomEnd c ∧ c ≠ '.'

/-! ## The parts of an address -/

/-- `getdelimited`, without comments, behind the opening character; the flag says that a backslash
stands before. -/
def getdelimited (endchars : Str) : Bool → Str → Str × Str
  | _, [] => ([], [])
  | true, c :: s => (c :: (getdelimited endchars false s).1, (getdelimited endchars false s).2)
  | false, c :: s =>
    if c ∈ endchars then ([], s)
    else if c = '\\' then getdelimited endchars true s
    else (c :: (getdelimited endchars false s).1, (getdelimited endchars false s).2)

/-- `getquote`, behind the opening quote. -/
def getquote (s : Str) : Str × Str := getdelimited ['"', '\r'] false s

/-- `getdomainliteral`, behind the opening bracket. -/
def getdomainliteral (s : Str) : Str × Str :=
  ('[' :: (getdelimited [']', '\r'] false s).1 ++ [']'], (getdelimited [']', '\r'] false s).2)

/-- `getcomment`, behind the opening parenthesis, with so many more of them open. -/
def getcomment : ℕ → Bool → Str → Str × Str
  | _, _, [] => ([], [])
  | depth, true, c :: s => (c :: (getcomment depth false s).1, (getcomment depth false s).2)
  | depth, false, c :: s =>
    if c = ')' ∨ c = '\r' then
      match depth with
      | 0 => ([], s)
      | depth + 1 => getcomment depth false s
    else if c = '(' then getcomment (depth + 1) false s
    else if c = '\\' then getcomment depth true s
    else (c :: (getcomment depth false s).1, (getcomment depth false s).2)

/-- White space and comments. -/
structure Gap where
  comments : List Str
  ws : Str

def gotonextStep (gap : Gap) (c : Char) (s : Str) : Option (Gap × Str) :=
  if isLws c then some ({ gap with ws := gap.ws ++ [c] }, s)
  else if isCr c then some (gap, s)
  else if c = '(' then
    some ({ gap with comments := gap.comments ++ [(getcomment 0 false s).1] }, (getcomment 0 false s).2)
  else none

/-- `gotonext`. -/
def gotonext (s : Str) : Gap × Str := readWhile gotonextStep ⟨[], []⟩ s

/-- `getatom`, up to one of the given characters. -/
def getatom (ends : Char → Bool) (s : Str) : Str × Str :=
  (s.takeWhile fun c => !ends c, s.dropWhile fun c => !ends c)

/-- The words of a phrase. -/
structure Phrase where
  words : List Str
  comments : List Str

def getphraselistStep (phrase : Phrase) (c : Char) (s : Str) : Option (Phrase × Str) :=
  if isFws c then some (phrase, s)
  else if c = '"' then
    some ({ phrase with words := phrase.words ++ [(getquote s).1] }, (getquote s).2)
  else if c = '(' then
    some ({ phrase with comments := phrase.comments ++ [(getcomment 0 false s).1] }, (getcomment 0 false s).2)
  else if isPhraseEnd c then none
  else
    some ({ phrase with words := phrase.words ++ [c :: (getatom isPhraseEnd s).1] },
      (getatom isPhraseEnd s).2)

/-- `getphraselist`. -/
def getphraselist (s : Str) : Phrase × Str := readWhile getphraselistStep ⟨[], []⟩ s

/-- A part of an address. -/
structure Part where
  text : Str
  comments : List Str

def getdomainStep (domain : Part) (c : Char) (s : Str) : Option (Part × Str) :=
  if isLws c then some (domain, s)
  else if c = '(' then
    some ({ domain with comments := domain.comments ++ [(getcomment 0 false s).1] }, (getcomment 0 false s).2)
  else if c = '[' then
    some ({ domain with text := domain.text ++ (getdomainliteral s).1 }, (getdomainliteral s).2)
  else if c = '.' then some ({ domain with text := domain.text ++ ['.'] }, s)
  else if isAtomEnd c then none
  else
    some ({ domain with text := domain.text ++ c :: (getatom isAtomEnd s).1 },
      (getatom isAtomEnd s).2)

/-- `getdomain`; a second `@` spoils the domain. -/
def getdomain (s : Str) : Part × Str :=
  let r := readWhile getdomainStep ⟨[], []⟩ s
  if r.2.head? = some '@' then ({ r.1 with text := [] }, r.2) else r

/-- `quote`, of a quoted string that is written back. -/
def requote (s : Str) : Str :=
  '"' :: (s.flatMap fun c => if c = '\\' ∨ c = '"' then ['\\', c] else [c]) ++ ['"']

/-- The pieces of a local part. -/
structure Pieces where
  aslist : List Str
  comments : List Str

/-- `if aslist and not aslist[-1].strip(): aslist.pop()`. -/
def popBlank (aslist : List Str) : List Str :=
  match aslist.getLast? with
  | some last => if last.all Text.isSpace then aslist.dropLast else aslist
  | none => aslist

/-- A piece, and the white space behind it. -/
def pushPiece (pieces : Pieces) (piece : Str) (gap : Gap) : Pieces where
  aslist := pieces.aslist ++ [piece] ++ (if gap.ws = [] then [] else [gap.ws])
  comments := pieces.comments ++ gap.comments

def getaddrspecStep (pieces : Pieces) (c : Char) (s : Str) : Option (Pieces × Str) :=
  if c = '.' then
    let next := gotonext s
    some (⟨popBlank pieces.aslist ++ [['.']], pieces.comments ++ next.1.comments⟩, next.2)
  else if c = '"' then
    let next := gotonext (getquote s).2
    some (pushPiece pieces (requote (getquote s).1) next.1, next.2)
  else if isAtomEnd c then none
  else
    let next := gotonext (getatom isAtomEnd s).2
    some (pushPiece pieces (c :: (getatom isAtomEnd s).1) next.1, next.2)

/-- `getaddrspec`. -/
def getaddrspec (s : Str) : Part × Str :=
  let start := gotonext s
  let loc := readWhile getaddrspecStep ⟨[], start.1.comments⟩ start.2
  match loc.2 with
  | [] => (⟨loc.1.aslist.flatten, loc.1.comments⟩, [])
  | c :: rest =>
    if c = '@' then
      let next := gotonext rest
      let domain := getdomain next.2
      (⟨if domain.1.text = [] then []
          else (popBlank loc.1.aslist).flatten ++ '@' :: domain.1.text,
        loc.1.comments ++ next.1.comments ++ domain.1.comments⟩, domain.2)
    else (⟨(popBlank loc.1.aslist).flatten, loc.1.comments⟩, c :: rest)

/-- The loop of `getrouteaddr`; the flag says that it was left. -/
structure Route where
  adlist : Str
  comments : List Str
  left : Bool

def getrouteaddrStep (route : Route) (c : Char) (s : Str) : Option (Route × Str) :=
  if route.left then none
  else if c = '>' then some ({ route with left := true }, s)
  else if c = '@' then
    let gap := gotonext s
    let domain := getdomain gap.2
    let next := gotonext domain.2
    some ({ route with
      comments := route.comments ++ gap.1.comments ++ domain.1.comments ++ next.1.comments }, next.2)
  else if c = ':' then
    let next := gotonext s
    some ({ route with comments := route.comments ++ next.1.comments }, next.2)
  else
    let spec := getaddrspec (c :: s)
    some (⟨spec.1.text, route.comments ++ spec.1.comments, true⟩, spec.2.drop 1)

/-- `getrouteaddr`, behind the opening bracket. -/
def getrouteaddr (s : Str) : Route × Str :=
  let start := gotonext s
  readWhile getrouteaddrStep ⟨[], start.1.comments, false⟩ start.2

/-! ## Addresses -/

/-- `SPACE.join`. -/
def join (words : List Str) : Str := [' '].intercalate words

/-- The name of an address in angle brackets. -/
def routeName (words comments : List Str) : Str :=
  if comments = [] then join words else join words ++ " (".toList ++ join comments ++ [')']

/-- How `getaddress` begins: the words in front, with all comments. -/
def opening (s : Str) : Phrase × Str :=
  let start := gotonext s
  let phrase := getphraselist start.2
  let next := gotonext phrase.2
  (⟨phrase.1.words, start.1.comments ++ phrase.1.comments ++ next.1.comments⟩, next.2)

/-- A comma behind an address. -/
def skipComma (s : Str) : Str :=
  match (gotonext s).2 with
  | ',' :: rest => rest
  | rest => rest

/-- What `getaddress` reads in front of a comma, with a loop for the members of a group. -/
def readAddress (group : Str → List (Str × Str) × Str) (s : Str) : List (Str × Str) × Str :=
  let start := opening s
  let words := start.1.words
  let comments := start.1.comments
  match start.2 with
  | [] => (words.head?.toList.map fun word => (join comments, word), [])
  | c :: rest =>
    if c = '.' ∨ c = '@' then
      let spec := getaddrspec (gotonext s).2
      ([(join (comments ++ spec.1.comments), spec.1.text)], spec.2)
    else if c = ':' then group rest
    else if c = '<' then
      let route := getrouteaddr rest
      ([(routeName words (comments ++ route.1.comments), route.1.adlist)], route.2)
    else if words ≠ [] then
      (words.head?.toList.map fun word => (join comments, word), c :: rest)
    else if isSpecial c then ([], rest)
    else ([], c :: rest)

mutual

/-- `getaddress`: names and addresses, and what is left. -/
def getaddress : ℕ → Str → List (Str × Str) × Str
  | 0, s => ([], s)
  | n + 1, s => ((readAddress (getgroup n) s).1, skipComma (readAddress (getgroup n) s).2)

/-- The loop over the members of a group. -/
def getgroup : ℕ → Str → List (Str × Str) × Str
  | 0, s => ([], s)
  | n + 1, s =>
    if s = [] then ([], [])
    else
      let next := gotonext s
      if next.2.head? = some ';' then ([], next.2.tail)
      else
        let member := getaddress n next.2
        let members := getgroup n member.2
        (member.1 ++ members.1, members.2)

end

/-- More calls than this cannot be nested over a text. -/
def nesting (s : Str) : ℕ := 2 * s.length + 2

/-- `getaddrlist`, with at most so many rounds. -/
def getaddrlistUpto : ℕ → Str → List (Str × Str)
  | n + 1, c :: s =>
    let read := getaddress (nesting (c :: s)) (c :: s)
    (if read.1 = [] then [([], [])] else read.1) ++ getaddrlistUpto n read.2
  | _, _ => []

/-- `getaddrlist`. -/
def getaddrlist (s : Str) : List (Str × Str) := getaddrlistUpto s.length s

/-! ## Strict parsing -/

/-- The loop of `_strip_quoted_realnames`: what an open quote has read is dropped if it is closed.
The flag says that a backslash stands before. -/
def stripQuoted : Bool → Option Str → Str → Str
  | _, none, [] => []
  | _, some quoted, [] => quoted
  | true, none, c :: s => c :: stripQuoted false none s
  | true, some quoted, c :: s => stripQuoted false (some (quoted ++ [c])) s
  | false, none, c :: s =>
    if c = '"' then stripQuoted false (some [c]) s else c :: stripQuoted (c = '\\') none s
  | false, some quoted, c :: s =>
    if c = '"' then stripQuoted false none s
    else stripQuoted (c = '\\') (some (quoted ++ [c])) s

/-- `_strip_quoted_realnames`. -/
def stripQuotedRealnames (addr : Str) : Str := stripQuoted false none addr

/-- The loop of `_check_parenthesis`, with so many parentheses open. -/
def checkParens : Bool → ℕ → Str → Bool
  | _, opens, [] => opens = 0
  | true, opens, _ :: s => checkParens false opens s
  | false, opens, c :: s =>
    if c = '(' then checkParens false (opens + 1) s
    else if c = ')' then
      match opens with
      | 0 => false
      | opens + 1 => checkParens false opens s
    else checkParens (c = '\\') opens s

/-- `_check_parenthesis`. -/
def checkParenthesis (addr : Str) : Bool := checkParens false 0 (stripQuotedRealnames addr)

/-- `_pre_parse_validation`, of one field. -/
def preParseValidation (v : Str) : Str := if checkParenthesis v then v else "('', '')".toList

/-- `_post_parse_validation`. -/
def postParseValidation (pairs : List (Str × Str)) : List (Str × Str) :=
  pairs.map fun pair => if '[' ∈ pair.2 then ([], []) else pair

/-- `getaddresses([v])`. -/
def getaddresses (v : Str) : List (Str × Str) :=
  let v := preParseValidation v
  let result := postParseValidation (getaddrlist v)
  if result.length ≠ 1 + (stripQuotedRealnames v).count ',' then [([], [])] else result

/-! ## The loops take what they look at -/

theorem length_getdelimited (endchars : Str) (escaped : Bool) (s : Str) :
    (getdelimited endchars escaped s).2.length ≤ s.length := by
  fun_induction getdelimited endchars escaped s with
  | case1 => exact le_rfl
  | case2 c s ih => exact ih.trans (Nat.le_succ _)
  | case3 c s _ => exact Nat.le_succ _
  | case4 s _ ih => exact ih.trans (Nat.le_succ _)
  | case5 c s _ _ ih => exact ih.trans (Nat.le_succ _)

theorem length_getcomment (depth : ℕ) (escaped : Bool) (s : Str) :
    (getcomment depth escaped s).2.length ≤ s.length := by
  fun_induction getcomment depth escaped s with
  | case1 => exact le_rfl
  | case2 depth c s ih => exact ih.trans (Nat.le_succ _)
  | case3 c s _ => exact Nat.le_succ _
  | case4 c s _ depth ih => exact ih.trans (Nat.le_succ _)
  | case5 depth s _ ih => exact ih.trans (Nat.le_succ _)
  | case6 depth s _ _ ih => exact ih.trans (Nat.le_succ _)
  | case7 depth c s _ _ _ ih => exact ih.trans (Nat.le_succ _)

theorem length_getatom (ends : Char → Bool) (s : Str) : (getatom ends s).2.length ≤ s.length :=
  (List.dropWhile_suffix _).length_le

end ScamOn.EmailAddresses
