import ScamOn.Lib.Chars
import ScamOn.Lib.Text

/-!
# Regular expressions

The part of Python's `re` that the program uses, as a backtracking matcher on texts.

* `Pattern.allMatches r prev s` lists what `r` can match at the front of `s`, after the character
  `prev`, in the order in which the backtracking of `re` finds it.
* `finditer`, `search` and `sub` are `re.finditer`, `re.search` and `re.sub`; `spans` are the matches
  of `finditer` with their positions.
* `mem_spansFrom` and `pairwise_spansFrom`: the matches are where `spans` says, and apart.
* `match?_star_seq` and `match?_plus`: a run of characters of one class is taken whole if what
  follows cannot begin in it; `search_atStart_seq`: an anchor ties an expression to the start.
-/

namespace ScamOn

open Chars

/-- A regular expression. -/
inductive Pattern where
  /-- The empty text. -/
  | empty
  /-- One character of a class. -/
  | set (p : Char → Bool)
  /-- The empty text, between a character and a rest that pass a test. -/
  | look (p : Option Char → Str → Bool)
  | seq (a b : Pattern)
  | alt (a b : Pattern)
  /-- As often as possible. -/
  | star (r : Pattern)
  /-- A group with a name, or with its number for a name. -/
  | group (name : String) (r : Pattern)

namespace Pattern

/-- What was matched at the front of a text, its groups, the last one first, and what follows. -/
structure Match where
  text : Str
  groups : List (String × Str)
  rest : Str
  deriving DecidableEq

/-- Two matches, one behind the other. -/
def Match.append (m m' : Match) : Match := ⟨m.text ++ m'.text, m'.groups ++ m.groups, m'.rest⟩

/-- `m.group(name)`. -/
def Match.group (m : Match) (name : String) : Option Str := m.groups.lookup name

/-- The character before what follows a text. -/
def lastOf (prev : Option Char) (text : Str) : Option Char := text.getLast?.or prev

/-- The repetitions of a match that is not empty, the longest first. -/
def repetitions (found : Option Char → Str → List Match) : ℕ → Option Char → Str → List Match
  | 0, _, s => [⟨[], [], s⟩]
  | n + 1, prev, s =>
    ((found prev s).filter (·.text ≠ [])).flatMap
        (fun m => (repetitions found n (lastOf prev m.text) m.rest).map m.append) ++
      [⟨[], [], s⟩]

/-- What an expression can match at the front of a text, in the order of trying. -/
def allMatches : Pattern → Option Char → Str → List Match
  | empty, _, s => [⟨[], [], s⟩]
  | set _, _, [] => []
  | set p, _, c :: s => if p c then [⟨[c], [], s⟩] else []
  | look p, prev, s => if p prev s then [⟨[], [], s⟩] else []
  | seq a b, prev, s =>
    (a.allMatches prev s).flatMap fun m => (b.allMatches (lastOf prev m.text) m.rest).map m.append
  | alt a b, prev, s => a.allMatches prev s ++ b.allMatches prev s
  | star r, prev, s => repetitions r.allMatches s.length prev s
  | group name r, prev, s =>
    (r.allMatches prev s).map fun m => { m with groups := (name, m.text) :: m.groups }

/-- What an expression matches at a position. -/
def match? (r : Pattern) (prev : Option Char) (s : Str) : Option Match := (r.allMatches prev s).head?

/-- `search`, from a position on. -/
def searchFrom (r : Pattern) : Option Char → Str → Option Match
  | prev, [] => r.match? prev []
  | prev, c :: s => (r.match? prev (c :: s)).or (searchFrom r (some c) s)

/-- `r.search(s)`. -/
def search (r : Pattern) (s : Str) : Option Match := searchFrom r none s

/-- The matches from a position on, with at most so many steps. -/
def spansFrom (r : Pattern) : ℕ → ℕ → Option Char → Str → List (ℕ × Match)
  | 0, _, _, _ => []
  | n + 1, i, prev, s =>
    match r.match? prev s, s with
    | some m, [] => [(i, m)]
    | none, [] => []
    | some m, c :: s' =>
      if m.text = [] then (i, m) :: spansFrom r n (i + 1) (some c) s'
      else (i, m) :: spansFrom r n (i + m.text.length) (lastOf prev m.text) m.rest
    | none, c :: s' => spansFrom r n (i + 1) (some c) s'

/-- The matches that do not overlap, with their positions. -/
def spans (r : Pattern) (s : Str) : List (ℕ × Match) := spansFrom r (s.length + 1) 0 none s

/-- `r.finditer(s)`. -/
def finditer (r : Pattern) (s : Str) : List Match := (r.spans s).map Prod.snd

/-- What `sub` makes of the text from a position on, with at most so many steps, for an
expression that does not match the empty text. -/
def subFrom (r : Pattern) (repl : Str) : ℕ → Option Char → Str → Str
  | 0, _, s => s
  | _ + 1, _, [] => []
  | n + 1, prev, c :: s =>
    match r.match? prev (c :: s) with
    | some m =>
      if m.text = [] then c :: subFrom r repl n (some c) s
      else repl ++ subFrom r repl n (lastOf prev m.text) m.rest
    | none => c :: subFrom r repl n (some c) s

/-- `r.sub(repl, s)`. -/
def sub (r : Pattern) (repl : Str) (s : Str) : Str := subFrom r repl s.length none s

/-- `subFrom`, for a replacement that depends on the match. -/
def expandFrom (r : Pattern) (repl : Match → Str) : ℕ → Option Char → Str → Str
  | 0, _, s => s
  | _ + 1, _, [] => []
  | n + 1, prev, c :: s =>
    match r.match? prev (c :: s) with
    | some m =>
      if m.text = [] then c :: expandFrom r repl n (some c) s
      else repl m ++ expandFrom r repl n (lastOf prev m.text) m.rest
    | none => c :: expandFrom r repl n (some c) s

/-- `r.sub(template, s)`, for a template with references to groups. -/
def expand (r : Pattern) (repl : Match → Str) (s : Str) : Str := expandFrom r repl s.length none s

/-! ## Writing expressions -/

/-- `r+`. -/
def plus (r : Pattern) : Pattern := seq r (star r)

/-- `r?`. -/
def opt (r : Pattern) : Pattern := alt r empty

/-- `r{0,n}`. -/
def upTo (r : Pattern) : ℕ → Pattern
  | 0 => empty
  | n + 1 => opt (seq r (upTo r n))

/-- One expression behind another. -/
def cat (rs : List Pattern) : Pattern := rs.foldr seq empty

/-- One of several expressions. -/
def anyOf (rs : List Pattern) : Pattern := rs.foldr alt (set fun _ => false)

/-- `r{n}`. -/
def times (n : ℕ) (r : Pattern) : Pattern := cat (List.replicate n r)

/-- `r{n,}`. -/
def atLeast (n : ℕ) (r : Pattern) : Pattern := seq (times n r) (star r)

/-- A literal text. -/
def lit (s : String) : Pattern := cat (s.toList.map fun p => set (· = p))

/-- A character that `re.IGNORECASE` takes for the lower-case letter or other character `p`. -/
def foldEq (p c : Char) : Bool :=
  c.toLower = p ∨ (p = 'i' ∧ (c = '\u0130' ∨ c = '\u0131')) ∨ (p = 's' ∧ c = '\u017F') ∨
    (p = 'k' ∧ c = '\u212A')

/-- A literal text in lower case, under `re.IGNORECASE`. -/
def litFold (s : String) : Pattern := cat (s.toList.map fun p => set (foldEq p))

/-- `[a-z]` under `re.IGNORECASE`. -/
def isLetterFold (c : Char) : Bool := ('a' ≤ c ∧ c ≤ 'z') ∨ ('A' ≤ c ∧ c ≤ 'Z') ∨
  c = '\u0130' ∨ c = '\u0131' ∨ c = '\u017F' ∨ c = '\u212A'

/-- `\s`. -/
def space : Pattern := set Text.isSpace

/-- One of the characters. -/
def oneOf (cs : List Char) : Pattern := set fun c => cs.contains c

/-- `$`. -/
def atEnd : Pattern := look fun _ s => s = [] ∨ s = ['\n']

/-- `^`. -/
def atStart : Pattern := look fun prev _ => prev.isNone

/-- `(?<![…])`, with a class of characters. -/
def notAfter (p : Char → Bool) : Pattern := look fun prev _ => !prev.any p

/-- `\b`, for the characters of words. -/
def boundary (isWord : Char → Bool) : Pattern :=
  look fun prev s => prev.any isWord != s.head?.any isWord

/-! ## Where the matches are -/

theorem repetitions_text_append_rest {found : Option Char → Str → List Match}
    (hfound : ∀ prev s, ∀ m ∈ found prev s, m.text ++ m.rest = s) :
    ∀ (n : ℕ) {prev : Option Char} {s : Str} {m : Match}, m ∈ repetitions found n prev s →
      m.text ++ m.rest = s
  | 0, prev, s, m, h => by
    rw [repetitions, List.mem_singleton] at h
    subst h
    rfl
  | n + 1, prev, s, m, h => by
    rw [repetitions, List.mem_append, List.mem_singleton, List.mem_flatMap] at h
    rcases h with ⟨a, ha, hm⟩ | rfl
    · obtain ⟨b, hb, rfl⟩ := List.mem_map.1 hm
      have hrest := repetitions_text_append_rest hfound n hb
      simp only [Match.append]
      rw [List.append_assoc, hrest, hfound prev s a (List.mem_of_mem_filter ha)]
    · rfl

/-- What was matched, and what follows, are the text. -/
theorem text_append_rest {r : Pattern} {prev : Option Char} {s : Str} {m : Match}
    (h : m ∈ r.allMatches prev s) : m.text ++ m.rest = s := by
  induction r generalizing prev s m with
  | empty =>
    rw [allMatches, List.mem_singleton] at h
    subst h
    rfl
  | set p =>
    cases s with
    | nil => cases h
    | cons c s =>
      rw [allMatches] at h
      split at h
      · rw [List.mem_singleton.1 h]
        rfl
      · cases h
  | look p =>
    rw [allMatches] at h
    split at h
    · rw [List.mem_singleton.1 h]
      rfl
    · cases h
  | seq a b iha ihb =>
    rw [allMatches, List.mem_flatMap] at h
    obtain ⟨m₁, h₁, hm⟩ := h
    obtain ⟨m₂, h₂, rfl⟩ := List.mem_map.1 hm
    simp only [Match.append]
    rw [List.append_assoc, ihb h₂, iha h₁]
  | alt a b iha ihb =>
    rw [allMatches, List.mem_append] at h
    exact h.elim iha ihb
  | star r ih => exact repetitions_text_append_rest (fun prev s m hm => ih hm) _ h
  | group name r ih =>
    rw [allMatches] at h
    obtain ⟨m', h', rfl⟩ := List.mem_map.1 h
    show m'.text ++ m'.rest = s
    exact ih h'

/-- Every match stands at its position. -/
theorem mem_spansFrom {r : Pattern} {n i : ℕ} {prev : Option Char} {s : Str} {p : ℕ × Match}
    (h : p ∈ spansFrom r n i prev s) :
    ∃ front, front ++ p.2.text ++ p.2.rest = s ∧ p.1 = i + front.length := by
  induction n generalizing i prev s with
  | zero => cases h
  | succ n ih =>
    have here : ∀ m, r.match? prev s = some m → m.text ++ m.rest = s := fun m hm =>
      text_append_rest (List.mem_of_mem_head? hm)
    unfold spansFrom at h
    split at h
    · next m hm =>
      rw [List.mem_singleton.1 h]
      exact ⟨[], here m hm, rfl⟩
    · cases h
    · next m c s' hm =>
      split at h
      · rcases List.mem_cons.1 h with rfl | h
        · exact ⟨[], here m hm, rfl⟩
        · obtain ⟨front, hs, hp⟩ := ih h
          refine ⟨c :: front, by rw [← hs]; rfl, ?_⟩
          rw [hp, List.length_cons]
          omega
      · rcases List.mem_cons.1 h with rfl | h
        · exact ⟨[], here m hm, rfl⟩
        · obtain ⟨front, hs, hp⟩ := ih h
          refine ⟨m.text ++ front, ?_, ?_⟩
          · rw [← here m hm, ← hs]
            simp only [List.append_assoc]
          · rw [hp, List.length_append]
            omega
    · next c s' hm =>
      obtain ⟨front, hs, hp⟩ := ih h
      refine ⟨c :: front, by rw [← hs]; rfl, ?_⟩
      rw [hp, List.length_cons]
      omega

/-- **The matches do not overlap**: each one begins behind the ones before. -/
theorem pairwise_spansFrom (r : Pattern) (n i : ℕ) (prev : Option Char) (s : Str) :
    (spansFrom r n i prev s).Pairwise fun p q => p.1 + p.2.text.length ≤ q.1 := by
  have later : ∀ {n j prev s q}, q ∈ spansFrom r n j prev s → j ≤ q.1 := by
    intro n j prev s q hq
    obtain ⟨front, _, hq⟩ := mem_spansFrom hq
    omega
  induction n generalizing i prev s with
  | zero => exact .nil
  | succ n ih =>
    unfold spansFrom
    split
    · exact List.pairwise_singleton ..
    · exact .nil
    · next m c s' hm =>
      split
      · next hempty =>
        refine .cons (fun q hq => ?_) (ih _ _ _)
        have := later hq
        simp only [hempty, List.length_nil]
        omega
      · exact .cons (fun q hq => later hq) (ih _ _ _)
    · exact ih _ _ _

/-! ## Runs of characters -/

variable {p : Char → Bool} {prev : Option Char} {c : Char} {s : Str}

theorem allMatches_set_of_pos (hc : p c = true) :
    (set p).allMatches prev (c :: s) = [⟨[c], [], s⟩] := by
  rw [allMatches, if_pos hc]

theorem allMatches_set_of_neg (h : s.head?.any p = false) : (set p).allMatches prev s = [] := by
  cases s with
  | nil => rfl
  | cons c s =>
    rw [allMatches, if_neg (by simpa using h)]

/-- The longest run comes first, and is followed by shorter ones. -/
theorem repetitions_set (prev : Option Char) (n : ℕ) (hn : s.length ≤ n) :
    ∃ shorter, repetitions (set p).allMatches n prev s =
        ⟨s.takeWhile p, [], s.dropWhile p⟩ :: shorter ∧
      ∀ m ∈ shorter, m.rest.head?.any p = true := by
  induction n generalizing prev s with
  | zero =>
    obtain rfl := List.eq_nil_of_length_eq_zero (Nat.le_zero.1 hn)
    exact ⟨[], rfl, by simp⟩
  | succ n ih =>
    cases s with
    | nil => exact ⟨[], rfl, by simp⟩
    | cons c s =>
      by_cases hc : p c = true
      · obtain ⟨shorter, hrest, hshorter⟩ := ih (lastOf prev [c]) (s := s)
          (by simpa using hn)
        refine ⟨shorter.map (Match.append ⟨[c], [], s⟩) ++ [⟨[], [], c :: s⟩], ?_, ?_⟩
        · simp [repetitions, allMatches_set_of_pos hc, hrest, Match.append, hc]
        · intro m hm
          rcases List.mem_append.1 hm with hm | hm
          · obtain ⟨m', hm', rfl⟩ := List.mem_map.1 hm
            exact hshorter m' hm'
          · rw [List.mem_singleton.1 hm]
            simpa using hc
      · refine ⟨[], ?_, by simp⟩
        rw [repetitions, allMatches_set_of_neg (by simpa using hc)]
        simp [hc]

/-- **A run is taken whole** if the expression behind it cannot begin in it. -/
theorem match?_star_seq {b : Pattern}
    (hb : ∀ prev s, s.head?.any p = true → b.allMatches prev s = []) :
    (seq (star (set p)) b).match? prev s =
      (b.match? (lastOf prev (s.takeWhile p)) (s.dropWhile p)).map
        (Match.append ⟨s.takeWhile p, [], s.dropWhile p⟩) := by
  obtain ⟨shorter, hrest, hshorter⟩ := repetitions_set (p := p) prev s.length (Nat.le_refl _)
  have hnone : ∀ m ∈ shorter, (b.allMatches (lastOf prev m.text) m.rest).map m.append = [] := by
    intro m hm
    rw [hb _ _ (hshorter m hm), List.map_nil]
  unfold match?
  rw [allMatches, allMatches, hrest, List.flatMap_cons, List.flatMap_eq_nil_iff.2 hnone,
    List.append_nil, List.head?_map]

theorem match?_plus :
    (plus (set p)).match? prev s =
      if s.takeWhile p = [] then none else some ⟨s.takeWhile p, [], s.dropWhile p⟩ := by
  cases s with
  | nil => rfl
  | cons c s =>
    unfold plus match?
    rw [allMatches]
    by_cases hc : p c = true
    · obtain ⟨shorter, hrest, -⟩ := repetitions_set (p := p) (lastOf prev [c]) (s := s)
        s.length (Nat.le_refl _)
      simp [allMatches, hrest, Match.append, hc]
    · rw [allMatches_set_of_neg (by simpa using hc)]
      simp [hc]

/-! ## Literals -/

theorem match?_lit_of_ne {w : String} {c d : Char} {l : Str} (hw : w.toList = c :: l) (hd : d ≠ c)
    (prev : Option Char) (s : Str) : (lit w).match? prev (d :: s) = none := by
  have hset : (set (· = c)).allMatches prev (d :: s) = [] :=
    allMatches_set_of_neg (by simpa using hd)
  rw [lit, hw, List.map_cons, cat, List.foldr_cons, match?, allMatches, hset]
  rfl

/-- Where the first character of a literal does not occur, nothing is replaced. -/
theorem sub_lit_of_not_mem {w : String} {c : Char} {l : Str} (hw : w.toList = c :: l) {repl s : Str}
    (h : c ∉ s) : sub (lit w) repl s = s := by
  have hfrom : ∀ (n : ℕ) (prev : Option Char) (s : Str), c ∉ s →
      subFrom (lit w) repl n prev s = s := by
    intro n
    induction n with
    | zero => exact fun _ _ _ => rfl
    | succ n ih =>
      intro prev s h
      cases s with
      | nil => rfl
      | cons d s =>
        obtain ⟨hd, hs⟩ := not_or.1 (mt List.mem_cons.2 h)
        rw [subFrom, match?_lit_of_ne hw (Ne.symm hd), ih _ _ hs]
  exact hfrom _ _ _ h

/-! ## Groups and anchors -/

@[simp] theorem Match.append_empty (m : Match) (s : Str) : Match.append ⟨[], [], s⟩ m = m := by
  simp [Match.append]

theorem match?_group (name : String) (r : Pattern) (prev : Option Char) (s : Str) :
    (group name r).match? prev s =
      (r.match? prev s).map fun m => { m with groups := (name, m.text) :: m.groups } := by
  rw [match?, allMatches, List.head?_map, match?]

/-- **An expression with an anchor is found at the start** or not at all. -/
theorem search_atStart_seq (b : Pattern) (s : Str) :
    search (seq atStart b) s = b.match? none s := by
  have hlater : ∀ (s : Str) (c : Char), searchFrom (seq atStart b) (some c) s = none := by
    intro s
    induction s with
    | nil => exact fun c => rfl
    | cons d s ih => exact fun c => ih d
  have hsame : Match.append ⟨[], [], s⟩ = id := funext fun m => m.append_empty s
  have hfirst : (seq atStart b).match? none s = b.match? none s := by
    simp [match?, allMatches, atStart, lastOf, hsame]
  cases s with
  | nil => exact hfirst
  | cons c s =>
    rw [search, searchFrom, hfirst, hlater s c, Option.or_none]

example : (finditer (cat [notAfter isLetterFold, group "name" (anyOf [litFold "spf", litFold "arc"]),
      lit "=", group "value" (plus (set isLetterFold))]) "SPF=pass xarc=fail arc=none".toList).map
        (fun m => (m.group "name", m.group "value")) =
    [(some "SPF".toList, some "pass".toList), (some "arc".toList, some "none".toList)] := by
  decide

example : sub (cat [boundary Char.isAlphanum, lit "key", atLeast 2 (set Char.isDigit)]) "*".toList
    "key12 monkey34 key5".toList = "* monkey34 key5".toList := by
  decide

end Pattern
end ScamOn
