import ScamOn.Lib.DotSegments
import ScamOn.Analyzers.Url.Normalizer

/-!
# Dot segments in the normaliser and in RFC 3986

`_resolve_dot_segments` names RFC 3986 as what it follows.  It differs from the algorithm there in
two ways: `..` does not take an empty segment away, and a dot segment at the end leaves no empty
segment behind.

* `kept` is what the loop of the source leaves of the segments behind the first slash, as `left`
  is what the algorithm leaves.
* `kept_eq_left_iff`: the two agree as long as no empty segment is taken away.
* `kept_eq_left_concat_iff`: when one taken away makes up for the missing one at the end.
* `resolves_iff`: for which paths the source does what RFC 3986 says.
-/

namespace ScamOn.Analyzers
namespace Url

open Chars DotSegments

/-! ## The loop of the source -/

/-- The segments that the loop leaves, behind the first slash. -/
def kept (segments : List Str) : List Str := segments.foldl pushSegment []

/-- An empty segment on the stack is a floor. -/
theorem pushSegment_floor (floor stack : List Str) (s : Str) :
    pushSegment (floor ++ [] :: stack) s = floor ++ [] :: pushSegment stack s := by
  unfold pushSegment
  split_ifs with hdot hdotdot
  · rfl
  · rcases List.eq_nil_or_concat stack with rfl | ⟨front, last, rfl⟩
    · simp
    · have hsplit : floor ++ [] :: front.concat last = (floor ++ [] :: front) ++ [last] := by simp
      rw [hsplit, List.concat_eq_append, List.getLast?_concat, List.getLast?_concat]
      dsimp only
      split_ifs
      · rw [List.dropLast_concat, List.dropLast_concat]
      · simp
  · simp

theorem foldl_pushSegment_floor (floor segments stack : List Str) :
    segments.foldl pushSegment (floor ++ [] :: stack) =
      floor ++ [] :: segments.foldl pushSegment stack := by
  induction segments generalizing stack with
  | nil => rfl
  | cons s segments ih => rw [List.foldl_cons, pushSegment_floor, ih, List.foldl_cons]

/-- The path that is made of the segments that are kept. -/
def keptPath (segments : List Str) : Str :=
  slashed (if kept segments = [] then [[]] else kept segments)

theorem noDots_of_quiet {segments : List Str}
    (h : ¬"/./".toList <:+: slashed segments ∧ ¬"/../".toList <:+: slashed segments ∧
      ¬"/.".toList <:+ slashed segments ∧ ¬"/..".toList <:+ slashed segments) :
    ∀ s ∈ segments, NoDots s := by
  have hplace : ∀ d : Str, d ∈ segments → '/' :: (d ++ ['/']) <:+: slashed segments ∨
      '/' :: d <:+ slashed segments := by
    intro d hd
    obtain ⟨a, b, rfl⟩ := List.append_of_mem hd
    cases b with
    | nil => exact .inr ⟨slashed a, by simp⟩
    | cons t b => exact .inl ⟨slashed a, t ++ slashed b, by simp⟩
  intro s hs
  constructor
  · rintro rfl
    exact (hplace _ hs).elim h.1 h.2.2.1
  · rintro rfl
    exact (hplace _ hs).elim h.2.1 h.2.2.2

/-- **What the source makes of a path that begins with a slash.** -/
theorem resolveDotSegments_slash (rest : Str) :
    (resolveDotSegments ('/' :: rest)).1 = keptPath (rest.splitOn '/') := by
  have hslashed := slashed_splitOn rest
  unfold resolveDotSegments
  split_ifs with hquiet
  · -- without dot segments, everything is kept
    rw [← hslashed] at hquiet
    have hkept : kept (rest.splitOn '/') = rest.splitOn '/' := by
      rw [kept, foldl_pushSegment_of_noDots (noDots_of_quiet hquiet), List.nil_append]
    rw [keptPath, hkept, if_neg (List.splitOn_ne_nil '/' rest), hslashed]
  · have hfold : (('/' :: rest).splitOn '/').foldl pushSegment [] = [] :: kept (rest.splitOn '/') := by
      rw [List.splitOn_cons_eq_if_modifyHead, if_pos (by simp), List.foldl_cons]
      exact foldl_pushSegment_floor [] _ []
    dsimp only
    rw [hfold, keptPath]
    by_cases hempty : kept (rest.splitOn '/') = []
    · rw [hempty, if_pos rfl]
      rfl
    · have hjoin : ['/'].intercalate ([] :: kept (rest.splitOn '/')) =
          slashed (kept (rest.splitOn '/')) := by
        rw [List.intercalate_cons_of_ne_nil hempty, slashed_eq_intercalate hempty]
        rfl
      rw [hjoin, if_neg hempty, slashed_eq_intercalate hempty, if_neg (fun h => h.2 rfl)]

/-- The flag says whether the path was changed. -/
theorem resolveDotSegments_flag (path : Str) :
    (resolveDotSegments path).2 = true ↔ (resolveDotSegments path).1 ≠ path := by
  unfold resolveDotSegments
  split_ifs
  · simp
  · simp

/-! ## Empty segments -/

/-- The algorithm takes no empty segment away. -/
def KeepsEmpty (segments : List Str) : Prop := (left segments).count [] = segments.count []

theorem count_cons_nil (s : Str) (segments : List Str) :
    (s :: segments).count [] = [s].count [] + segments.count [] := by
  rw [← List.count_append]
  rfl

theorem count_dropLast_le (stack : List Str) : stack.dropLast.count [] ≤ stack.count [] :=
  (List.dropLast_sublist stack).count_le []

theorem count_popSegment_le (stack : List Str) (s : Str) :
    (popSegment stack s).count [] ≤ stack.count [] + [s].count [] := by
  unfold popSegment
  split_ifs
  · omega
  · have := count_dropLast_le stack
    omega
  · rw [List.count_append]

theorem count_foldl_popSegment_le (segments stack : List Str) :
    (segments.foldl popSegment stack).count [] ≤ stack.count [] + segments.count [] := by
  induction segments generalizing stack with
  | nil => simp
  | cons s segments ih =>
    have hstep := count_popSegment_le stack s
    have hrest := ih (popSegment stack s)
    have hcons := count_cons_nil s segments
    rw [List.foldl_cons]
    omega

/-- The source takes no empty segment away. -/
theorem count_pushSegment (stack : List Str) (s : Str) :
    (pushSegment stack s).count [] = stack.count [] + [s].count [] := by
  unfold pushSegment
  split_ifs with hdot hdotdot
  · subst hdot
    rfl
  · subst hdotdot
    rcases List.eq_nil_or_concat stack with rfl | ⟨front, last, rfl⟩
    · rfl
    · rw [List.concat_eq_append, List.getLast?_concat]
      dsimp only
      split_ifs with hlast
      · rw [List.dropLast_concat, List.count_append, List.count_singleton]
        simp [hlast]
      · simp
  · rw [List.count_append]

theorem count_foldl_pushSegment (segments stack : List Str) :
    (segments.foldl pushSegment stack).count [] = stack.count [] + segments.count [] := by
  induction segments generalizing stack with
  | nil => simp
  | cons s segments ih =>
    have hcons := count_cons_nil s segments
    rw [List.foldl_cons, ih, count_pushSegment]
    omega

/-- On a segment that takes no empty one away, the two do the same. -/
theorem pushSegment_eq_popSegment {stack : List Str} {s : Str}
    (h : stack.count [] ≤ (popSegment stack s).count []) :
    pushSegment stack s = popSegment stack s := by
  unfold pushSegment popSegment at *
  split_ifs at * with hdot hdotdot
  · rfl
  · rcases List.eq_nil_or_concat stack with rfl | ⟨front, last, rfl⟩
    · rfl
    · rw [List.concat_eq_append] at h ⊢
      rw [List.getLast?_concat]
      dsimp only
      split_ifs with hlast
      · rfl
      · rw [not_not] at hlast
        subst hlast
        rw [List.dropLast_concat, List.count_append] at h
        simp at h
  · rfl

/-- **As long as no empty segment is taken away, the two agree.** -/
theorem foldl_pushSegment_eq_popSegment {segments stack : List Str}
    (h : (segments.foldl popSegment stack).count [] = stack.count [] + segments.count []) :
    segments.foldl pushSegment stack = segments.foldl popSegment stack := by
  induction segments generalizing stack with
  | nil => rfl
  | cons s segments ih =>
    have hstep := count_popSegment_le stack s
    have hrest := count_foldl_popSegment_le segments (popSegment stack s)
    have hcons := count_cons_nil s segments
    rw [List.foldl_cons] at h
    rw [List.foldl_cons, List.foldl_cons, pushSegment_eq_popSegment (by omega), ih (by omega)]

theorem kept_eq_left_iff (segments : List Str) : kept segments = left segments ↔ KeepsEmpty segments := by
  constructor
  · intro h
    rw [KeepsEmpty, ← h, kept, count_foldl_pushSegment]
    simp
  · intro h
    exact foldl_pushSegment_eq_popSegment (by simpa [KeepsEmpty, left] using h)

/-- Only `..` takes an empty segment away, and only from the top. -/
theorem removal_of_count_lt {stack : List Str} {s : Str}
    (h : (popSegment stack s).count [] < stack.count [] + [s].count []) :
    s = ['.', '.'] ∧ stack.getLast? = some [] := by
  unfold popSegment at h
  split_ifs at h with hdot hdotdot
  · subst hdot
    exact absurd h (Nat.lt_irrefl _)
  · subst hdotdot
    refine ⟨rfl, ?_⟩
    rcases List.eq_nil_or_concat stack with rfl | ⟨front, last, rfl⟩
    · exact absurd h (Nat.lt_irrefl _)
    · rw [List.concat_eq_append] at h ⊢
      rw [List.dropLast_concat, List.count_append] at h
      rw [List.getLast?_concat]
      by_contra hlast
      have hne : last ≠ [] := fun heq => hlast (by rw [heq])
      simp [hne] at h
  · rw [List.count_append] at h
    exact absurd h (Nat.lt_irrefl _)

/-- Where an empty segment is taken away, there is a first one. -/
theorem exists_first_removal {segments stack : List Str}
    (h : (segments.foldl popSegment stack).count [] < stack.count [] + segments.count []) :
    ∃ p c, segments = p ++ ['.', '.'] :: c ∧
      (p.foldl popSegment stack).count [] = stack.count [] + p.count [] ∧
      (p.foldl popSegment stack).getLast? = some [] := by
  induction segments generalizing stack with
  | nil => exact absurd h (by simp)
  | cons s segments ih =>
    by_cases hremoval : (popSegment stack s).count [] < stack.count [] + [s].count []
    · obtain ⟨rfl, hlast⟩ := removal_of_count_lt hremoval
      exact ⟨[], segments, rfl, by simp, hlast⟩
    · have hstep := count_popSegment_le stack s
      rw [List.foldl_cons, count_cons_nil] at h
      have hlt : (segments.foldl popSegment (popSegment stack s)).count [] <
          (popSegment stack s).count [] + segments.count [] := by omega
      obtain ⟨p, c, rfl, hcount, hlast⟩ := ih hlt
      refine ⟨s :: p, c, rfl, ?_, hlast⟩
      rw [List.foldl_cons, hcount, count_cons_nil]
      omega

/-! ## The end of the path -/

/-- **One empty segment makes up for another.**  A first `..` takes an empty segment away; of what
follows it only empty segments are left, and it takes nothing more off, unless nothing is there. -/
def OneRemoved (segments : List Str) : Prop :=
  ∃ p c, segments = p ++ ['.', '.'] :: c ∧ KeepsEmpty p ∧ (left p).getLast? = some [] ∧
    left c = List.replicate (c.count []) [] ∧ (unmatched c = 0 ∨ left p = [[]])

theorem eq_replicate_of_cons_eq_concat {α : Type*} {a : α} {l : List α} (h : a :: l = l ++ [a]) :
    l = List.replicate l.length a := by
  induction l with
  | nil => rfl
  | cons b l ih =>
    rw [List.cons_append, List.cons.injEq] at h
    obtain ⟨rfl, h⟩ := h
    rw [List.length_cons, List.replicate_succ, ← ih h]

/-- What the two leave, if the first empty segment is taken away by the `..` behind `p`. -/
theorem left_and_kept_of_removal {p c : List Str} (hp : KeepsEmpty p)
    (hlast : (left p).getLast? = some []) :
    ∃ front, left p = front ++ [[]] ∧
      left (p ++ ['.', '.'] :: c) = front.rdrop (unmatched c) ++ left c ∧
      kept (p ++ ['.', '.'] :: c) = front ++ [] :: kept c := by
  obtain ⟨front, hfront⟩ := List.getLast?_eq_some_iff.1 hlast
  refine ⟨front, hfront, ?_, ?_⟩
  · have hpop : popSegment (left p) ['.', '.'] = front := by
      rw [hfront]
      exact List.dropLast_concat
    rw [left, List.foldl_append, List.foldl_cons, ← left, hpop, foldl_popSegment]
  · have hkeep : kept p = front ++ [[]] := ((kept_eq_left_iff p).2 hp).trans hfront
    rw [kept, List.foldl_append, ← kept, hkeep, foldl_pushSegment_floor]
    rfl

theorem kept_eq_left_of_replicate {c : List Str}
    (h : left c = List.replicate (c.count []) []) : kept c = left c := by
  refine (kept_eq_left_iff c).2 ?_
  rw [KeepsEmpty, h, List.count_replicate_self]

theorem kept_eq_left_concat_iff (segments : List Str) :
    kept segments = left segments ++ [[]] ↔ OneRemoved segments := by
  constructor
  · intro h
    have hkept := count_foldl_pushSegment segments []
    rw [← kept, h, List.count_append] at hkept
    have hlt : (segments.foldl popSegment []).count [] <
        ([] : List Str).count [] + segments.count [] := by
      rw [← left, ← hkept]
      simp
    obtain ⟨p, c, rfl, hp, hlast⟩ := exists_first_removal hlt
    have hp : KeepsEmpty p := by simpa [KeepsEmpty, left] using hp
    obtain ⟨front, hfront, hleft, hkept⟩ := left_and_kept_of_removal (c := c) hp hlast
    rw [hleft, hkept] at h
    have hc : KeepsEmpty c := by
      have hcount := congrArg (List.count []) h
      have hle := count_foldl_popSegment_le c []
      have hrdrop : (front.rdrop (unmatched c)).count [] ≤ front.count [] :=
        (List.take_sublist _ front).count_le []
      have hcounted := count_foldl_pushSegment c []
      rw [← kept] at hcounted
      rw [← left] at hle
      simp only [List.count_append, List.count_cons_self, List.count_nil] at hcount hle hcounted
      rw [KeepsEmpty]
      omega
    rw [(kept_eq_left_iff c).2 hc] at h
    have hlength := congrArg List.length h
    simp only [List.length_append, List.length_cons, List.length_nil, List.rdrop,
      List.length_take] at hlength
    have hend : unmatched c = 0 ∨ front = [] := by
      rcases Nat.eq_zero_or_pos (unmatched c) with hzero | hpos
      · exact .inl hzero
      · exact .inr (List.length_eq_zero_iff.1 (by omega))
    have hwhole : front.rdrop (unmatched c) = front := by
      rcases hend with hzero | rfl
      · rw [hzero, List.rdrop_zero]
      · exact List.rdrop_nil _
    rw [hwhole, List.append_assoc] at h
    have hempty := eq_replicate_of_cons_eq_concat (List.append_cancel_left h)
    have hlen : (left c).length = c.count [] := by
      rw [← hc, hempty, List.count_replicate_self, List.length_replicate]
    rw [hlen] at hempty
    refine ⟨p, c, rfl, hp, hlast, hempty, hend.imp id fun hnil => ?_⟩
    rw [hfront, hnil, List.nil_append]
  · rintro ⟨p, c, rfl, hp, hlast, hempty, hend⟩
    obtain ⟨front, hfront, hleft, hkept⟩ := left_and_kept_of_removal (c := c) hp hlast
    have hwhole : front.rdrop (unmatched c) = front := by
      rcases hend with hzero | hone
      · rw [hzero, List.rdrop_zero]
      · have hnil : front = [] := by
          rw [hfront] at hone
          simpa using hone
        rw [hnil, List.rdrop_nil]
    rw [hleft, hkept, hwhole, kept_eq_left_of_replicate hempty, hempty, List.append_assoc,
      ← List.replicate_succ, List.replicate_succ']

/-! ## The whole path -/

/-- **Where the source follows RFC 3986.**  A path that does not end with a dot segment takes no
empty segment away; one that does has nothing left and no empty segment, or one that is taken away
makes up for the one that is missing. -/
def FollowsRfc (segments : List Str) : Prop :=
  if segments.getLast?.any isDotSegment then
    (left segments = [] ∧ [] ∉ segments) ∨ OneRemoved segments
  else KeepsEmpty segments

theorem mem_left {segments : List Str} {s : Str} :
    ∀ {stack : List Str}, s ∈ segments.foldl popSegment stack → s ∈ stack ∨ s ∈ segments := by
  induction segments with
  | nil => exact fun h => .inl h
  | cons t segments ih =>
    intro stack h
    rcases ih h with h | h
    · unfold popSegment at h
      split_ifs at h
      · exact .inl h
      · exact .inl ((List.dropLast_sublist stack).subset h)
      · rcases List.mem_append.1 h with h | h
        · exact .inl h
        · rw [List.mem_singleton.1 h]
          exact .inr (List.mem_cons_self ..)
    · exact .inr (List.mem_cons_of_mem _ h)

theorem kept_eq_nil_iff (segments : List Str) :
    kept segments = [] ↔ left segments = [] ∧ [] ∉ segments := by
  have hle := count_foldl_popSegment_le segments []
  rw [← left] at hle
  constructor
  · intro h
    have hcount := count_foldl_pushSegment segments []
    rw [← kept, h] at hcount
    have hzero : segments.count [] = 0 := by simpa using hcount.symm
    have hkeeps : KeepsEmpty segments := by
      rw [KeepsEmpty]
      simp only [List.count_nil] at hle
      omega
    exact ⟨((kept_eq_left_iff segments).2 hkeeps).symm.trans h, List.count_eq_zero.1 hzero⟩
  · rintro ⟨hleft, hmem⟩
    have hkeeps : KeepsEmpty segments := by
      rw [KeepsEmpty, hleft, List.count_eq_zero.2 hmem, List.count_nil]
    rw [(kept_eq_left_iff segments).2 hkeeps, hleft]

/-- A last segment that is no dot segment is left. -/
theorem left_ne_nil {segments : List Str} (hne : segments ≠ [])
    (hlast : segments.getLast?.any isDotSegment = false) : left segments ≠ [] := by
  rcases List.eq_nil_or_concat segments with rfl | ⟨front, s, rfl⟩
  · exact absurd rfl hne
  · rw [List.concat_eq_append] at hlast ⊢
    have hplain : s ≠ ['.'] ∧ s ≠ ['.', '.'] := by simpa [isDotSegment] using hlast
    rw [left_concat, popSegment, if_neg hplain.1, if_neg hplain.2]
    simp

theorem keptPath_eq_iff {segments : List Str} (h : ∀ s ∈ segments, '/' ∉ s) (hne : segments ≠ []) :
    keptPath segments = removeDotSegments (slashed segments) ↔ FollowsRfc segments := by
  have hkept : ∀ s ∈ (if kept segments = [] then [[]] else kept segments), '/' ∉ s := by
    intro s hs
    split at hs
    · rw [List.mem_singleton.1 hs]
      exact List.not_mem_nil
    · rcases mem_foldl_pushSegment hs with hnil | ⟨hmem, _⟩
      · exact absurd hnil List.not_mem_nil
      · exact h s hmem
  have hleft : ∀ s ∈ left segments ++ trailing segments, '/' ∉ s := by
    intro s hs
    rcases List.mem_append.1 hs with hs | hs
    · rcases mem_left hs with hnil | hmem
      · exact absurd hnil List.not_mem_nil
      · exact h s hmem
    · unfold trailing at hs
      split at hs
      · rw [List.mem_singleton.1 hs]
        exact List.not_mem_nil
      · exact absurd hs List.not_mem_nil
  have hsegments : keptPath segments = removeDotSegments (slashed segments) ↔
      (if kept segments = [] then [[]] else kept segments) = left segments ++ trailing segments := by
    rw [removeDotSegments_slashed h, keptPath]
    exact ⟨slashed_injective hkept hleft, fun heq => by rw [heq]⟩
  rw [hsegments, FollowsRfc, trailing]
  by_cases hlast : segments.getLast?.any isDotSegment = true
  · rw [if_pos hlast, if_pos hlast, ← kept_eq_nil_iff]
    by_cases hnil : kept segments = []
    · rw [if_pos hnil, ((kept_eq_nil_iff segments).1 hnil).1]
      exact ⟨fun _ => .inl hnil, fun _ => rfl⟩
    · rw [if_neg hnil, kept_eq_left_concat_iff]
      exact ⟨.inr, fun h => h.resolve_left hnil⟩
  · have hnil : kept segments ≠ [] := fun hnil =>
      left_ne_nil hne (by simpa using hlast) ((kept_eq_nil_iff segments).1 hnil).1
    rw [if_neg hlast, if_neg hlast, if_neg hnil, List.append_nil, kept_eq_left_iff]

/-- **When `_resolve_dot_segments` removes dot segments as RFC 3986 does**, for every path that
begins with a slash; the flag says in any case whether the path was changed. -/
theorem resolves_iff (rest : Str) :
    ((resolveDotSegments ('/' :: rest)).1 = removeDotSegments ('/' :: rest) ∧
        ((resolveDotSegments ('/' :: rest)).2 = true ↔
          (resolveDotSegments ('/' :: rest)).1 ≠ '/' :: rest)) ↔
      FollowsRfc (rest.splitOn '/') := by
  rw [and_iff_left (resolveDotSegments_flag _), resolveDotSegments_slash,
    ← keptPath_eq_iff (fun s hs => not_mem_of_mem_splitOn hs) (List.splitOn_ne_nil '/' rest),
    slashed_splitOn]

/-- **A dot segment at the end**: the source drops the slash that RFC 3986 leaves. -/
theorem trailing_dot_differs :
    resolveDotSegments "/a/b/.".toList = ("/a/b".toList, true) ∧
      removeDotSegments "/a/b/.".toList = "/a/b/".toList ∧
      (resolveDotSegments "/a/b/.".toList).1 ≠ removeDotSegments "/a/b/.".toList := by
  decide

end Url
end ScamOn.Analyzers
