import Mathlib.Data.List.DropRight
import Mathlib.Data.List.Induction
import ScamOn.Lib.Chars

/-!
# Removing dot segments

The algorithm of RFC 3986, section 5.2.4, with its two buffers, and what it does to the segments
of a path that begins with a slash.

* `removeDotSegments` moves the input to the output, by the rules A to E.
* `popSegment` is the effect of one segment on the stack of those before it, `left` is what a list
  of segments leaves.
* `removeDotSegments_slashed`: on `/s₁/s₂/…` the algorithm is a run of this stack, with an empty
  segment at the end if the last one is a dot segment.
* `foldl_popSegment`: what a list of segments does to a stack: it takes so many off it, and puts
  some on it.
-/

namespace ScamOn.DotSegments

open Chars

/-! ## The algorithm -/

/-- The output without its last segment and the slash before it. -/
def dropLastSegment (output : Str) : Str := (rpartition '/' output).1.getD []

/-- One turn of the loop, on an input that is not empty. -/
def step (input output : Str) : Str × Str :=
  -- rule A
  if "../".toList.isPrefixOf input then (input.drop 3, output)
  else if "./".toList.isPrefixOf input then (input.drop 2, output)
  -- rule B
  else if "/./".toList.isPrefixOf input then (input.drop 2, output)
  else if input = "/.".toList then (['/'], output)
  -- rule C
  else if "/../".toList.isPrefixOf input then (input.drop 3, dropLastSegment output)
  else if input = "/..".toList then (['/'], dropLastSegment output)
  -- rule D
  else if input = ".".toList ∨ input = "..".toList then ([], output)
  -- rule E: the first segment, with the slash before it
  else
    let segment := input.take 1 ++ (input.drop 1).takeWhile (· ≠ '/')
    (input.drop segment.length, output ++ segment)

/-- The loop, with at most so many turns. -/
def run : ℕ → Str → Str → Str
  | 0, _, output => output
  | n + 1, input, output =>
    if input = [] then output else run n (step input output).1 (step input output).2

/-- `remove_dot_segments`: every turn shortens the input. -/
def removeDotSegments (path : Str) : Str := run path.length path []

example : removeDotSegments "/a/b/c/./../../g".toList = "/a/g".toList := by decide

/-! ## Segments -/

/-- `.` or `..`. -/
def isDotSegment (s : Str) : Bool := s = ['.'] ∨ s = ['.', '.']

/-- What a segment does to the stack of those before it. -/
def popSegment (stack : List Str) (s : Str) : List Str :=
  if s = ['.'] then stack else if s = ['.', '.'] then stack.dropLast else stack ++ [s]

/-- The segments that are left of a list. -/
def left (segments : List Str) : List Str := segments.foldl popSegment []

/-- The empty segment that a dot segment at the end leaves behind. -/
def trailing (segments : List Str) : List Str :=
  if segments.getLast?.any isDotSegment then [[]] else []

/-- The segments, each one with a slash before it. -/
def slashed (segments : List Str) : Str := segments.flatMap ('/' :: ·)

@[simp] theorem slashed_nil : slashed [] = [] := rfl

@[simp] theorem slashed_cons (s : Str) (segments : List Str) :
    slashed (s :: segments) = '/' :: (s ++ slashed segments) := rfl

@[simp] theorem slashed_append (a b : List Str) : slashed (a ++ b) = slashed a ++ slashed b :=
  List.flatMap_append

theorem dropLastSegment_slashed {stack : List Str} (h : ∀ s ∈ stack, '/' ∉ s) :
    dropLastSegment (slashed stack) = slashed stack.dropLast := by
  rcases List.eq_nil_or_concat stack with rfl | ⟨front, s, rfl⟩
  · rfl
  · have hs : '/' ∉ s := h s (by simp)
    have hpart : rpartition '/' (slashed front ++ '/' :: s) = (some (slashed front), s) :=
      rpartition_eq_some_iff.2 ⟨hs, rfl⟩
    rw [dropLastSegment, List.concat_eq_append, List.dropLast_concat, slashed_append, slashed_cons,
      slashed_nil, List.append_nil, hpart]
    rfl

theorem takeWhile_slashed {s : Str} (hs : '/' ∉ s) (segments : List Str) :
    (s ++ slashed segments).takeWhile (· ≠ '/') = s := by
  have hall : ∀ c ∈ s, decide (c ≠ '/') = true := fun c hc => by
    simpa using ne_of_mem_of_not_mem hc hs
  rw [List.takeWhile_append_of_pos hall]
  cases segments <;> simp

/-- The segments can be read back from the path. -/
theorem slashed_injective {a b : List Str} (ha : ∀ s ∈ a, '/' ∉ s) (hb : ∀ s ∈ b, '/' ∉ s)
    (h : slashed a = slashed b) : a = b := by
  induction a generalizing b with
  | nil =>
    cases b with
    | nil => rfl
    | cons t b => cases h
  | cons s a ih =>
    cases b with
    | nil => cases h
    | cons t b =>
      rw [slashed_cons, slashed_cons, List.cons.injEq] at h
      have hhead : s = t := by
        rw [← takeWhile_slashed (ha s (List.mem_cons_self ..)) a, h.2,
          takeWhile_slashed (hb t (List.mem_cons_self ..)) b]
      subst hhead
      rw [ih (fun r hr => ha r (List.mem_cons_of_mem _ hr))
        (fun r hr => hb r (List.mem_cons_of_mem _ hr)) (List.append_cancel_left h.2)]

theorem slashed_eq_intercalate {segments : List Str} (hne : segments ≠ []) :
    slashed segments = '/' :: ['/'].intercalate segments := by
  induction segments with
  | nil => exact absurd rfl hne
  | cons t segments ih =>
    cases segments with
    | nil => simp
    | cons u segments =>
      rw [slashed_cons, ih (by simp), List.intercalate_cons_cons, List.append_assoc]
      rfl

/-- The segments of a text, each one with a slash before it, are the text behind a slash. -/
theorem slashed_splitOn (s : Str) : slashed (s.splitOn '/') = '/' :: s := by
  rw [slashed_eq_intercalate (List.splitOn_ne_nil '/' s), List.intercalate_splitOn]

/-- A dot segment and what follows it are taken off the input. -/
theorem step_dot (segments : List Str) (output : Str) :
    step (slashed (['.'] :: segments)) output =
      (slashed (if segments = [] then [[]] else segments), output) := by
  cases segments with
  | nil => rfl
  | cons t segments => rfl

theorem step_dotdot (segments : List Str) (output : Str) :
    step (slashed (['.', '.'] :: segments)) output =
      (slashed (if segments = [] then [[]] else segments), dropLastSegment output) := by
  cases segments with
  | nil => rfl
  | cons t segments => rfl

/-- Any other segment goes to the output. -/
theorem step_segment {s : Str} (hs : '/' ∉ s) (hdot : isDotSegment s = false)
    (segments : List Str) (output : Str) :
    step (slashed (s :: segments)) output = (slashed segments, output ++ '/' :: s) := by
  have htake := takeWhile_slashed hs segments
  -- a rule for dot segments would read `s` as one
  have hread : ∀ d rest, isDotSegment d = true → '/' ∉ d →
      (rest = [] ∨ rest.head? = some '/') → s ++ slashed segments ≠ d ++ rest := by
    intro d rest hd hplain hrest heq
    have hdall : ∀ c ∈ d, decide (c ≠ '/') = true := fun c hc => by
      simpa using ne_of_mem_of_not_mem hc hplain
    have hstop : rest.takeWhile (· ≠ '/') = [] := by
      rcases hrest with rfl | hrest
      · rfl
      · obtain ⟨more, rfl⟩ := List.head?_eq_some_iff.1 hrest
        rfl
    rw [heq, List.takeWhile_append_of_pos hdall, hstop, List.append_nil] at htake
    rw [htake, hdot] at hd
    cases hd
  have hprefix : ∀ d, isDotSegment d = true → '/' ∉ d →
      ¬('/' :: (d ++ ['/'])).isPrefixOf (slashed (s :: segments)) = true := by
    intro d hd hplain hpre
    obtain ⟨rest, hrest⟩ := List.isPrefixOf_iff_prefix.1 hpre
    refine hread d ('/' :: rest) hd hplain (.inr rfl) ?_
    rw [slashed_cons] at hrest
    simpa using hrest.symm
  have hwhole : ∀ d, isDotSegment d = true → '/' ∉ d →
      slashed (s :: segments) ≠ '/' :: d := by
    intro d hd hplain heq
    rw [slashed_cons] at heq
    exact hread d [] hd hplain (.inl rfl) (by simpa using heq)
  have hdrop : (s ++ slashed segments).drop s.length = slashed segments := List.drop_left
  have hdotRule : ¬"/./".toList.isPrefixOf (slashed (s :: segments)) = true :=
    hprefix ['.'] rfl (by decide)
  have hdotEnd : slashed (s :: segments) ≠ "/.".toList := hwhole ['.'] rfl (by decide)
  have hupRule : ¬"/../".toList.isPrefixOf (slashed (s :: segments)) = true :=
    hprefix ['.', '.'] rfl (by decide)
  have hupEnd : slashed (s :: segments) ≠ "/..".toList := hwhole ['.', '.'] rfl (by decide)
  unfold step
  rw [if_neg (by simp), if_neg (by simp), if_neg hdotRule, if_neg hdotEnd, if_neg hupRule,
    if_neg hupEnd, if_neg (by simp)]
  simp only [slashed_cons, List.take_succ_cons, List.take_zero, List.drop_succ_cons, List.drop_zero,
    htake, List.singleton_append, List.length_cons, hdrop]

theorem run_nil (n : ℕ) (output : Str) : run n [] output = output := by
  cases n <;> simp [run]

theorem length_slashed_cons (s : Str) (segments : List Str) :
    (slashed (s :: segments)).length = s.length + 1 + (slashed segments).length := by
  rw [slashed_cons, List.length_cons, List.length_append]
  omega

/-- The empty segment that a dot segment at the end leaves goes to the output as well. -/
theorem run_trailing {n : ℕ} (hn : 1 ≤ n) (stack : List Str) :
    run n (slashed [[]]) (slashed stack) = slashed (stack ++ [[]]) := by
  obtain ⟨m, rfl⟩ : ∃ m, n = m + 1 := ⟨n - 1, by omega⟩
  rw [run, if_neg (by simp), step_segment (by simp) rfl, slashed_nil, run_nil, slashed_append]
  rfl

/-- **The algorithm is a run of the stack**, with an empty segment at the end if the last segment is
a dot segment. -/
theorem run_slashed {segments : List Str} (hsegments : ∀ s ∈ segments, '/' ∉ s) :
    ∀ {n : ℕ} {stack : List Str}, (slashed segments).length ≤ n → (∀ s ∈ stack, '/' ∉ s) →
      run n (slashed segments) (slashed stack) =
        slashed (segments.foldl popSegment stack ++ trailing segments) := by
  induction segments with
  | nil =>
    intro n stack _ _
    rw [slashed_nil, run_nil, List.foldl_nil]
    simp [trailing]
  | cons s segments ih =>
    intro n stack hn hstack
    rw [length_slashed_cons] at hn
    have hs : '/' ∉ s := hsegments s (List.mem_cons_self ..)
    have hrest : ∀ t ∈ segments, '/' ∉ t := fun t ht => hsegments t (List.mem_cons_of_mem _ ht)
    obtain ⟨m, rfl⟩ : ∃ m, n = m + 1 := ⟨n - 1, by omega⟩
    have hstep : ∀ stack' : List Str, (∀ t ∈ stack', '/' ∉ t) → segments ≠ [] →
        run m (slashed segments) (slashed stack') =
          slashed (segments.foldl popSegment stack' ++ trailing (s :: segments)) := by
      intro stack' hstack' hne
      rw [ih hrest (by omega) hstack', trailing, trailing, List.getLast?_cons_of_ne_nil hne]
    -- a dot segment changes the stack, and leaves an empty segment if it is the last one
    have hafter : ∀ stack', (∀ t ∈ stack', '/' ∉ t) → isDotSegment s = true → 1 ≤ m →
        run m (slashed (if segments = [] then [[]] else segments)) (slashed stack') =
          slashed (segments.foldl popSegment stack' ++ trailing (s :: segments)) := by
      intro stack' hstack' hdot hm
      split
      · next hnil =>
        subst hnil
        rw [run_trailing hm, List.foldl_nil, trailing]
        simp [hdot]
      · next hne => exact hstep stack' hstack' hne
    rw [run, if_neg (by simp), List.foldl_cons]
    by_cases hdot : s = ['.']
    · subst hdot
      rw [step_dot]
      exact hafter stack hstack rfl (by simp at hn; omega)
    by_cases hdotdot : s = ['.', '.']
    · subst hdotdot
      rw [step_dotdot, dropLastSegment_slashed hstack]
      exact hafter _ (fun t ht => hstack t ((List.dropLast_sublist stack).subset ht)) rfl (by simp at hn; omega)
    · have hplain : isDotSegment s = false := by simp [isDotSegment, hdot, hdotdot]
      have hpush : popSegment stack s = stack ++ [s] := by
        rw [popSegment, if_neg hdot, if_neg hdotdot]
      have hstack' : ∀ t ∈ stack ++ [s], '/' ∉ t := by
        intro t ht
        rcases List.mem_append.1 ht with ht | ht
        · exact hstack t ht
        · rw [List.mem_singleton.1 ht]
          exact hs
      rw [step_segment hs hplain, hpush]
      have houtput : slashed stack ++ '/' :: s = slashed (stack ++ [s]) := by simp
      simp only [houtput]
      by_cases hne : segments = []
      · subst hne
        rw [slashed_nil, run_nil, List.foldl_nil, trailing]
        simp [hplain]
      · exact hstep _ hstack' hne

/-- **What the algorithm makes of a path that begins with a slash.** -/
theorem removeDotSegments_slashed {segments : List Str} (h : ∀ s ∈ segments, '/' ∉ s) :
    removeDotSegments (slashed segments) = slashed (left segments ++ trailing segments) := by
  have hrun := run_slashed h (Nat.le_refl _) (fun s hs => absurd hs List.not_mem_nil)
  rw [slashed_nil] at hrun
  exact hrun

/-! ## What is taken off a stack -/

/-- A turn that also counts the `..` that find nothing to take off. -/
def countSegment (acc : ℕ × List Str) (s : Str) : ℕ × List Str :=
  if s = ['.', '.'] ∧ acc.2 = [] then (acc.1 + 1, []) else (acc.1, popSegment acc.2 s)

/-- How many segments before them a list of segments takes off. -/
def unmatched (segments : List Str) : ℕ := (segments.foldl countSegment (0, [])).1

theorem foldl_countSegment_snd (segments : List Str) (n : ℕ) (stack : List Str) :
    (segments.foldl countSegment (n, stack)).2 = segments.foldl popSegment stack := by
  induction segments generalizing n stack with
  | nil => rfl
  | cons s segments ih =>
    rw [List.foldl_cons, List.foldl_cons, countSegment]
    split
    · next h =>
      obtain ⟨rfl, hnil⟩ := h
      simp only at hnil
      rw [ih, hnil]
      rfl
    · exact ih _ _

theorem left_concat (segments : List Str) (s : Str) :
    left (segments ++ [s]) = popSegment (left segments) s := by
  rw [left, List.foldl_append]
  rfl

theorem unmatched_concat (segments : List Str) (s : Str) :
    unmatched (segments ++ [s]) =
      if s = ['.', '.'] ∧ left segments = [] then unmatched segments + 1 else unmatched segments := by
  have hsnd := foldl_countSegment_snd segments 0 []
  rw [unmatched, List.foldl_append, List.foldl_cons, List.foldl_nil, countSegment, hsnd, left]
  split <;> rfl

theorem dropLast_rdrop {α : Type*} (l : List α) (n : ℕ) :
    (l.rdrop n).dropLast = l.rdrop (n + 1) := by
  rw [List.rdrop, List.rdrop, List.dropLast_eq_take, List.take_take, List.length_take]
  congr 1
  omega

/-- **What a list of segments does to a stack**: it takes the unmatched segments off, and puts on
what it leaves. -/
theorem foldl_popSegment (segments stack : List Str) :
    segments.foldl popSegment stack = stack.rdrop (unmatched segments) ++ left segments := by
  induction segments using List.reverseRecOn with
  | nil =>
    rw [List.foldl_nil, show unmatched [] = 0 from rfl, show left [] = [] from rfl, List.rdrop_zero,
      List.append_nil]
  | append_singleton segments s ih =>
    rw [List.foldl_append, List.foldl_cons, List.foldl_nil, ih, left_concat, unmatched_concat]
    by_cases hdot : s = ['.']
    · subst hdot
      rfl
    by_cases hdotdot : s = ['.', '.']
    · subst hdotdot
      by_cases hleft : left segments = []
      · rw [if_pos ⟨rfl, hleft⟩, hleft, List.append_nil, popSegment, if_neg hdot, if_pos rfl]
        exact (dropLast_rdrop _ _).trans (List.append_nil _).symm
      · rw [if_neg (fun h => hleft h.2), popSegment, popSegment, if_neg hdot, if_pos rfl,
          if_neg hdot, if_pos rfl, List.dropLast_append_of_ne_nil hleft]
    · rw [if_neg (fun h => hdotdot h.1), popSegment, popSegment, if_neg hdot, if_neg hdotdot,
        if_neg hdot, if_neg hdotdot, List.append_assoc]

end ScamOn.DotSegments
