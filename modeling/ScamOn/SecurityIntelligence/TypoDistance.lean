import ScamOn.Lib.EditDistance
import ScamOn.SecurityIntelligence.Detectors

/-!
# The distance of typosquatting

`BrandService.levenshtein_distance` fills a table row by row, with the longer text first.

* `levenshteinRow_scan`: a row of the table holds the distances to the prefixes of the other text.
* `levenshteinDistance_eq`: what it returns is the edit distance.
* `levenshtein_isLeast`: so it is the least number of edits, and a metric.
-/

namespace ScamOn.SecurityIntelligence

open EditDistance

/-- The next row, if the row above holds the distances. -/
theorem levenshteinRow_scan (c : Char) (s t rest : List Char) :
    levenshteinRow c (editDistance (c :: s) t) rest (editDistance s t :: scan s t rest) =
      scan (c :: s) t rest := by
  induction rest generalizing t with
  | nil => rfl
  | cons d rest ih =>
    have hcell := editDistance_cons_cons c d s t
    rw [scan, levenshteinRow, ← hcell, ih, scan]

/-- All rows; what is read of the longer text is at the front, last character first. -/
theorem levenshteinRows_scan (s s1 s2 : List Char) :
    levenshteinRows s2 s.length s1 (s.length :: scan s [] s2) =
      (s1.reverse ++ s).length :: scan (s1.reverse ++ s) [] s2 := by
  induction s1 generalizing s with
  | nil => rfl
  | cons c s1 ih =>
    have hrow := levenshteinRow_scan c s [] s2
    rw [editDistance_nil_right, editDistance_nil_right] at hrow
    have hrest := ih (c :: s)
    rw [List.length_cons] at hrow hrest
    rw [levenshteinRows, hrow, hrest, List.reverse_cons, List.append_assoc]
    rfl

/-- The table, for two texts of which the second one may be the shorter. -/
theorem getLastD_levenshteinRows (s1 s2 : List Char) :
    (levenshteinRows s2 0 s1 (List.range (s2.length + 1))).getLastD 0 = editDistance s1 s2 := by
  have hfirst : List.range (s2.length + 1) = 0 :: scan [] [] s2 := by
    rw [scan_nil, List.range_eq_range', List.range'_succ]
    rfl
  have hrows := levenshteinRows_scan [] s1 s2
  have hlast := getLastD_scan s1.reverse [] s2 0
  rw [editDistance_nil_right, List.append_nil, editDistance_reverse] at hlast
  rw [List.append_nil, List.length_nil] at hrows
  rw [hfirst, hrows, hlast]

theorem levenshteinDistance_eq (s t : String) :
    levenshteinDistance s t = editDistance s.toList t.toList := by
  have hloop : ∀ long short : String,
      (if short.length = 0 then long.length
        else (levenshteinRows short.toList 0 long.toList (List.range (short.length + 1))).getLastD 0) =
        editDistance long.toList short.toList := by
    intro long short
    split_ifs with hempty
    · rw [← String.length_toList, List.length_eq_zero_iff] at hempty
      rw [hempty, editDistance_nil_right, String.length_toList]
    · rw [← String.length_toList]
      exact getLastD_levenshteinRows _ _
  unfold levenshteinDistance
  split_ifs with hshorter
  · exact (hloop t s).trans (editDistance_comm _ _)
  · exact hloop s t

/-- **`levenshtein_distance` is the edit distance**: the least number of insertions, deletions and
substitutions, and the value of the usual recursion; so it is a metric. -/
theorem levenshtein_isLeast :
    (∀ s t : String, IsLeast {n | Edits n s.toList t.toList} (levenshteinDistance s t) ∧
      levenshteinDistance s t = editDistance s.toList t.toList) ∧
    (∀ s t : String, levenshteinDistance s t = levenshteinDistance t s) ∧
    (∀ s t : String, levenshteinDistance s t = 0 ↔ s = t) ∧
    ∀ s t u : String,
      levenshteinDistance s u ≤ levenshteinDistance s t + levenshteinDistance t u := by
  refine ⟨fun s t => ⟨?_, levenshteinDistance_eq s t⟩, fun s t => ?_, fun s t => ?_, fun s t u => ?_⟩
  · rw [levenshteinDistance_eq]
    exact isLeast_editDistance _ _
  · rw [levenshteinDistance_eq, levenshteinDistance_eq, editDistance_comm]
  · rw [levenshteinDistance_eq, editDistance_eq_zero_iff, String.toList_inj]
  · rw [levenshteinDistance_eq, levenshteinDistance_eq, levenshteinDistance_eq]
    exact editDistance_triangle _ _ _

end ScamOn.SecurityIntelligence
