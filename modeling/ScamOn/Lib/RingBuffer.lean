import Mathlib.Data.List.Basic

/-!
# Ring buffers

A bounded buffer that makes room for a new item by dropping the oldest one holds,
after any number of items, the last ones of them.

* `keepLast n l` are the last `n` items of `l`.
* `keepLast_push`: pushing an item onto a buffer that holds the last `n` items
  and dropping the oldest when there are too many leaves the last `n` items.
* `keepLast_concat`: what stays beside a new item are the last `n - 1` items.
* `mem_keepLast`: an item stays for as long as fewer than `n` items follow it.
-/

namespace ScamOn

variable {α : Type*}

/-- The last `n` items of a list. -/
def keepLast (n : ℕ) (l : List α) : List α := l.drop (l.length - n)

theorem keepLast_of_length_le {n : ℕ} {l : List α} (h : l.length ≤ n) : keepLast n l = l := by
  rw [keepLast, Nat.sub_eq_zero_of_le h, List.drop_zero]

theorem length_keepLast (n : ℕ) (l : List α) : (keepLast n l).length = min n l.length := by
  rw [keepLast, List.length_drop]
  omega

/-- A full buffer drops its oldest item for a new one. -/
theorem keepLast_push (n : ℕ) (l : List α) (x : α) :
    keepLast n (keepLast n l ++ [x]) = keepLast n (l ++ [x]) := by
  unfold keepLast
  have hle : l.length - n ≤ l.length := Nat.sub_le _ _
  rw [← List.drop_append_of_le_length hle, List.drop_drop]
  congr 1
  simp only [List.length_drop, List.length_append, List.length_singleton]
  omega

/-- Beside a new item one item less stays. -/
theorem keepLast_concat {n : ℕ} (hn : 1 ≤ n) (l : List α) (x : α) :
    keepLast n (l ++ [x]) = keepLast (n - 1) l ++ [x] := by
  unfold keepLast
  have hlength : (l ++ [x]).length - n = l.length - (n - 1) := by
    rw [List.length_append, List.length_singleton]
    omega
  rw [hlength, List.drop_append_of_le_length (Nat.sub_le _ _)]

/-- An item stays while fewer than `n` items follow it. -/
theorem mem_keepLast {n : ℕ} {pre post : List α} {x : α} (h : post.length < n) :
    x ∈ keepLast n (pre ++ x :: post) := by
  have hle : (pre ++ x :: post).length - n ≤ pre.length := by
    simp only [List.length_append, List.length_cons]
    omega
  rw [keepLast, List.drop_append_of_le_length hle]
  exact List.mem_append_right _ (List.mem_cons_self ..)

end ScamOn
