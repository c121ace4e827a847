import Mathlib.Algebra.Order.Ring.Int
import Mathlib.Data.List.Basic

/-!
# Bounded queues

A first-in-first-out queue with a capacity, as `asyncio.Queue`: besides the items
it counts those that were put and not yet reported as done.

* `putNowait`, `getNowait` and `taskDone` are the operations, `none` being the
  exception each may raise.
* `Holds q n` says that the queue is within its capacity and that, besides the
  queued items, exactly `n` that were taken are not reported as done.  There is
  one lemma for each operation.
-/

namespace ScamOn

/-- A queue; a `maxsize` of zero or less is no bound. -/
structure BoundedQueue (α : Type*) where
  items : List α
  maxsize : ℤ
  unfinished : ℕ

namespace BoundedQueue

variable {α : Type*}

def empty (maxsize : ℤ) : BoundedQueue α := ⟨[], maxsize, 0⟩

/-- `q.full()`. -/
def full (q : BoundedQueue α) : Bool := 0 < q.maxsize ∧ q.maxsize ≤ q.items.length

/-- `q.put_nowait(x)`; `none` is `QueueFull`. -/
def putNowait (q : BoundedQueue α) (x : α) : Option (BoundedQueue α) :=
  if q.full then none else some { q with items := q.items ++ [x], unfinished := q.unfinished + 1 }

/-- `q.get_nowait()`; `none` is `QueueEmpty`. -/
def getNowait (q : BoundedQueue α) : Option (α × BoundedQueue α) :=
  match q.items with
  | [] => none
  | x :: rest => some (x, { q with items := rest })

/-- `q.task_done()`; `none` is `ValueError`. -/
def taskDone (q : BoundedQueue α) : Option (BoundedQueue α) :=
  if q.unfinished = 0 then none else some { q with unfinished := q.unfinished - 1 }

/-- The queue is within its capacity, and `n` items that were taken are not done. -/
structure Holds (q : BoundedQueue α) (n : ℕ) : Prop where
  length_le : 0 < q.maxsize → (q.items.length : ℤ) ≤ q.maxsize
  unfinished_eq : q.unfinished = q.items.length + n

variable {q q' : BoundedQueue α} {x : α} {n : ℕ}

theorem holds_empty (maxsize : ℤ) : (empty maxsize : BoundedQueue α).Holds 0 where
  length_le h := le_of_lt h
  unfinished_eq := rfl

theorem putNowait_eq_some (h : q.putNowait x = some q') :
    q'.items = q.items ++ [x] ∧ q'.maxsize = q.maxsize ∧ q.full = false := by
  unfold putNowait at h
  split_ifs at h with hfull
  cases h
  exact ⟨rfl, rfl, by simpa using hfull⟩

theorem Holds.putNowait (hq : q.Holds n) (h : q.putNowait x = some q') : q'.Holds n := by
  obtain ⟨-, -, hroom⟩ := putNowait_eq_some h
  unfold BoundedQueue.putNowait at h
  rw [hroom] at h
  cases h
  have hnot : ¬(0 < q.maxsize ∧ q.maxsize ≤ q.items.length) := by simpa [full] using hroom
  constructor
  · intro hpos
    have hpos' : 0 < q.maxsize := hpos
    simp only [List.length_append, List.length_singleton]
    push_cast
    omega
  · have hunfinished := hq.unfinished_eq
    simp only [List.length_append, List.length_singleton]
    omega

theorem getNowait_eq_some (h : q.getNowait = some (x, q')) :
    q.items = x :: q'.items ∧ q'.maxsize = q.maxsize ∧ q'.unfinished = q.unfinished := by
  unfold getNowait at h
  split at h
  · cases h
  · next y rest hitems =>
    cases h
    exact ⟨hitems, rfl, rfl⟩

/-- What is taken is no longer queued, and not done. -/
theorem Holds.getNowait (hq : q.Holds n) (h : q.getNowait = some (x, q')) : q'.Holds (n + 1) := by
  obtain ⟨hitems, hmax, hunfinished⟩ := getNowait_eq_some h
  have hlength := hq.length_le
  have hcount := hq.unfinished_eq
  rw [hitems, List.length_cons] at hlength hcount
  constructor
  · intro hpos
    rw [hmax] at hpos ⊢
    have hle := hlength hpos
    push_cast at hle
    omega
  · omega

theorem taskDone_eq_some (hq : q.Holds (n + 1)) :
    ∃ q', q.taskDone = some q' ∧ q'.items = q.items ∧ q'.maxsize = q.maxsize ∧ q'.Holds n := by
  have hcount := hq.unfinished_eq
  have hpos : q.unfinished ≠ 0 := by omega
  refine ⟨_, if_neg hpos, rfl, rfl, hq.length_le, ?_⟩
  show q.unfinished - 1 = q.items.length + n
  omega

/-- Taking an item from a queue with a positive capacity makes room for one. -/
theorem full_of_getNowait (hq : q.Holds n) (h : q.getNowait = some (x, q')) : q'.full = false := by
  obtain ⟨hitems, hmax, -⟩ := getNowait_eq_some h
  have hlength := hq.length_le
  rw [hitems, List.length_cons] at hlength
  have hnot : ¬(0 < q'.maxsize ∧ q'.maxsize ≤ q'.items.length) := by
    rintro ⟨hpos, hfull⟩
    rw [hmax] at hpos hfull
    have hle := hlength hpos
    push_cast at hle
    omega
  simpa [full] using hnot

/-- A full queue has a first item. -/
theorem exists_getNowait (h : q.full = true) : ∃ x q', q.getNowait = some (x, q') := by
  unfold full at h
  unfold getNowait
  cases hitems : q.items with
  | nil =>
    rw [hitems] at h
    simp only [List.length_nil, decide_eq_true_eq] at h
    omega
  | cons x rest => exact ⟨x, _, rfl⟩

end BoundedQueue
end ScamOn
