import Mathlib.Algebra.Order.Ring.Int
import Mathlib.Data.List.Sort
import Mathlib.Logic.Relation
import Mathlib.Order.WellFoundedSet

/-!
# Topological sorting by priority

Kahn's algorithm: a queue of the nodes that wait for nothing, from which the one of
the least priority number is taken next, first come first served among equals.
Edges may be listed more than once; each counts.

* `sortNodes` is the algorithm, on the nodes and the edges in the order in which they
  are given.
* `Inv` is the invariant of its loop, `inv_pop` says that one turn keeps it.
* `sortNodes_spec`: the loop ends; what it returns is in order, and it is all of
  the nodes exactly if there is no cycle.
* `Precedes` derives which of two nodes comes first from edges, priorities and positions
  alone; `before_iff_precedes` says that the result obeys it.
-/

namespace ScamOn.TopologicalSort

open Relation

variable {ι : Type*} [DecidableEq ι]

/-- The nodes behind each node, one entry for each edge. -/
def adjacency (edges : List (ι × ι)) : ι → List ι :=
  edges.foldl (fun adj e => Function.update adj e.1 (adj e.1 ++ [e.2])) fun _ => []

/-- How many edges lead into each node. -/
def inDegree (edges : List (ι × ι)) : ι → ℤ :=
  edges.foldl (fun deg e => Function.update deg e.2 (deg e.2 + 1)) fun _ => 0

/-- The state of the loop. -/
structure State (ι : Type*) where
  queue : List ι
  inDegree : ι → ℤ
  result : List ι

/-- The queue in the order of the priorities; the sort is stable. -/
def byPriority (priority : ι → ℤ) (queue : List ι) : List ι :=
  queue.insertionSort fun a b => priority a ≤ priority b

/-- The loop over the neighbours of a node: each waits for one edge less, and joins the
queue when it waits for none. -/
def release : List ι → (ι → ℤ) → List ι → (ι → ℤ) × List ι
  | [], deg, queue => (deg, queue)
  | neighbor :: rest, deg, queue =>
    let deg := Function.update deg neighbor (deg neighbor - 1)
    release rest deg (if deg neighbor = 0 then queue ++ [neighbor] else queue)

/-- One turn of the loop, with the node at the head of the queue. -/
def pop (edges : List (ι × ι)) (priority : ι → ℤ) (s : State ι) (node : ι) (rest : List ι) :
    State ι :=
  let released := release (adjacency edges node) s.inDegree rest
  ⟨byPriority priority released.2, released.1, s.result ++ [node]⟩

/-- The loop, for a number of turns.  It has no result if there is something left in the
queue then. -/
def drain (edges : List (ι × ι)) (priority : ι → ℤ) : ℕ → State ι → Option (List ι)
  | 0, s => if s.queue = [] then some s.result else none
  | turns + 1, s =>
    match s.queue with
    | [] => some s.result
    | node :: rest => drain edges priority turns (pop edges priority s node rest)

/-- The state before the loop. -/
def start (nodes : List ι) (edges : List (ι × ι)) (priority : ι → ℤ) : State ι :=
  ⟨byPriority priority (nodes.filter fun b => inDegree edges b = 0), inDegree edges, []⟩

/-- The algorithm, with as many turns as there are nodes. -/
def sortNodes (nodes : List ι) (edges : List (ι × ι)) (priority : ι → ℤ) : Option (List ι) :=
  drain edges priority nodes.length (start nodes edges priority)

/-! ## Positions in a list -/

section Before

variable {l : List ι} {x y z : ι}

/-- `x` stands before `y`. -/
def Before (l : List ι) (x y : ι) : Prop := y ∈ l ∧ l.idxOf x < l.idxOf y

theorem Before.mem_left (h : Before l x y) : x ∈ l :=
  List.idxOf_lt_length_iff.1 (h.2.trans (List.idxOf_lt_length_iff.2 h.1))

theorem Before.trans (h : Before l x y) (h' : Before l y z) : Before l x z :=
  ⟨h'.1, h.2.trans h'.2⟩

theorem Before.asymm (h : Before l x y) : ¬Before l y x := fun h' => lt_asymm h.2 h'.2

theorem not_before_self : ¬Before l x x := fun h => lt_irrefl _ h.2

theorem before_or_before (hx : x ∈ l) (hy : y ∈ l) (hne : x ≠ y) : Before l x y ∨ Before l y x := by
  rcases lt_trichotomy (l.idxOf x) (l.idxOf y) with h | h | h
  · exact .inl ⟨hy, h⟩
  · exact absurd ((List.idxOf_inj hx).1 h) hne
  · exact .inr ⟨hx, h⟩

theorem Before.append (h : Before l x y) (t : List ι) : Before (l ++ t) x y := by
  refine ⟨List.mem_append_left _ h.1, ?_⟩
  rw [List.idxOf_append_of_mem h.mem_left, List.idxOf_append_of_mem h.1]
  exact h.2

/-- What stands before a node is what is listed before its first occurrence. -/
theorem before_append_cons {pre post : List ι} (hy : y ∉ pre) :
    Before (pre ++ y :: post) x y ↔ x ∈ pre := by
  have hidx : (pre ++ y :: post).idxOf y = pre.length := by
    rw [List.idxOf_append_of_notMem hy, List.idxOf_cons_self, Nat.add_zero]
  constructor
  · intro h
    by_contra hx
    have hlt := h.2
    rw [hidx, List.idxOf_append_of_notMem hx] at hlt
    omega
  · intro hx
    refine ⟨by simp, ?_⟩
    rw [hidx, List.idxOf_append_of_mem hx]
    exact List.idxOf_lt_length_iff.2 hx

end Before

/-! ## Edges -/

variable {edges : List (ι × ι)} {nodes : List ι} {priority : ι → ℤ} {s : State ι}

/-- One node has to come before the other. -/
def Edge (edges : List (ι × ι)) (a b : ι) : Prop := (a, b) ∈ edges

/-- Some node would have to come before itself. -/
def HasCycle (edges : List (ι × ι)) : Prop := ∃ v, TransGen (Edge edges) v v

theorem foldl_adjacency (edges : List (ι × ι)) (adj : ι → List ι) (a : ι) :
    edges.foldl (fun (adj : ι → List ι) e => Function.update adj e.1 (adj e.1 ++ [e.2])) adj a =
      adj a ++ (edges.filter fun e => e.1 = a).map Prod.snd := by
  induction edges generalizing adj with
  | nil => simp
  | cons e edges ih =>
    rw [List.foldl_cons, ih]
    by_cases h : e.1 = a
    · simp [h]
    · simp [h, Function.update_of_ne (Ne.symm h)]

theorem adjacency_eq (edges : List (ι × ι)) (a : ι) :
    adjacency edges a = (edges.filter fun e => e.1 = a).map Prod.snd := foldl_adjacency edges _ a

theorem foldl_inDegree (edges : List (ι × ι)) (deg : ι → ℤ) (b : ι) :
    edges.foldl (fun (deg : ι → ℤ) e => Function.update deg e.2 (deg e.2 + 1)) deg b =
      deg b + edges.countP fun e => e.2 = b := by
  induction edges generalizing deg with
  | nil => simp
  | cons e edges ih =>
    rw [List.foldl_cons, ih]
    by_cases h : e.2 = b
    · simp [h]
      omega
    · simp [h, Function.update_of_ne (Ne.symm h)]

theorem inDegree_eq (edges : List (ι × ι)) (b : ι) :
    inDegree edges b = edges.countP fun e => e.2 = b := by
  rw [inDegree, foldl_inDegree, zero_add]

/-- The edges into a node from nodes that are still to come. -/
def waiting (edges : List (ι × ι)) (done : List ι) (b : ι) : ℕ :=
  edges.countP fun e => e.2 = b ∧ e.1 ∉ done

theorem waiting_eq_zero_iff {done : List ι} {b : ι} :
    waiting edges done b = 0 ↔ ∀ a, Edge edges a b → a ∈ done := by
  simp only [waiting, List.countP_eq_zero, decide_eq_true_eq, not_and, not_not, Prod.forall, Edge]
  constructor
  · intro h a hab
    exact h a b hab rfl
  · rintro h a b' hab rfl
    exact h a hab

theorem count_adjacency (edges : List (ι × ι)) (a b : ι) :
    (adjacency edges a).count b = edges.countP fun e => e.2 = b ∧ e.1 = a := by
  rw [adjacency_eq, List.count, List.countP_map, List.countP_filter]
  refine List.countP_congr fun e _ => ?_
  simp

/-- A node that is done takes its edges with it. -/
theorem waiting_append {done : List ι} {node : ι} (hnode : node ∉ done) (b : ι) :
    waiting edges done b = waiting edges (done ++ [node]) b + (adjacency edges node).count b := by
  rw [count_adjacency, waiting, waiting]
  induction edges with
  | nil => rfl
  | cons e edges ih =>
    rw [List.countP_cons, List.countP_cons, List.countP_cons, ih]
    by_cases hb : e.2 = b
    · by_cases ha : e.1 = node
      · simp [hb, ha, hnode]
        omega
      · by_cases hd : e.1 ∈ done
        · simp [ha, hd]
        · simp [hb, ha, hd]
          omega
    · simp [hb]

/-! ## The loop over the neighbours -/

theorem release_spec {neighbors : List ι} {deg : ι → ℤ} (queue : List ι)
    (hdeg : ∀ b ∈ neighbors, (neighbors.count b : ℤ) ≤ deg b) :
    (∀ b, (release neighbors deg queue).1 b = deg b - neighbors.count b) ∧
      ∃ new, (release neighbors deg queue).2 = queue ++ new ∧ new.Nodup ∧ new.Sublist neighbors ∧
        ∀ b, b ∈ new ↔ b ∈ neighbors ∧ deg b = neighbors.count b := by
  induction neighbors generalizing deg queue with
  | nil => exact ⟨by simp [release], [], by simp [release], by simp, by simp, by simp⟩
  | cons n rest ih =>
    have hn : (1 : ℤ) + rest.count n ≤ deg n := by
      have h := hdeg n (by simp)
      rw [List.count_cons_self] at h
      push_cast at h
      omega
    have hne : ∀ b, b ≠ n → (n :: rest).count b = rest.count b := fun b hb =>
      List.count_cons_of_ne hb.symm
    have hdeg' : ∀ b ∈ rest, (rest.count b : ℤ) ≤ Function.update deg n (deg n - 1) b := by
      intro b hb
      by_cases h : b = n
      · subst h
        rw [Function.update_self]
        omega
      · rw [Function.update_of_ne h, ← hne b h]
        exact hdeg b (by simp [hb])
    unfold release
    dsimp only
    obtain ⟨hrest, new, hqueue, hnodup, hsub, hmem⟩ := ih
      (if Function.update deg n (deg n - 1) n = 0 then queue ++ [n] else queue) hdeg'
    refine ⟨fun b => ?_, ?_⟩
    · rw [hrest b]
      by_cases h : b = n
      · subst h
        rw [Function.update_self, List.count_cons_self]
        push_cast
        omega
      · rw [Function.update_of_ne h, hne b h]
    · have hmem' : ∀ b, b ≠ n → (b ∈ new ↔ b ∈ n :: rest ∧ deg b = (n :: rest).count b) := by
        intro b h
        rw [hmem b, Function.update_of_ne h, hne b h]
        simp [h]
      have hcount : ((n :: rest).count n : ℤ) = 1 + rest.count n := by
        rw [List.count_cons_self]
        push_cast
        omega
      rw [Function.update_self] at hqueue
      by_cases hzero : deg n - 1 = 0
      · -- the last edge into `n`
        have hlast : n ∉ rest := fun h => by
          have := List.count_pos_iff.2 h
          omega
        have hnew : n ∉ new := fun h => hlast (hsub.subset h)
        rw [if_pos hzero] at hqueue
        refine ⟨n :: new, by rw [Function.update_self, if_pos hzero, hqueue]; simp,
          List.nodup_cons.2 ⟨hnew, hnodup⟩, hsub.cons_cons n, fun b => ?_⟩
        by_cases h : b = n
        · subst h
          have h0 : rest.count b = 0 := List.count_eq_zero.2 hlast
          simp only [List.mem_cons, true_or, true_and, true_iff, hcount, h0]
          omega
        · rw [List.mem_cons, ← hmem' b h]
          simp [h]
      · rw [if_neg hzero] at hqueue
        refine ⟨new, by rw [Function.update_self, if_neg hzero, hqueue], hnodup,
          hsub.cons n, fun b => ?_⟩
        by_cases h : b = n
        · subst h
          rw [hmem b, Function.update_self, hcount]
          have hmore : deg b - 1 = rest.count b → b ∈ rest := fun heq => by
            refine List.count_pos_iff.1 ?_
            omega
          constructor
          · rintro ⟨-, heq⟩
            exact ⟨by simp, by omega⟩
          · rintro ⟨-, heq⟩
            exact ⟨hmore (by omega), by omega⟩
        · exact hmem' b h

/-! ## The invariant -/

/-- **The invariant of the loop.**  Each node waits for its edges from nodes still to come;
those that wait for none are done or in the queue, once; what is done is in order. -/
structure Inv (nodes : List ι) (edges : List (ι × ι)) (s : State ι) : Prop where
  inDegree_eq : ∀ b, s.inDegree b = waiting edges s.result b
  nodup : (s.result ++ s.queue).Nodup
  mem_iff : ∀ b, b ∈ s.result ++ s.queue ↔ b ∈ nodes ∧ ∀ a, Edge edges a b → a ∈ s.result
  before : ∀ a b, Edge edges a b → b ∈ s.result → Before s.result a b

omit [DecidableEq ι] in
theorem perm_byPriority (priority : ι → ℤ) (queue : List ι) :
    (byPriority priority queue).Perm queue := List.perm_insertionSort _ _

theorem inv_start (hnodup : nodes.Nodup) : Inv nodes edges (start nodes edges priority) where
  inDegree_eq b := by simp [start, inDegree_eq, waiting]
  nodup := by
    rw [start, List.nil_append, (perm_byPriority _ _).nodup_iff]
    exact hnodup.filter _
  mem_iff b := by
    rw [start, List.nil_append, (perm_byPriority _ _).mem_iff, List.mem_filter]
    refine and_congr_right fun _ => ?_
    rw [decide_eq_true_eq, inDegree_eq, ← waiting_eq_zero_iff]
    simp [waiting]
  before a b _ hb := by cases hb

variable {node : ι} {rest : List ι}

/-- The next node is not in the result yet. -/
theorem Inv.next_not_mem (h : Inv nodes edges s) (hqueue : s.queue = node :: rest) :
    node ∉ s.result := by
  have hnodup := h.nodup
  rw [hqueue] at hnodup
  exact fun hmem => List.disjoint_of_nodup_append hnodup hmem List.mem_cons_self

/-- What one turn does to the queue: some nodes join it, all for the sake of this one. -/
theorem pop_queue (priority : ι → ℤ) (h : Inv nodes edges s) (hqueue : s.queue = node :: rest) :
    ∃ new, (pop edges priority s node rest).queue = byPriority priority (rest ++ new) ∧
      new.Nodup ∧ new.Sublist (adjacency edges node) ∧
      (∀ b, (pop edges priority s node rest).inDegree b = waiting edges (s.result ++ [node]) b) ∧
      ∀ b, b ∈ new ↔ Edge edges node b ∧ ∀ a, Edge edges a b → a ∈ s.result ++ [node] := by
  have hnode : node ∉ s.result := h.next_not_mem hqueue
  have hwait : ∀ b, waiting edges s.result b =
      waiting edges (s.result ++ [node]) b + (adjacency edges node).count b := waiting_append hnode
  have hle : ∀ b ∈ adjacency edges node, ((adjacency edges node).count b : ℤ) ≤ s.inDegree b := by
    intro b _
    rw [h.inDegree_eq, hwait]
    omega
  obtain ⟨hdeg, new, hnew, hnodup, hsub, hmem⟩ := release_spec rest hle
  refine ⟨new, congrArg _ hnew, hnodup, hsub, fun b => ?_, fun b => ?_⟩
  · show (release _ _ _).1 b = _
    rw [hdeg, h.inDegree_eq, hwait]
    omega
  · have hedge : b ∈ adjacency edges node ↔ Edge edges node b := by
      simp [adjacency_eq, Edge]
    rw [hmem, hedge, ← waiting_eq_zero_iff, h.inDegree_eq, hwait]
    refine and_congr_right fun _ => ?_
    omega

/-- **One turn keeps the invariant.** -/
theorem inv_pop (hnodes : ∀ a b, Edge edges a b → b ∈ nodes) (h : Inv nodes edges s)
    (hqueue : s.queue = node :: rest) : Inv nodes edges (pop edges priority s node rest) := by
  obtain ⟨new, hq, hnewNodup, -, hdeg, hnew⟩ := pop_queue priority h hqueue
  have hnodup := h.nodup
  rw [hqueue] at hnodup
  have hnode : node ∉ s.result := h.next_not_mem hqueue
  have hready : ∀ b ∈ s.result ++ node :: rest, ∀ a, Edge edges a b → a ∈ s.result := by
    intro b hb
    rw [← hqueue] at hb
    exact ((h.mem_iff b).1 hb).2
  have hperm : ((pop edges priority s node rest).result ++ (pop edges priority s node rest).queue).Perm
      ((s.result ++ node :: rest) ++ new) := by
    rw [hq]
    show ((s.result ++ [node]) ++ byPriority priority (rest ++ new)).Perm _
    refine ((perm_byPriority priority (rest ++ new)).append_left _).trans ?_
    simp
  refine ⟨hdeg, ?_, fun b => ?_, fun a b hab hb => ?_⟩
  · rw [hperm.nodup_iff]
    refine hnodup.append hnewNodup fun b hb hb' => ?_
    exact hnode (hready b hb node ((hnew b).1 hb').1)
  · rw [hperm.mem_iff, List.mem_append, hnew]
    show _ ↔ b ∈ nodes ∧ ∀ a, Edge edges a b → a ∈ s.result ++ [node]
    constructor
    · rintro (hb | ⟨hedge, hall⟩)
      · have hold := (h.mem_iff b).1 (by rwa [hqueue])
        exact ⟨hold.1, fun a ha => List.mem_append_left _ (hold.2 a ha)⟩
      · exact ⟨hnodes node b hedge, hall⟩
    · rintro ⟨hb, hall⟩
      by_cases hedge : Edge edges node b
      · exact .inr ⟨hedge, hall⟩
      · refine .inl ?_
        rw [← hqueue, h.mem_iff]
        refine ⟨hb, fun a ha => ?_⟩
        rcases List.mem_append.1 (hall a ha) with hmem | hmem
        · exact hmem
        · rw [List.mem_singleton.1 hmem] at ha
          exact absurd ha hedge
  · show Before (s.result ++ [node]) a b
    rcases List.mem_append.1 hb with hb | hb
    · exact (h.before a b hab hb).append _
    · obtain rfl := List.mem_singleton.1 hb
      exact (before_append_cons hnode).2 (hready b (by simp) a hab)

/-! ## The whole loop -/

/-- What the turns keep holds at the end, and when each node comes up. -/
theorem drain_visits {I : State ι → Prop}
    (hI : ∀ s node rest, I s → s.queue = node :: rest → I (pop edges priority s node rest))
    {turns : ℕ} {l : List ι} (hs : I s) (hl : drain edges priority turns s = some l) :
    s.result <+: l ∧ (∃ t, I t ∧ t.queue = [] ∧ t.result = l) ∧
      ∀ y ∈ l, y ∉ s.result → ∃ t rest, I t ∧ t.queue = y :: rest ∧ t.result ++ [y] <+: l := by
  induction turns generalizing s with
  | zero =>
    unfold drain at hl
    split_ifs at hl with hempty
    obtain rfl := Option.some.inj hl
    exact ⟨List.prefix_refl _, ⟨s, hs, hempty, rfl⟩, fun y hy hn => absurd hy hn⟩
  | succ turns ih =>
    unfold drain at hl
    cases hqueue : s.queue with
    | nil =>
      simp only [hqueue, Option.some.injEq] at hl
      subst hl
      exact ⟨List.prefix_refl _, ⟨s, hs, hqueue, rfl⟩, fun y hy hn => absurd hy hn⟩
    | cons node rest =>
      simp only [hqueue] at hl
      obtain ⟨hpre, hend, hvisit⟩ := ih (hI s node rest hs hqueue) hl
      have hpre' : s.result ++ [node] <+: l := hpre
      refine ⟨(List.prefix_append _ _).trans hpre', hend, fun y hy hn => ?_⟩
      by_cases hynode : y = node
      · subst hynode
        exact ⟨s, rest, hs, hqueue, hpre'⟩
      · refine hvisit y hy fun hmem => ?_
        have hmem' : y ∈ s.result ++ [node] := hmem
        simp [hn, hynode] at hmem'

/-- The loop ends: every turn takes a node that was not taken before. -/
theorem drain_isSome (hnodes : ∀ a b, Edge edges a b → b ∈ nodes) {turns : ℕ}
    (h : Inv nodes edges s) (hturns : nodes.length ≤ s.result.length + turns) :
    (drain edges priority turns s).isSome := by
  have hlength : ∀ {s : State ι}, Inv nodes edges s → s.result.length + s.queue.length ≤ nodes.length := by
    intro s h
    rw [← List.length_append]
    exact (List.subperm_of_subset h.nodup fun b hb => ((h.mem_iff b).1 hb).1).length_le
  induction turns generalizing s with
  | zero =>
    have hempty : s.queue = [] := by
      rw [← List.length_eq_zero_iff]
      have := hlength h
      omega
    simp [drain, hempty]
  | succ turns ih =>
    unfold drain
    cases hqueue : s.queue with
    | nil => rfl
    | cons node rest =>
      refine ih (inv_pop hnodes h hqueue) ?_
      simp only [pop, List.length_append, List.length_singleton]
      omega

/-- Without a cycle, no node is left behind. -/
theorem mem_of_acyclic (hnodes : ∀ a b, Edge edges a b → a ∈ nodes ∧ b ∈ nodes)
    (hacyclic : ¬HasCycle edges) (h : Inv nodes edges s) (hempty : s.queue = []) :
    ∀ b ∈ nodes, b ∈ s.result := by
  have : IsStrictOrder ι (TransGen (Edge edges)) :=
    { irrefl := fun v hv => hacyclic ⟨v, hv⟩, trans := fun _ _ _ => TransGen.trans }
  have hwf : {b | b ∈ nodes}.WellFoundedOn (TransGen (Edge edges)) :=
    (List.finite_toSet nodes).wellFoundedOn
  intro b hb
  refine hwf.induction (x := b) (P := fun b => b ∈ s.result) hb fun b hb ih => ?_
  have hmem : b ∈ s.result ++ s.queue :=
    (h.mem_iff b).2 ⟨hb, fun a ha => ih a (hnodes a b ha).1 (TransGen.single ha)⟩
  simpa [hempty] using hmem

/-- Where all nodes are done, there is no cycle: an edge never leads back. -/
theorem acyclic_of_mem (hnodes : ∀ a b, Edge edges a b → a ∈ nodes ∧ b ∈ nodes)
    (h : Inv nodes edges s) (hall : ∀ b ∈ nodes, b ∈ s.result) : ¬HasCycle edges := by
  rintro ⟨v, hv⟩
  have hbefore : ∀ {a b}, TransGen (Edge edges) a b → Before s.result a b := by
    intro a b hab
    induction hab with
    | single hedge => exact h.before _ _ hedge (hall _ (hnodes _ _ hedge).2)
    | tail _ hedge ih => exact ih.trans (h.before _ _ hedge (hall _ (hnodes _ _ hedge).2))
  exact not_before_self (hbefore hv)

/-- **The loop ends, and sorts.**  What is returned lists nodes, each once and behind those
that have to come before it; it lists all of them exactly if there is no cycle. -/
theorem sortNodes_spec (hnodup : nodes.Nodup)
    (hnodes : ∀ a b, Edge edges a b → a ∈ nodes ∧ b ∈ nodes) (priority : ι → ℤ) :
    ∃ l, sortNodes nodes edges priority = some l ∧ l.Nodup ∧ l ⊆ nodes ∧
      (∀ a b, Edge edges a b → b ∈ l → Before l a b) ∧
      (l.length < nodes.length ↔ HasCycle edges) := by
  have hstart : Inv nodes edges (start nodes edges priority) := inv_start hnodup
  have hends : (drain edges priority nodes.length (start nodes edges priority)).isSome :=
    drain_isSome (fun a b hab => (hnodes a b hab).2) hstart (by simp [start])
  obtain ⟨l, hl⟩ := Option.isSome_iff_exists.1 hends
  obtain ⟨-, ⟨t, ht, hempty, rfl⟩, -⟩ := drain_visits
    (fun s node rest hs => inv_pop (fun a b hab => (hnodes a b hab).2) hs) hstart hl
  have hnodup' := ht.nodup
  rw [hempty, List.append_nil] at hnodup'
  have hsub : t.result ⊆ nodes := fun b hb => ((ht.mem_iff b).1 (by simp [hb])).1
  refine ⟨t.result, hl, hnodup', hsub, ht.before, ?_⟩
  have hall : ¬t.result.length < nodes.length ↔ ∀ b ∈ nodes, b ∈ t.result := by
    rw [not_lt]
    constructor
    · intro hle b hb
      exact ((List.subperm_of_subset hnodup' hsub).perm_of_length_le hle).mem_iff.2 hb
    · intro hall
      exact (List.subperm_of_subset hnodup fun b hb => hall b hb).length_le
  rw [← not_iff_not, hall]
  exact ⟨acyclic_of_mem hnodes ht, fun hacyclic => mem_of_acyclic hnodes hacyclic ht hempty⟩

/-! ## The order among nodes that no edge orders -/

/-- `u` was ready before `v`: something that `v` waited for came after all that `u` waited
for, or else `u` waited no longer and is listed before it. -/
def ReadyBefore (nodes : List ι) (edges : List (ι × ι)) (done : List ι) (u v : ι) : Prop :=
  (∃ d, Edge edges d v ∧ ∀ c, Edge edges c u → Before done c d) ∨
    (nodes.idxOf u < nodes.idxOf v ∧
      ∀ c, Edge edges c u → ∃ d, Edge edges d v ∧ (c = d ∨ Before done c d))

/-- `u` is taken from the queue before `v`. -/
def Outranks (nodes : List ι) (edges : List (ι × ι)) (priority : ι → ℤ) (done : List ι)
    (u v : ι) : Prop :=
  priority u < priority v ∨ (priority u = priority v ∧ ReadyBefore nodes edges done u v)

theorem ReadyBefore.append {done : List ι} {u v : ι} (h : ReadyBefore nodes edges done u v)
    (t : List ι) : ReadyBefore nodes edges (done ++ t) u v := by
  rcases h with ⟨d, hd, hall⟩ | ⟨hidx, hall⟩
  · exact .inl ⟨d, hd, fun c hc => (hall c hc).append t⟩
  · refine .inr ⟨hidx, fun c hc => ?_⟩
    obtain ⟨d, hd, hcd⟩ := hall c hc
    exact ⟨d, hd, hcd.imp_right fun hbefore => hbefore.append t⟩

theorem Outranks.append {done : List ι} {u v : ι} (h : Outranks nodes edges priority done u v)
    (t : List ι) : Outranks nodes edges priority (done ++ t) u v :=
  h.imp_right fun heq => ⟨heq.1, heq.2.append t⟩

omit [DecidableEq ι] in
/-- The sort is stable. -/
theorem pairwise_byPriority {A : ι → ι → Prop} {queue : List ι}
    (h : queue.Pairwise fun u v => priority u = priority v → A u v) :
    (byPriority priority queue).Pairwise fun u v =>
      priority u < priority v ∨ (priority u = priority v ∧ A u v) := by
  -- inserting an element before its equals
  have hinsert : ∀ (a : ι) (l : List ι),
      (l.Pairwise fun u v => priority u < priority v ∨ (priority u = priority v ∧ A u v)) →
      (∀ v ∈ l, priority a = priority v → A a v) →
      (l.orderedInsert (fun a b => priority a ≤ priority b) a).Pairwise fun u v =>
        priority u < priority v ∨ (priority u = priority v ∧ A u v) := by
    intro a l hl ha
    induction l with
    | nil => simp
    | cons b l ih =>
      obtain ⟨hb, hl⟩ := List.pairwise_cons.1 hl
      rw [List.orderedInsert_cons]
      split_ifs with hle
      · refine List.pairwise_cons.2 ⟨fun v hv => ?_, List.pairwise_cons.2 ⟨hb, hl⟩⟩
        have hle' : priority a ≤ priority v := by
          rcases List.mem_cons.1 hv with rfl | hv
          · exact hle
          · rcases hb v hv with hlt | ⟨heq, -⟩ <;> omega
        rcases lt_or_eq_of_le hle' with hlt | heq
        · exact .inl hlt
        · exact .inr ⟨heq, ha v hv heq⟩
      · refine List.pairwise_cons.2 ⟨fun v hv => ?_, ih hl fun v hv => ha v (by simp [hv])⟩
        rcases (List.mem_orderedInsert _).1 hv with rfl | hv
        · exact .inl (not_le.1 hle)
        · exact hb v hv
  induction queue with
  | nil => exact List.Pairwise.nil
  | cons a queue ih =>
    obtain ⟨ha, hqueue⟩ := List.pairwise_cons.1 h
    refine hinsert a _ (ih hqueue) fun v hv => ha v ?_
    exact (List.mem_insertionSort _).1 hv

/-- The invariant, with the order of the queue. -/
structure Ranked (nodes : List ι) (edges : List (ι × ι)) (priority : ι → ℤ) (s : State ι) : Prop
    extends Inv nodes edges s where
  queue : s.queue.Pairwise (Outranks nodes edges priority s.result)

/-- A list without repetition is in the order of its positions. -/
theorem pairwise_idxOf (hnodup : nodes.Nodup) :
    nodes.Pairwise fun u v => nodes.idxOf u < nodes.idxOf v := by
  rw [List.pairwise_iff_getElem]
  intro i j hi hj hij
  rwa [hnodup.idxOf_getElem, hnodup.idxOf_getElem]

theorem ranked_start (hnodup : nodes.Nodup) :
    Ranked nodes edges priority (start nodes edges priority) := by
  refine ⟨inv_start hnodup, pairwise_byPriority ?_⟩
  have hnone : ∀ b, inDegree edges b = 0 → ∀ c, ¬Edge edges c b := by
    intro b hb c hc
    rw [inDegree_eq, Nat.cast_eq_zero, List.countP_eq_zero] at hb
    simpa using hb (c, b) hc
  refine ((pairwise_idxOf hnodup).filter _).imp_of_mem fun {u v} hu _ hidx _ => ?_
  have hzero : inDegree edges u = 0 := by simpa using (List.mem_filter.1 hu).2
  exact .inr ⟨hidx, fun c hc => absurd hc (hnone u hzero c)⟩

theorem ranked_pop (hnodes : ∀ a b, Edge edges a b → b ∈ nodes)
    (hsorted : edges.Pairwise fun e e' => nodes.idxOf e.2 ≤ nodes.idxOf e'.2)
    (h : Ranked nodes edges priority s) (hqueue : s.queue = node :: rest) :
    Ranked nodes edges priority (pop edges priority s node rest) := by
  refine ⟨inv_pop hnodes h.toInv hqueue, ?_⟩
  obtain ⟨new, hq, hnewNodup, hsub, -, hnew⟩ := pop_queue priority h.toInv hqueue
  have hranked := h.queue
  rw [hqueue] at hranked
  have hnode : node ∉ s.result := h.toInv.next_not_mem hqueue
  have hlast : ∀ c ∈ s.result, Before (s.result ++ [node]) c node := fun c hc =>
    (before_append_cons hnode).2 hc
  rw [hq]
  refine pairwise_byPriority (List.pairwise_append.2 ⟨?_, ?_, ?_⟩)
  · refine (List.pairwise_cons.1 hranked).2.imp fun {u v} huv heq => ?_
    rcases huv with hlt | ⟨-, hready⟩
    · omega
    · exact hready.append _
  · -- all of them waited for this node last
    have hle : new.Pairwise fun u v => nodes.idxOf u ≤ nodes.idxOf v := by
      refine List.Pairwise.sublist hsub ?_
      rw [adjacency_eq, List.pairwise_map]
      exact hsorted.filter _
    refine (hle.and hnewNodup).imp_of_mem fun {u v} hu hv huv _ => ?_
    obtain ⟨hu, hall⟩ := (hnew u).1 hu
    obtain ⟨hv, -⟩ := (hnew v).1 hv
    have hlt : nodes.idxOf u < nodes.idxOf v :=
      lt_of_le_of_ne huv.1 fun heq => huv.2 ((List.idxOf_inj (hnodes _ u hu)).1 heq)
    refine .inr ⟨hlt, fun c hc => ⟨node, hv, ?_⟩⟩
    rcases List.mem_append.1 (hall c hc) with hmem | hmem
    · exact .inr (hlast c hmem)
    · exact .inl (List.mem_singleton.1 hmem)
  · intro u hu v hv _
    refine .inl ⟨node, ((hnew v).1 hv).1, fun c hc => hlast c ?_⟩
    exact ((h.mem_iff u).1 (by simp [hqueue, hu])).2 c hc

/-- **The choice.**  When a node is taken, it outranks every other that waits for
nothing. -/
theorem sortNodes_choice (hnodup : nodes.Nodup) (hnodes : ∀ a b, Edge edges a b → b ∈ nodes)
    (hsorted : edges.Pairwise fun e e' => nodes.idxOf e.2 ≤ nodes.idxOf e'.2) {l : List ι}
    (hl : sortNodes nodes edges priority = some l) {x y : ι} (hx : x ∈ nodes) (hy : y ∈ l)
    (hne : x ≠ y) (hready : ∀ c, Edge edges c x → Before l c y) :
    Before l x y ∨ Outranks nodes edges priority l y x := by
  obtain ⟨-, -, hvisit⟩ := drain_visits (I := Ranked nodes edges priority)
    (fun s node rest hs => ranked_pop hnodes hsorted hs) (ranked_start hnodup) hl
  obtain ⟨t, rest, ht, hqueue, post, rfl⟩ := hvisit y hy (by simp [start])
  have hyt : y ∉ t.result := ht.toInv.next_not_mem hqueue
  have hbefore : ∀ c, Before (t.result ++ [y] ++ post) c y ↔ c ∈ t.result := by
    intro c
    rw [List.append_assoc, List.singleton_append]
    exact before_append_cons hyt
  have hmem := (ht.mem_iff x).2 ⟨hx, fun c hc => (hbefore c).1 (hready c hc)⟩
  rw [hqueue, List.mem_append, List.mem_cons] at hmem
  rcases hmem with hmem | heq | hmem
  · exact .inl ((hbefore x).2 hmem)
  · exact absurd heq hne
  · have hqueue' := ht.queue
    rw [hqueue] at hqueue'
    rw [List.append_assoc]
    exact .inr (((List.pairwise_cons.1 hqueue').1 x hmem).append _)

/-- **Which node comes first**, from edges, priorities and positions alone: the one that
has to; one that something in between comes after and before; and of two nodes the one of
the lesser priority number, if all that it waits for comes first.  With the same priority
number, it is the one that was ready first, or that is listed first if it waits no
longer: `w` names for each thing it waits for one that the other waits for, which is not
earlier. -/
inductive Precedes (nodes : List ι) (edges : List (ι × ι)) (priority : ι → ℤ) : ι → ι → Prop
  | edge {x y : ι} : Edge edges x y → Precedes nodes edges priority x y
  | trans {x y z : ι} : Precedes nodes edges priority x y → Precedes nodes edges priority y z →
      Precedes nodes edges priority x z
  | priority {x y : ι} : x ∈ nodes → y ∈ nodes → priority x < priority y →
      (∀ c, Edge edges c x → Precedes nodes edges priority c y) → Precedes nodes edges priority x y
  | ready {x y d : ι} : x ∈ nodes → priority x = priority y → Edge edges d y →
      (∀ c, Edge edges c x → Precedes nodes edges priority c d) → Precedes nodes edges priority x y
  | listed {x y : ι} (w : ι → ι) : x ∈ nodes → y ∈ nodes → priority x = priority y →
      nodes.idxOf x < nodes.idxOf y → (∀ c, Edge edges c x → Edge edges (w c) y) →
      (∀ c, Edge edges c x → c ≠ w c → Precedes nodes edges priority c (w c)) →
      Precedes nodes edges priority x y

section Order

variable (hnodup : nodes.Nodup) (hnodes : ∀ a b, Edge edges a b → a ∈ nodes ∧ b ∈ nodes)
  {l : List ι} (hl : sortNodes nodes edges priority = some l) (hacyclic : ¬HasCycle edges)

include hnodup hnodes hl hacyclic

/-- Without a cycle the result is a rearrangement of the nodes. -/
theorem perm_of_acyclic : l.Perm nodes := by
  obtain ⟨l', hl', hnodup', hsub, -, hlength⟩ := sortNodes_spec hnodup hnodes priority
  obtain rfl : l' = l := Option.some.inj (hl'.symm.trans hl)
  refine (List.subperm_of_subset hnodup' hsub).perm_of_length_le ?_
  exact not_lt.1 fun hlt => hacyclic (hlength.1 hlt)

theorem before_of_edge {a b : ι} (hab : Edge edges a b) : Before l a b := by
  obtain ⟨l', hl', -, -, hbefore, -⟩ := sortNodes_spec hnodup hnodes priority
  obtain rfl : l' = l := Option.some.inj (hl'.symm.trans hl)
  refine hbefore a b hab ((perm_of_acyclic hnodup hnodes hl hacyclic).mem_iff.2 (hnodes a b hab).2)

variable (hsorted : edges.Pairwise fun e e' => nodes.idxOf e.2 ≤ nodes.idxOf e'.2)

include hsorted

theorem before_of_precedes {x y : ι} (h : Precedes nodes edges priority x y) : Before l x y := by
  have hmem : ∀ {v}, v ∈ nodes → v ∈ l := fun hv =>
    (perm_of_acyclic hnodup hnodes hl hacyclic).mem_iff.2 hv
  have hedge : ∀ {a b}, Edge edges a b → Before l a b := before_of_edge hnodup hnodes hl hacyclic
  have hchoice : ∀ {x y}, x ∈ nodes → y ∈ nodes → x ≠ y → (∀ c, Edge edges c x → Before l c y) →
      Before l x y ∨ Outranks nodes edges priority l y x := fun hx hy =>
    sortNodes_choice hnodup (fun a b hab => (hnodes a b hab).2) hsorted hl hx (hmem hy)
  induction h with
  | edge hxy => exact hedge hxy
  | trans _ _ ih ih' => exact ih.trans ih'
  | @priority x y hx hy hlt _ ih =>
    rcases hchoice hx hy (by rintro rfl; omega) ih with hbefore | hlt' | ⟨heq, -⟩
    · exact hbefore
    · omega
    · omega
  | @ready x y d hx heq hd _ ih =>
    have hne : x ≠ y := by
      rintro rfl
      exact not_before_self (ih d hd)
    have hready : ∀ c, Edge edges c x → Before l c y := fun c hc => (ih c hc).trans (hedge hd)
    rcases hchoice hx (hnodes d y hd).2 hne hready with hbefore | hlt | ⟨-, hready' | ⟨-, hall⟩⟩
    · exact hbefore
    · omega
    · -- `y` cannot have been ready before something that came before `d`
      obtain ⟨d', hd', hall⟩ := hready'
      exact absurd (ih d' hd') (hall d hd).asymm
    · obtain ⟨d', hd', rfl | hbefore⟩ := hall d hd
      · exact absurd (ih d hd') not_before_self
      · exact absurd (ih d' hd') hbefore.asymm
  | @listed x y w hx hy heq hidx hw _ ih =>
    have hne : x ≠ y := by
      rintro rfl
      omega
    have hready : ∀ c, Edge edges c x → Before l c y := by
      intro c hc
      by_cases h : c = w c
      · rw [h]
        exact hedge (hw c hc)
      · exact (ih c hc h).trans (hedge (hw c hc))
    rcases hchoice hx hy hne hready with hbefore | hlt | ⟨-, ⟨d, hd, hall⟩ | ⟨hidx', -⟩⟩
    · exact hbefore
    · omega
    · have hback := hall (w d) (hw d hd)
      by_cases h : d = w d
      · rw [← h] at hback
        exact absurd hback not_before_self
      · exact absurd (ih d hd h) hback.asymm
    · omega

/-- The derivation, by the position of the later node and then of the earlier one: if the
later node was not ready when the earlier one was taken, it waited for something in
between; otherwise the choice says why the earlier one was taken. -/
theorem precedes_of_before {x y : ι} (h : Before l x y) : Precedes nodes edges priority x y := by
  have hmem : ∀ {v}, v ∈ l → v ∈ nodes := fun hv =>
    (perm_of_acyclic hnodup hnodes hl hacyclic).mem_iff.1 hv
  have hedge : ∀ {a b}, Edge edges a b → Before l a b := before_of_edge hnodup hnodes hl hacyclic
  induction hn : l.idxOf y using Nat.strong_induction_on generalizing x y with
  | _ n ihy =>
    induction hm : l.idxOf x using Nat.strong_induction_on generalizing x with
    | _ m ihx =>
      subst hn hm
      -- whatever comes before something that `y` waits for
      have hearlier : ∀ {c d}, Edge edges d y → Before l c d → Precedes nodes edges priority c d :=
        fun hd hcd => ihy _ (hedge hd).2 hcd rfl
      by_cases hready : ∀ d, Edge edges d y → Before l d x
      · have hxc : ∀ c, Edge edges c x → Precedes nodes edges priority c y := fun c hc =>
          ihx _ (hedge hc).2 ((hedge hc).trans h) rfl
        have hne : y ≠ x := by
          rintro rfl
          exact not_before_self h
        rcases sortNodes_choice hnodup (fun a b hab => (hnodes a b hab).2) hsorted hl (hmem h.1)
          h.mem_left hne hready with hbefore | hlt | ⟨heq, ⟨d, hd, hall⟩ | ⟨hidx, hall⟩⟩
        · exact absurd h hbefore.asymm
        · exact .priority (hmem h.mem_left) (hmem h.1) hlt hxc
        · exact .ready (hmem h.mem_left) heq hd fun c hc => hearlier hd (hall c hc)
        · choose! w hw using hall
          refine .listed w (hmem h.mem_left) (hmem h.1) heq hidx (fun c hc => (hw c hc).1) ?_
          intro c hc hne
          exact hearlier (hw c hc).1 ((hw c hc).2.resolve_left hne)
      · push Not at hready
        obtain ⟨d, hd, hnot⟩ := hready
        by_cases hxd : x = d
        · rw [hxd]
          exact .edge hd
        · have hbefore : Before l x d :=
            (before_or_before h.mem_left (hedge hd).mem_left hxd).resolve_right hnot
          exact .trans (hearlier hd hbefore) (.edge hd)

/-- **The order of the result is the one that is derived.** -/
theorem before_iff_precedes {x y : ι} : Before l x y ↔ Precedes nodes edges priority x y :=
  ⟨precedes_of_before hnodup hnodes hl hacyclic hsorted,
    before_of_precedes hnodup hnodes hl hacyclic hsorted⟩

end Order

end ScamOn.TopologicalSort
