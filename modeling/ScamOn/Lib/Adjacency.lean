import Mathlib.Algebra.GroupWithZero.Nat
import Mathlib.Data.Finset.Basic
import Mathlib.Data.Finset.Card
import Mathlib.Data.Finset.Dedup
import Mathlib.Logic.Relation
import ScamOn.Lib.Dict

/-!
# Adjacency lists

A directed graph that grows by one edge at a time: a set of nodes, and for each node that an edge
leaves, the nodes it leads to, in the order in which they were added.

* `Adjacency` carries what makes it a graph: no list is empty or names a node twice, and the nodes
  are the ends of the edges.
* `addEdge` adds an edge, `ofEdges` those of a list that are valid.
* `linked_ofEdges`: the edges are the valid ones of the list, in whatever order and however often.
* `edgeCount_eq_card`: the lengths of the lists add up to the number of edges.
* `forall_reaches_iff` and `eq_of_reaches` say which nodes are reached from a root.
-/

namespace ScamOn

variable {κ : Type*} [DecidableEq κ]

/-- The list of a node, empty if it has none. -/
def Dict.listAt {ν : Type*} (d : Dict κ (List ν)) (a : κ) : List ν := (d.get? a).getD []

/-- A graph by its adjacency lists. -/
structure Adjacency (κ : Type*) [DecidableEq κ] where
  nodes : Finset κ
  edges : Dict κ (List κ)
  /-- A list is not empty, and names no node twice. -/
  lists : ∀ a bs, edges.get? a = some bs → bs ≠ [] ∧ bs.Nodup
  /-- The nodes are the ends of the edges. -/
  mem_nodes : ∀ n, n ∈ nodes ↔ ∃ m, m ∈ edges.listAt n ∨ n ∈ edges.listAt m

namespace Adjacency

/-- There is an edge from one node to the other. -/
def Linked (g : Adjacency κ) (a b : κ) : Prop := b ∈ g.edges.listAt a

instance (g : Adjacency κ) (a b : κ) : Decidable (g.Linked a b) :=
  inferInstanceAs (Decidable (b ∈ g.edges.listAt a))

/-- The graph without nodes. -/
def empty : Adjacency κ where
  nodes := ∅
  edges := ∅
  lists := by simp
  mem_nodes := by simp [Dict.listAt]

/-- The list of the first node of an edge, with the second. -/
def extend (bs : List κ) (b : κ) : List κ := if b ∈ bs then bs else bs ++ [b]

theorem mem_extend {bs : List κ} {b c : κ} : c ∈ extend bs b ↔ c ∈ bs ∨ c = b := by
  unfold extend
  split_ifs with h
  · constructor
    · exact .inl
    · rintro (hc | rfl)
      · exact hc
      · exact h
  · simp

theorem nodup_extend {bs : List κ} (h : bs.Nodup) (b : κ) : (extend bs b).Nodup := by
  unfold extend
  split_ifs with hb
  · exact h
  · exact h.append (List.nodup_singleton b) (by simpa using hb)

theorem listAt_set (d : Dict κ (List κ)) (a c : κ) (bs : List κ) :
    (d.set a bs).listAt c = if c = a then bs else d.listAt c := by
  unfold Dict.listAt
  rw [Dict.get?_set]
  split_ifs <;> rfl

theorem nodup_listAt (g : Adjacency κ) (a : κ) : (g.edges.listAt a).Nodup := by
  unfold Dict.listAt
  cases h : g.edges.get? a with
  | none => exact List.nodup_nil
  | some bs => exact (g.lists a bs h).2

theorem mem_listAt_extend {d : Dict κ (List κ)} {a b c e : κ} :
    e ∈ (d.set a (extend (d.listAt a) b)).listAt c ↔ e ∈ d.listAt c ∨ c = a ∧ e = b := by
  rw [listAt_set]
  split_ifs with h
  · rw [mem_extend, h]
    simp
  · simp [h]

/-- One more edge. -/
def addEdge (g : Adjacency κ) (a b : κ) : Adjacency κ where
  nodes := insert b (insert a g.nodes)
  edges := g.edges.set a (extend (g.edges.listAt a) b)
  lists := by
    intro c bs hbs
    rw [Dict.get?_set] at hbs
    split_ifs at hbs with hc
    · cases hbs
      exact ⟨List.ne_nil_of_mem (mem_extend.2 (.inr rfl)), nodup_extend (g.nodup_listAt a) b⟩
    · exact g.lists c bs hbs
  mem_nodes := by
    intro n
    simp only [Finset.mem_insert, g.mem_nodes, mem_listAt_extend]
    constructor
    · rintro (rfl | rfl | ⟨m, hm | hm⟩)
      · exact ⟨a, .inr (.inr ⟨rfl, rfl⟩)⟩
      · exact ⟨b, .inl (.inr ⟨rfl, rfl⟩)⟩
      · exact ⟨m, .inl (.inl hm)⟩
      · exact ⟨m, .inr (.inl hm)⟩
    · rintro ⟨m, (hm | ⟨rfl, rfl⟩) | (hm | ⟨rfl, rfl⟩)⟩
      · exact .inr (.inr ⟨m, .inl hm⟩)
      · exact .inr (.inl rfl)
      · exact .inr (.inr ⟨m, .inr hm⟩)
      · exact .inl rfl

variable {g : Adjacency κ} {a b c d : κ}

@[simp] theorem linked_addEdge : (g.addEdge a b).Linked c d ↔ g.Linked c d ∨ c = a ∧ d = b :=
  mem_listAt_extend

@[simp] theorem not_linked_empty : ¬(empty : Adjacency κ).Linked a b := by
  simp [Linked, empty, Dict.listAt]

theorem mem_nodes_iff {n : κ} : n ∈ g.nodes ↔ ∃ m, g.Linked n m ∨ g.Linked m n := g.mem_nodes n

/-! ## The edges of a list -/

section OfEdges

variable (valid : κ → κ → Prop) [DecidableRel valid]

/-- The edge, if it is valid. -/
def addIf (g : Adjacency κ) (e : κ × κ) : Adjacency κ := if valid e.1 e.2 then g.addEdge e.1 e.2 else g

/-- The graph of the valid edges of a list. -/
def ofEdges (es : List (κ × κ)) : Adjacency κ := es.foldl (addIf valid) empty

variable {valid}

theorem linked_foldl {es : List (κ × κ)} :
    (es.foldl (addIf valid) g).Linked c d ↔ g.Linked c d ∨ (c, d) ∈ es ∧ valid c d := by
  induction es generalizing g with
  | nil => simp
  | cons e es ih =>
    rw [List.foldl_cons, ih, addIf]
    split_ifs with he
    · rw [linked_addEdge, List.mem_cons]
      constructor
      · rintro ((h | ⟨rfl, rfl⟩) | h)
        · exact .inl h
        · exact .inr ⟨.inl rfl, he⟩
        · exact .inr ⟨.inr h.1, h.2⟩
      · rintro (h | ⟨rfl | h, hvalid⟩)
        · exact .inl (.inl h)
        · exact .inl (.inr ⟨rfl, rfl⟩)
        · exact .inr ⟨h, hvalid⟩
    · rw [List.mem_cons]
      constructor
      · rintro (h | h)
        · exact .inl h
        · exact .inr ⟨.inr h.1, h.2⟩
      · rintro (h | ⟨rfl | h, hvalid⟩)
        · exact .inl h
        · exact absurd hvalid he
        · exact .inr ⟨h, hvalid⟩

/-- **The edges** are the valid ones of the list. -/
theorem linked_ofEdges {es : List (κ × κ)} :
    (ofEdges valid es).Linked c d ↔ (c, d) ∈ es ∧ valid c d := by
  unfold ofEdges
  rw [linked_foldl]
  simp

end OfEdges

/-! ## Counting -/

/-- The edges, one after the other. -/
def pairs (g : Adjacency κ) : List (κ × κ) := g.edges.entries.flatMap fun e => e.2.map (Prod.mk e.1)

/-- How many edges there are, list by list. -/
def edgeCount (g : Adjacency κ) : ℕ := (g.edges.values.map List.length).sum

theorem length_pairs (g : Adjacency κ) : g.pairs.length = g.edgeCount := by
  simp [pairs, edgeCount, Dict.values, List.length_flatMap, Function.comp_def]

theorem mem_pairs : (a, b) ∈ g.pairs ↔ g.Linked a b := by
  simp only [pairs, List.mem_flatMap, List.mem_map, Prod.mk.injEq, Linked, Dict.listAt]
  constructor
  · rintro ⟨⟨c, bs⟩, hentry, d, hd, rfl, rfl⟩
    rw [Dict.mem_entries_iff.1 hentry]
    exact hd
  · intro hb
    cases h : g.edges.get? a with
    | none =>
      rw [h] at hb
      cases hb
    | some bs =>
      rw [h] at hb
      exact ⟨(a, bs), Dict.mem_entries_iff.2 h, b, hb, rfl, rfl⟩

theorem nodup_pairs (g : Adjacency κ) : g.pairs.Nodup := by
  unfold pairs
  rw [List.nodup_flatMap]
  constructor
  · rintro ⟨a, bs⟩ hentry
    exact ((g.lists a bs (Dict.mem_entries_iff.1 hentry)).2).map (Prod.mk_right_injective a)
  · have hkeys : g.edges.entries.Pairwise fun e e' => e.1 ≠ e'.1 := List.pairwise_map.1 g.edges.nodup
    refine hkeys.imp fun {e e'} hne => ?_
    intro p hp hp'
    obtain ⟨b, -, rfl⟩ := List.mem_map.1 hp
    obtain ⟨b', -, heq⟩ := List.mem_map.1 hp'
    exact hne (congrArg Prod.fst heq).symm

/-- **The lengths of the lists** add up to the number of edges. -/
theorem edgeCount_eq_card {s : Finset (κ × κ)} (h : ∀ a b, (a, b) ∈ s ↔ g.Linked a b) :
    g.edgeCount = s.card := by
  have hs : g.pairs.toFinset = s := by
    ext ⟨a, b⟩
    rw [List.mem_toFinset, mem_pairs, h]
  rw [← length_pairs, ← hs, List.toFinset_card_of_nodup g.nodup_pairs]

/-! ## Reaching nodes -/

/-- The nodes that are reached from a root. -/
def Reaches (g : Adjacency κ) (root n : κ) : Prop := Relation.ReflTransGen g.Linked root n

/-- **Every node is reached** exactly if the nodes that edges leave are, if there is an edge. -/
theorem forall_reaches_iff {root : κ} :
    (∀ n ∈ g.nodes, g.Reaches root n) ↔ ∀ a b, g.Linked a b → g.Reaches root a := by
  constructor
  · intro h a b hab
    exact h a (mem_nodes_iff.2 ⟨b, .inl hab⟩)
  · intro h n hn
    obtain ⟨m, hm | hm⟩ := mem_nodes_iff.1 hn
    · exact h n m hm
    · exact (h m n hm).tail hm

/-- A node that no edge leads to is not reached, unless it is the root. -/
theorem eq_of_reaches {root n : κ} (h : g.Reaches root n) (hn : ∀ m, ¬g.Linked m n) : n = root := by
  rcases Relation.ReflTransGen.cases_tail h with heq | ⟨m, -, hm⟩
  · exact heq
  · exact absurd hm (hn m)

end Adjacency
end ScamOn
