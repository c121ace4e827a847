import Mathlib.Data.List.Count
import Mathlib.Logic.Relation

/-!
# Depth-first search for a cycle

The three-colour search: a node is unvisited, being visited, or done with, and
an edge into a node that is being visited closes a cycle.  The graph is given by
the list of neighbours of each node.

* `visit` is the recursive function, with the depth it may still go to; `search`
  starts it at every node that is still unvisited.
* `visit_spec` is what one call does to the colours.  A node that is done with is
  accessible against the edges, which is why it lies on no cycle; a node that is
  being visited leads to the current one, which is why an edge into it closes one.
* `search_eq_none_iff`: if the depth is at least the number of nodes, the search
  returns, and it reports a node exactly if there is a cycle.
-/

namespace ScamOn.DepthFirst

open Relation

variable {ι : Type*}

/-- Unvisited, being visited, done with. -/
inductive Colour
  | unvisited | visiting | visited
  deriving DecidableEq, Repr

abbrev Colours (ι : Type*) : Type _ := ι → Colour

/-- One node is a neighbour of the other. -/
def Edge (adj : ι → List ι) (a b : ι) : Prop := b ∈ adj a

/-- Some node leads back to itself. -/
def HasCycle (adj : ι → List ι) : Prop := ∃ v, TransGen (Edge adj) v v

/-- The loop over the neighbours of a node: whether a cycle was found. -/
def scan (visit : Colours ι → ι → Option (Colours ι × Bool)) :
    Colours ι → List ι → Option (Colours ι × Bool)
  | c, [] => some (c, false)
  | c, neighbor :: rest =>
    match c neighbor with
    | .visiting => some (c, true)
    | .visited => scan visit c rest
    | .unvisited =>
      match visit c neighbor with
      | none => none
      | some (c', true) => some (c', true)
      | some (c', false) => scan visit c' rest

variable [DecidableEq ι]

/-- The search from a node.  It has no result if it would go deeper than allowed. -/
def visit (adj : ι → List ι) : ℕ → Colours ι → ι → Option (Colours ι × Bool)
  | 0, _, _ => none
  | depth + 1, c, node =>
    match scan (visit adj depth) (Function.update c node .visiting) (adj node) with
    | none => none
    | some (c', true) => some (c', true)
    | some (c', false) => some (Function.update c' node .visited, false)

/-- The search from every node in turn: the first one from which a cycle is found. -/
def search (adj : ι → List ι) (depth : ℕ) : Colours ι → List ι → Option (Option ι)
  | _, [] => some none
  | c, node :: rest =>
    match c node with
    | .unvisited =>
      match visit adj depth c node with
      | none => none
      | some (_, true) => some (some node)
      | some (c', false) => search adj depth c' rest
    | _ => search adj depth c rest

/-! ## Colours -/

variable {adj : ι → List ι} {nodes : List ι} {c c' c'' : Colours ι} {node : ι}

/-- What is done with leads to no cycle. -/
def Finished (adj : ι → List ι) (c : Colours ι) : Prop :=
  ∀ v, c v = .visited → Acc (fun b a => Edge adj a b) v

/-- Later colours: the same nodes are being visited, and what is done with stays so. -/
structure Grown (c c' : Colours ι) : Prop where
  visiting_iff : ∀ v, c' v = .visiting ↔ c v = .visiting
  visited : ∀ v, c v = .visited → c' v = .visited

/-- How many nodes are still unvisited. -/
def unvisitedCount (nodes : List ι) (c : Colours ι) : ℕ := nodes.countP fun v => c v = .unvisited

omit [DecidableEq ι] in
theorem Grown.refl (c : Colours ι) : Grown c c := ⟨fun _ => Iff.rfl, fun _ h => h⟩

omit [DecidableEq ι] in
theorem Grown.trans (h : Grown c c') (h' : Grown c' c'') : Grown c c'' :=
  ⟨fun v => (h'.visiting_iff v).trans (h.visiting_iff v), fun v hv => h'.visited v (h.visited v hv)⟩

omit [DecidableEq ι] in
theorem Grown.unvisited (h : Grown c c') {v : ι} (hv : c' v = .unvisited) : c v = .unvisited := by
  cases hc : c v with
  | unvisited => rfl
  | visiting => simp [(h.visiting_iff v).2 hc] at hv
  | visited => simp [h.visited v hc] at hv

omit [DecidableEq ι] in
theorem Grown.unvisitedCount_le (h : Grown c c') (nodes : List ι) :
    unvisitedCount nodes c' ≤ unvisitedCount nodes c := by
  refine List.countP_mono_left fun v _ hv => ?_
  simpa using h.unvisited (by simpa using hv)

/-- Entering a node leaves one unvisited node fewer. -/
theorem unvisitedCount_update_lt (hnode : node ∈ nodes) (hc : c node = .unvisited) :
    unvisitedCount nodes (Function.update c node .visiting) < unvisitedCount nodes c := by
  have hle : ∀ v, Function.update c node .visiting v = .unvisited → c v = .unvisited := by
    intro v hv
    by_cases h : v = node
    · simp [h] at hv
    · simpa [h] using hv
  induction nodes with
  | nil => cases hnode
  | cons v rest ih =>
    have hrest : unvisitedCount rest (Function.update c node .visiting) ≤ unvisitedCount rest c :=
      List.countP_mono_left fun v _ hv => by simpa using hle v (by simpa using hv)
    unfold unvisitedCount at hrest ih ⊢
    by_cases h : v = node
    · subst h
      simp [hc]
      omega
    · have hmem : node ∈ rest := by simpa [Ne.symm h] using hnode
      have hlt := ih hmem
      simp only [List.countP_cons, Function.update_of_ne h]
      omega

omit [DecidableEq ι] in
/-- Something accessible against the edges lies on no cycle. -/
theorem not_cycle_of_acc {v : ι} (h : Acc (fun b a => Edge adj a b) v) :
    ¬TransGen (Edge adj) v v := by
  induction h with
  | intro v _ ih =>
    intro hcycle
    obtain ⟨w, hedge, hback⟩ := TransGen.head'_iff.1 hcycle
    exact ih w hedge (TransGen.tail' hback hedge)

/-! ## What the search does -/

/-- What a call on a node, or the loop over a list of nodes, makes of the colours: it
returns, what it reports is a cycle, and otherwise it is done with the nodes. -/
def Completes (adj : ι → List ι) (c : Colours ι) (targets : List ι)
    (answer : Option (Colours ι × Bool)) : Prop :=
  (∃ c', answer = some (c', true) ∧ HasCycle adj) ∨
    ∃ c', answer = some (c', false) ∧ Grown c c' ∧ Finished adj c' ∧
      ∀ v ∈ targets, c' v = .visited

omit [DecidableEq ι] in
theorem scan_spec {visit : Colours ι → ι → Option (Colours ι × Bool)} {bound : ℕ}
    (hvisit : ∀ c neighbor, Edge adj node neighbor → c neighbor = .unvisited →
      unvisitedCount nodes c ≤ bound → Finished adj c →
      (∀ g, c g = .visiting → ReflTransGen (Edge adj) g node) →
      Completes adj c [neighbor] (visit c neighbor))
    {neighbors : List ι} (hadj : ∀ n ∈ neighbors, Edge adj node n)
    (hbound : unvisitedCount nodes c ≤ bound) (hdone : Finished adj c)
    (hpath : ∀ g, c g = .visiting → ReflTransGen (Edge adj) g node) :
    Completes adj c neighbors (scan visit c neighbors) := by
  induction neighbors generalizing c with
  | nil => exact .inr ⟨c, rfl, Grown.refl c, hdone, by simp⟩
  | cons n rest ih =>
    have hn : Edge adj node n := hadj n (by simp)
    have ih' := fun {c : Colours ι} => ih (c := c) (fun m hm => hadj m (by simp [hm]))
    unfold scan
    cases hc : c n with
    | visiting => exact .inl ⟨c, rfl, n, TransGen.tail' (hpath n hc) hn⟩
    | visited =>
      rcases ih' hbound hdone hpath with hcycle | ⟨c', hscan, hgrown, hdone', hall⟩
      · exact .inl hcycle
      · refine .inr ⟨c', hscan, hgrown, hdone', ?_⟩
        simpa using ⟨hgrown.visited n hc, hall⟩
    | unvisited =>
      rcases hvisit c n hn hc hbound hdone hpath with ⟨c', hfound, hcycle⟩ | ⟨c', hfound, hgrown, hdone', hall⟩
      · simp only [hfound]
        exact .inl ⟨c', rfl, hcycle⟩
      · simp only [hfound]
        have hle := Nat.le_trans (hgrown.unvisitedCount_le nodes) hbound
        rcases ih' hle hdone' (fun g hg => hpath g ((hgrown.visiting_iff g).1 hg)) with
          hcycle | ⟨c'', hscan, hgrown', hdone'', hall'⟩
        · exact .inl hcycle
        · refine .inr ⟨c'', hscan, hgrown.trans hgrown', hdone'', ?_⟩
          simpa using ⟨hgrown'.visited n (hall n (by simp)), hall'⟩

/-- **One call.**  It is made on an unvisited node to which every node being visited leads. -/
theorem visit_spec (hnodes : ∀ a b, Edge adj a b → b ∈ nodes) (depth : ℕ) (hnode : node ∈ nodes)
    (hc : c node = .unvisited) (hdepth : unvisitedCount nodes c ≤ depth) (hdone : Finished adj c)
    (hpath : ∀ g, c g = .visiting → TransGen (Edge adj) g node) :
    Completes adj c [node] (visit adj depth c node) := by
  induction depth generalizing c node with
  | zero =>
    have hpos := unvisitedCount_update_lt hnode hc
    omega
  | succ depth ih =>
    -- the colours on entering the node
    have hdone' : Finished adj (Function.update c node .visiting) := by
      intro v hv
      by_cases h : v = node
      · simp [h] at hv
      · exact hdone v (by simpa [h] using hv)
    have hpath' : ∀ g, Function.update c node .visiting g = .visiting →
        ReflTransGen (Edge adj) g node := by
      intro g hg
      by_cases h : g = node
      · rw [h]
      · exact (hpath g (by simpa [h] using hg)).to_reflTransGen
    have hlt := unvisitedCount_update_lt hnode hc
    have hbelow := fun c n (hn : n ∈ adj node) hc hle hd
        (hp : ∀ g, c g = .visiting → ReflTransGen (Edge adj) g node) =>
      ih (c := c) (hnodes _ n hn) hc hle hd fun g hg => TransGen.tail' (hp g hg) hn
    have hscan := scan_spec hbelow (fun n hn => hn) (by omega) hdone' hpath'
    unfold visit
    rcases hscan with ⟨c', hfound, hcycle⟩ | ⟨c', hfound, hgrown, hdone'', hall⟩
    · simp only [hfound]
      exact .inl ⟨c', rfl, hcycle⟩
    · simp only [hfound]
      refine .inr ⟨_, rfl, ⟨fun v => ?_, fun v hv => ?_⟩, fun v hv => ?_, by simp⟩
      · by_cases h : v = node
        · simp [h, hc]
        · simpa [h] using hgrown.visiting_iff v
      · have h : v ≠ node := by
          rintro rfl
          simp [hc] at hv
        simpa [h] using hgrown.visited v (by simpa [h] using hv)
      · by_cases h : v = node
        · subst h
          exact Acc.intro _ fun n hn => hdone'' n (hall n hn)
        · exact hdone'' v (by simpa [h] using hv)

omit [DecidableEq ι] in
/-- When all nodes are done with, there is no cycle. -/
theorem not_hasCycle_of_finished (hnodes : ∀ a b, Edge adj a b → a ∈ nodes ∧ b ∈ nodes)
    (hdone : Finished adj c) (hall : ∀ v ∈ nodes, c v = .visited) : ¬HasCycle adj := by
  rintro ⟨v, hcycle⟩
  obtain ⟨w, hedge, -⟩ := TransGen.head'_iff.1 hcycle
  exact not_cycle_of_acc (hdone v (hall v (hnodes v w hedge).1)) hcycle

/-- The search over the rest of the nodes, between two calls. -/
theorem search_spec (hnodes : ∀ a b, Edge adj a b → a ∈ nodes ∧ b ∈ nodes) {depth : ℕ}
    (hdepth : nodes.length ≤ depth) {rest : List ι} (hrest : ∀ v ∈ rest, v ∈ nodes)
    (hdone : Finished adj c) (hidle : ∀ v, c v ≠ .visiting)
    (hall : ∀ v ∈ nodes, v ∈ rest ∨ c v = .visited) :
    ∃ found, search adj depth c rest = some found ∧ (found = none ↔ ¬HasCycle adj) := by
  induction rest generalizing c with
  | nil =>
    have hacyclic := not_hasCycle_of_finished hnodes hdone (by simpa using hall)
    exact ⟨none, rfl, by simp [hacyclic]⟩
  | cons node rest ih =>
    have ih' := fun {c : Colours ι} => ih (c := c) (fun v hv => hrest v (by simp [hv]))
    unfold search
    cases hc : c node with
    | visiting => exact absurd hc (hidle node)
    | visited =>
      refine ih' hdone hidle fun v hv => ?_
      rcases hall v hv with hv | hv
      · rcases List.mem_cons.1 hv with rfl | hv
        · exact .inr hc
        · exact .inl hv
      · exact .inr hv
    | unvisited =>
      have hcount : unvisitedCount nodes c ≤ depth := Nat.le_trans List.countP_le_length hdepth
      rcases visit_spec (fun a b h => (hnodes a b h).2) depth (hrest node (by simp)) hc hcount
        hdone (fun g hg => absurd hg (hidle g)) with
        ⟨c', hfound, hcycle⟩ | ⟨c', hfound, hgrown, hdone', hvisited⟩
      · simp only [hfound]
        exact ⟨some node, rfl, by simp [hcycle]⟩
      · simp only [hfound]
        refine ih' hdone' (fun v hv => hidle v ((hgrown.visiting_iff v).1 hv)) fun v hv => ?_
        rcases hall v hv with hv | hv
        · rcases List.mem_cons.1 hv with rfl | hv
          · exact .inr (hvisited v (by simp))
          · exact .inl hv
        · exact .inr (hgrown.visited v hv)

/-- **The search returns, and is right.** -/
theorem search_eq_none_iff (hnodes : ∀ a b, Edge adj a b → a ∈ nodes ∧ b ∈ nodes) {depth : ℕ}
    (hdepth : nodes.length ≤ depth) :
    ∃ found, search adj depth (fun _ => .unvisited) nodes = some found ∧
      (found = none ↔ ¬HasCycle adj) := by
  refine search_spec hnodes hdepth (fun v hv => hv) ?_ (fun v => by simp) (fun v hv => .inl hv)
  intro v hv
  cases hv

end ScamOn.DepthFirst
