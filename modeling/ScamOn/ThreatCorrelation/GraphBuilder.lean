import Mathlib.Data.String.Basic
import ScamOn.Lib.Adjacency
import ScamOn.Lib.Ranking
import ScamOn.ThreatCorrelation.Pipeline

/-!
# The graph of indicators

`IOCGraphBuilder.build_graph` links the sender of an e-mail to the domains, URLs and redirects that
the other modules found in it, and these to the domains and addresses behind them.

* `edgeRequests` are the calls of `add_edge`, in order; `buildGraph` is the function.
* `relationshipGraph_exact`: what it returns is the graph of the requests that name two different nodes,
  with the numbers of its nodes and its edges.
* `reaches_all_iff`: every indicator is reached from the sender exactly if the sender has an
  address, with a domain if SPF has one, and no redirect without a URL has an address.
-/

namespace ScamOn.ThreatCorrelation

/-! ## Data -/

/-- `address.split("@")[-1] if "@" in address else ""`. -/
def domainOf (address : String) : String :=
  if address.toList.contains '@' then
    String.ofList (address.toList.reverse.takeWhile (· ≠ '@')).reverse
  else ""

example : domainOf "a@b@corp.test" = "corp.test" ∧ domainOf "corp.test" = "" ∧ domainOf "a@" = "" := by
  decide

/-- `ExtractedURLDTO`, as far as it is read. -/
structure ExtractedUrl where
  url : String
  domain : String

/-- `URLRedirectHopDTO`, as far as it is read. -/
structure RedirectHop where
  canonicalUrl : String
  resolvedIp : String

/-- The arguments of `build_graph`, as far as they are read: the sender and the URLs of the e-mail,
and of each result that there is, the domain of the sender, the one of SPF, the URLs in QR codes,
and the redirects. -/
structure GraphInputs where
  senderAddress : String
  urls : List ExtractedUrl
  fromDomain : Option String
  spfDomain : Option String
  qrExtractedUrls : Option (List String)
  hops : Option (List RedirectHop)

/-! ## The builder -/

section Builder

variable (lower : String → String) (x : GraphInputs)

/-- `sender_email`. -/
def GraphInputs.senderEmail : String := lower x.senderAddress

/-- `sender_domain`. -/
def GraphInputs.senderDomain : String := domainOf (x.senderEmail lower)

/-- The domain of the transmission analysis, empty if there is none. -/
def GraphInputs.fromDom : String := (x.fromDomain.map lower).getD ""

/-- The domain of SPF, empty if there is none. -/
def GraphInputs.spfDom : String := (x.spfDomain.map lower).getD ""

/-- The address of a hop is taken. -/
def RedirectHop.HasIp (hop : RedirectHop) : Prop := hop.resolvedIp ≠ "" ∧ hop.resolvedIp ≠ "0.0.0.0"

instance (hop : RedirectHop) : Decidable hop.HasIp := inferInstanceAs (Decidable (_ ∧ _))

/-- The calls of `add_edge`, in order. -/
def edgeRequests : List (String × String) :=
  let sender := x.senderEmail lower
  let domain := x.senderDomain lower
  (if sender ≠ "" ∧ domain ≠ "" then [(sender, "domain:" ++ domain)] else []) ++
  (if x.fromDom lower ≠ "" then [(sender, "domain:" ++ x.fromDom lower)] else []) ++
  (if x.spfDom lower ≠ "" then
    [("domain:" ++ domain, "spf_domain:" ++ x.spfDom lower)] else []) ++
  (x.urls.flatMap fun u =>
    (sender, "url:" ++ lower u.url) ::
      if lower u.domain ≠ "" then [("url:" ++ lower u.url, "domain:" ++ lower u.domain)] else []) ++
  ((x.qrExtractedUrls.getD []).map fun u => (sender, "qr_url:" ++ lower u)) ++
  ((x.hops.getD []).flatMap fun hop =>
    (if lower hop.canonicalUrl ≠ "" then
      [(sender, "redirect_url:" ++ lower hop.canonicalUrl)] else []) ++
    if hop.HasIp then
      [("redirect_url:" ++ lower hop.canonicalUrl, "ip:" ++ hop.resolvedIp)] else [])

/-- Whether `add_edge` adds an edge. -/
def Valid (src dst : String) : Prop := src ≠ "" ∧ dst ≠ "" ∧ src ≠ dst

instance : DecidableRel Valid := fun _ _ => inferInstanceAs (Decidable (_ ∧ _))

/-- The graph that is built. -/
def graphOf : Adjacency String := .ofEdges Valid (edgeRequests lower x)

/-- `build_graph`. -/
def buildGraph : RelationshipGraph where
  nodes := sortedSet (graphOf lower x).nodes
  edges := (graphOf lower x).edges
  totalNodes := (graphOf lower x).nodes.card
  totalEdges := (graphOf lower x).edgeCount

/-! ## The edges -/

/-- What `add_edge` is called with. -/
inductive Requested : String → String → Prop
  | sender (h : x.senderEmail lower ≠ "") (h' : x.senderDomain lower ≠ "") :
    Requested (x.senderEmail lower) ("domain:" ++ x.senderDomain lower)
  | transmission (h : x.fromDom lower ≠ "") :
    Requested (x.senderEmail lower) ("domain:" ++ x.fromDom lower)
  | spf (h : x.spfDom lower ≠ "") :
    Requested ("domain:" ++ x.senderDomain lower) ("spf_domain:" ++ x.spfDom lower)
  | url {u : ExtractedUrl} (h : u ∈ x.urls) :
    Requested (x.senderEmail lower) ("url:" ++ lower u.url)
  | urlDomain {u : ExtractedUrl} (h : u ∈ x.urls) (h' : lower u.domain ≠ "") :
    Requested ("url:" ++ lower u.url) ("domain:" ++ lower u.domain)
  | qr {u : String} (h : u ∈ x.qrExtractedUrls.getD []) :
    Requested (x.senderEmail lower) ("qr_url:" ++ lower u)
  | redirect {hop : RedirectHop} (h : hop ∈ x.hops.getD []) (h' : lower hop.canonicalUrl ≠ "") :
    Requested (x.senderEmail lower) ("redirect_url:" ++ lower hop.canonicalUrl)
  | ip {hop : RedirectHop} (h : hop ∈ x.hops.getD []) (h' : hop.HasIp) :
    Requested ("redirect_url:" ++ lower hop.canonicalUrl) ("ip:" ++ hop.resolvedIp)

variable {lower x} {a b : String}

theorem mem_edgeRequests : (a, b) ∈ edgeRequests lower x ↔ Requested lower x a b := by
  unfold edgeRequests
  simp only [List.mem_append, List.mem_ite_nil_right, List.mem_flatMap,
    List.mem_cons, List.mem_map, List.not_mem_nil, or_false, Prod.mk.injEq]
  constructor
  · rintro (((((⟨⟨h, h'⟩, rfl, rfl⟩ | ⟨h, rfl, rfl⟩) | ⟨h, rfl, rfl⟩) |
      ⟨u, hu, ⟨rfl, rfl⟩ | ⟨h', rfl, rfl⟩⟩) | ⟨u, hu, rfl, rfl⟩) |
      ⟨hop, hhop, ⟨h', rfl, rfl⟩ | ⟨h', rfl, rfl⟩⟩)
    · exact .sender h h'
    · exact .transmission h
    · exact .spf h
    · exact .url hu
    · exact .urlDomain hu h'
    · exact .qr hu
    · exact .redirect hhop h'
    · exact .ip hhop h'
  · rintro (⟨h, h'⟩ | h | h | h | ⟨h, h'⟩ | h | ⟨h, h'⟩ | ⟨h, h'⟩)
    · exact .inl (.inl (.inl (.inl (.inl ⟨⟨h, h'⟩, rfl, rfl⟩))))
    · exact .inl (.inl (.inl (.inl (.inr ⟨h, rfl, rfl⟩))))
    · exact .inl (.inl (.inl (.inr ⟨h, rfl, rfl⟩)))
    · exact .inl (.inl (.inr ⟨_, h, .inl ⟨rfl, rfl⟩⟩))
    · exact .inl (.inl (.inr ⟨_, h, .inr ⟨h', rfl, rfl⟩⟩))
    · exact .inl (.inr ⟨_, h, rfl, rfl⟩)
    · exact .inr ⟨_, h, .inl ⟨h', rfl, rfl⟩⟩
    · exact .inr ⟨_, h, .inr ⟨h', rfl, rfl⟩⟩

theorem linked_graphOf : (graphOf lower x).Linked a b ↔ Requested lower x a b ∧ Valid a b := by
  unfold graphOf
  rw [Adjacency.linked_ofEdges, mem_edgeRequests]

/-- **What is built**: the nodes in order, each once, being the ends of the edges; lists without a
node twice, which link what was requested, unless an end is empty or both are the same; and the
numbers of both. -/
theorem relationshipGraph_exact (lower : String → String) (x : GraphInputs) :
    (buildGraph lower x).nodes.Pairwise (· < ·) ∧
      (∀ n, n ∈ (buildGraph lower x).nodes ↔
        ∃ m, (Requested lower x n m ∧ Valid n m) ∨ (Requested lower x m n ∧ Valid m n)) ∧
      (∀ a b, b ∈ (buildGraph lower x).edges.listAt a ↔ Requested lower x a b ∧ Valid a b) ∧
      (∀ a bs, (buildGraph lower x).edges.get? a = some bs → bs ≠ [] ∧ bs.Nodup) ∧
      (buildGraph lower x).totalNodes = (buildGraph lower x).nodes.length ∧
      (buildGraph lower x).totalEdges =
        ((edgeRequests lower x).toFinset.filter fun e => Valid e.1 e.2).card := by
  refine ⟨pairwise_sortedSet _, fun n => ?_, fun a b => linked_graphOf,
    (graphOf lower x).lists, (length_sortedSet _).symm, ?_⟩
  · show n ∈ sortedSet (graphOf lower x).nodes ↔ _
    rw [mem_sortedSet, Adjacency.mem_nodes_iff]
    simp only [linked_graphOf]
  · refine Adjacency.edgeCount_eq_card fun a b => ?_
    rw [Finset.mem_filter, List.mem_toFinset, mem_edgeRequests, linked_graphOf]

/-! ## What the sender reaches -/

/-- Texts that begin with different characters are different. -/
theorem append_ne {s t u : String} (hs : s.toList ≠ []) (h : s.toList.head? ≠ u.toList.head?) :
    s ++ t ≠ u := by
  intro heq
  rw [← heq, String.toList_append, List.head?_append_of_ne_nil _ hs] at h
  exact h rfl

theorem append_ne_self {s t : String} (h : t ≠ "") : s ++ t ≠ s := by
  intro heq
  have hchars := congrArg String.toList heq
  rw [String.toList_append, List.append_right_eq_self] at hchars
  exact h (String.toList_inj.1 hchars)

/-- No edge leads to a domain or a redirect without a name. -/
theorem ne_of_requested (h : Requested lower x a b) : b ≠ "domain:" ∧ b ≠ "redirect_url:" := by
  cases h with
  | sender h h' => exact ⟨append_ne_self h', append_ne (by decide) (by decide)⟩
  | transmission h => exact ⟨append_ne_self h, append_ne (by decide) (by decide)⟩
  | spf h => exact ⟨append_ne (by decide) (by decide), append_ne (by decide) (by decide)⟩
  | url h => exact ⟨append_ne (by decide) (by decide), append_ne (by decide) (by decide)⟩
  | urlDomain h h' => exact ⟨append_ne_self h', append_ne (by decide) (by decide)⟩
  | qr h => exact ⟨append_ne (by decide) (by decide), append_ne (by decide) (by decide)⟩
  | redirect h h' => exact ⟨append_ne (by decide) (by decide), append_ne_self h'⟩
  | ip h h' => exact ⟨append_ne (by decide) (by decide), append_ne (by decide) (by decide)⟩

/-- What the sender asks to be linked to is reached, if the sender has an address. -/
theorem reaches_of_requested (hs : x.senderEmail lower ≠ "") (hb : b ≠ "")
    (h : Requested lower x (x.senderEmail lower) b) :
    (graphOf lower x).Reaches (x.senderEmail lower) b := by
  by_cases hself : x.senderEmail lower = b
  · rw [← hself]
    exact .refl
  · exact .single (linked_graphOf.2 ⟨h, hs, hb, hself⟩)

/-- A node that nothing leads to is reached if it is the sender. -/
theorem reaches_iff_of_ne (h : ∀ a, ¬Requested lower x a b) :
    (graphOf lower x).Reaches (x.senderEmail lower) b ↔ x.senderEmail lower = b := by
  constructor
  · intro hreach
    refine (Adjacency.eq_of_reaches hreach fun m hm => ?_).symm
    exact h m (linked_graphOf.1 hm).1
  · rintro rfl
    exact .refl

/-- Without an address, the sender reaches nothing else. -/
theorem eq_of_reaches_empty (h : (graphOf lower x).Reaches "" b) : b = "" := by
  rcases Relation.ReflTransGen.cases_head h with heq | ⟨m, hm, -⟩
  · exact heq.symm
  · exact absurd rfl (linked_graphOf.1 hm).2.1

/-- Nodes of two kinds can be linked. -/
theorem valid_append {s t s' t' : String} (hs : s.toList ≠ []) (hs' : s'.toList ≠ [])
    (h : s.toList.head? ≠ s'.toList.head?) : Valid (s ++ t) (s' ++ t') := by
  have hempty : ∀ {u v : String}, u.toList ≠ [] → u ++ v ≠ "" := fun hu =>
    append_ne hu (by simpa using hu)
  refine ⟨hempty hs, hempty hs', append_ne hs ?_⟩
  rw [String.toList_append, List.head?_append_of_ne_nil _ hs']
  exact h

theorem linked_spf (h : x.spfDom lower ≠ "") :
    (graphOf lower x).Linked ("domain:" ++ x.senderDomain lower) ("spf_domain:" ++ x.spfDom lower) :=
  linked_graphOf.2 ⟨.spf h, valid_append (by decide) (by decide) (by decide)⟩

theorem linked_urlDomain {u : ExtractedUrl} (hu : u ∈ x.urls) (h : lower u.domain ≠ "") :
    (graphOf lower x).Linked ("url:" ++ lower u.url) ("domain:" ++ lower u.domain) :=
  linked_graphOf.2 ⟨.urlDomain hu h, valid_append (by decide) (by decide) (by decide)⟩

theorem linked_ip {hop : RedirectHop} (hhop : hop ∈ x.hops.getD []) (h : hop.HasIp) :
    (graphOf lower x).Linked ("redirect_url:" ++ lower hop.canonicalUrl) ("ip:" ++ hop.resolvedIp) :=
  linked_graphOf.2 ⟨.ip hhop h, valid_append (by decide) (by decide) (by decide)⟩

/-- When every indicator is reached from the sender.  Without an address, there must be nothing to
reach; with one, SPF needs a domain of the sender, and the address of a redirect its URL. -/
structure Anchored (lower : String → String) (x : GraphInputs) : Prop where
  nothing : x.senderEmail lower = "" → x.spfDom lower = "" ∧ (∀ u ∈ x.urls, lower u.domain = "") ∧
    ∀ hop ∈ x.hops.getD [], ¬hop.HasIp
  spf : x.senderEmail lower ≠ "" → x.spfDom lower ≠ "" →
    x.senderDomain lower ≠ "" ∨ x.senderEmail lower = "domain:"
  redirects : x.senderEmail lower ≠ "" → ∀ hop ∈ x.hops.getD [], hop.HasIp →
    lower hop.canonicalUrl ≠ "" ∨ x.senderEmail lower = "redirect_url:"

/-- **Every indicator is reached from the sender** exactly if they are anchored. -/
theorem reaches_all_iff (lower : String → String) (x : GraphInputs) :
    (∀ n ∈ (buildGraph lower x).nodes, (graphOf lower x).Reaches (x.senderEmail lower) n) ↔
      Anchored lower x := by
  have hnodes : (∀ n ∈ (buildGraph lower x).nodes,
      (graphOf lower x).Reaches (x.senderEmail lower) n) ↔
        ∀ n ∈ (graphOf lower x).nodes, (graphOf lower x).Reaches (x.senderEmail lower) n := by
    simp [buildGraph]
  rw [hnodes, Adjacency.forall_reaches_iff]
  constructor
  · intro hall
    have hempty : ∀ {a b : String}, x.senderEmail lower = "" → (graphOf lower x).Linked a b → False := by
      intro a b hs hab
      have hreach := hall a b hab
      rw [hs] at hreach
      exact (linked_graphOf.1 hab).2.1 (eq_of_reaches_empty hreach)
    refine ⟨fun hs => ⟨?_, fun u hu => ?_, fun hop hhop hip => hempty hs (linked_ip hhop hip)⟩,
      fun _ hspf => ?_, fun _ hop hhop hip => ?_⟩
    · by_contra hspf
      exact hempty hs (linked_spf hspf)
    · by_contra hdomain
      exact hempty hs (linked_urlDomain hu hdomain)
    · by_contra hne
      simp only [not_or, not_not] at hne
      have hreach := hall _ _ (linked_spf hspf)
      rw [hne.1, String.append_empty, reaches_iff_of_ne fun a h => (ne_of_requested h).1 rfl] at hreach
      exact hne.2 hreach
    · by_contra hne
      simp only [not_or, not_not] at hne
      have hreach := hall _ _ (linked_ip hhop hip)
      rw [hne.1, String.append_empty, reaches_iff_of_ne fun a h => (ne_of_requested h).2 rfl] at hreach
      exact hne.2 hreach
  · intro h a b hab
    obtain ⟨hrequested, hvalid⟩ := linked_graphOf.1 hab
    by_cases hs : x.senderEmail lower = ""
    · obtain ⟨hspf, hdomains, hips⟩ := h.nothing hs
      cases hrequested with
      | sender h' _ => exact .refl
      | transmission _ => exact .refl
      | spf h' => exact absurd hspf h'
      | url _ => exact .refl
      | urlDomain hu h' => exact absurd (hdomains _ hu) h'
      | qr _ => exact .refl
      | redirect _ _ => exact .refl
      | ip hhop h' => exact absurd h' (hips _ hhop)
    · cases hrequested with
      | sender _ _ => exact .refl
      | transmission _ => exact .refl
      | url _ => exact .refl
      | qr _ => exact .refl
      | redirect _ _ => exact .refl
      | spf hspf =>
        by_cases hdomain : x.senderDomain lower = ""
        · have hself := (h.spf hs hspf).resolve_left (absurd hdomain)
          rw [hdomain, String.append_empty, ← hself]
          exact .refl
        · exact reaches_of_requested hs hvalid.1 (.sender hs hdomain)
      | urlDomain hu _ => exact reaches_of_requested hs hvalid.1 (.url hu)
      | @ip hop hhop hip =>
        by_cases hurl : lower hop.canonicalUrl = ""
        · have hself := (h.redirects hs hop hhop hip).resolve_left (absurd hurl)
          rw [hurl, String.append_empty, ← hself]
          exact .refl
        · exact reaches_of_requested hs hvalid.1 (.redirect hhop hurl)

end Builder

end ScamOn.ThreatCorrelation
