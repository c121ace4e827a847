import Mathlib.Algebra.BigOperators.Group.List.Basic
import Mathlib.Data.List.Infix
import Mathlib.Order.Lattice
import Mathlib.Tactic.NormNum
import ScamOn.Lib.Pattern
import ScamOn.Lib.PyValue

/-!
# The timeline of the hops of a mail

`parse_received_hops` reads the `Received` headers of a mail, the last relay first, and
`reconstruct_evaluated_hops` goes through them from the origin on and puts down how long each hop
took.  A date with the zone `-0000` has no zone, and Python does not subtract it from one that
has.

* `evaluate` is the loop, with the timestamp it carries.
* `Consistent` says what a timeline should be of its hops.
* `evaluate_eq_ok_iff`: the loop returns exactly if the dates are all with, or all without, a zone.
* `sum_latencies`: the latencies of dates that do not decrease telescope.
* `consistent_iff` puts the two together, for every list of headers.
-/

namespace ScamOn.Transmission

/-! ## Dates -/

/-- A `datetime` of whole seconds: what the clock shows, and the offset of its zone. -/
structure DateTime where
  wall : ℤ
  utcoffset : Option ℤ
  deriving DecidableEq

namespace DateTime

/-- A date has a zone. -/
def aware (t : DateTime) : Bool := t.utcoffset.isSome

/-- The seconds of a date, in UTC if it has a zone. -/
def instant (t : DateTime) : ℤ := t.wall - t.utcoffset.getD 0

/-- `(t - s).total_seconds()`. -/
def sub (t s : DateTime) : Except PyException ℤ :=
  if t.aware = s.aware then .ok (t.instant - s.instant)
  else .error ⟨"TypeError", "can't subtract offset-naive and offset-aware datetimes"⟩

end DateTime

/-! ## The received hops -/

/-- `ReceivedHopDTO`. -/
structure ReceivedHop where
  hopIndex : ℕ
  fromServer : Option Str
  byServer : Option Str
  clientIp : Option Str
  timestamp : Option DateTime
  protocol : String

/-- What the parser asks of Python. -/
structure HeaderReader where
  /-- `\d`, in an expression on texts. -/
  isDecimal : Char → Bool
  /-- `s.lower()`. -/
  lower : Str → Str
  /-- `parsedate_to_datetime`. -/
  parsedateToDatetime : Str → Except PyException DateTime

section Parse

open Pattern

variable (py : HeaderReader)

/-- `word\s+([^\s;]+)` under `re.IGNORECASE`. -/
def serverPattern (word : String) : Pattern :=
  cat [litFold word, plus space, group "1" (plus (set fun c => !(Text.isSpace c || c = ';')))]

/-- `FROM_PATTERN`. -/
def fromPattern : Pattern := serverPattern "from"

/-- `BY_PATTERN`. -/
def byPattern : Pattern := serverPattern "by"

/-- `\d{1,3}`. -/
def octet : Pattern :=
  cat [set py.isDecimal, opt (cat [set py.isDecimal, opt (set py.isDecimal)])]

/-- `IP_PATTERN`. -/
def ipPattern : Pattern :=
  cat [lit "[", group "1" (cat [octet py, lit ".", octet py, lit ".", octet py, lit ".", octet py]),
    lit "]"]

/-- `m.group(1) if m else None`, for the first match. -/
def firstGroup (r : Pattern) (header : Str) : Option Str := (r.search header).bind (·.group "1")

/-- The date behind the last semicolon. -/
def hopDate (header : Str) : Option DateTime :=
  if header.contains ';' then
    (py.parsedateToDatetime (Chars.strip ((header.splitOn ';').getLastD []))).toOption
  else none

/-- The hop of one header. -/
def receivedHop (idx : ℕ) (header : Str) : ReceivedHop where
  hopIndex := idx
  fromServer := firstGroup fromPattern header
  byServer := firstGroup byPattern header
  clientIp := firstGroup (ipPattern py) header
  timestamp := hopDate py header
  protocol := if "esmtp".toList <:+: py.lower header then "ESMTP" else "SMTP"

/-- `parse_received_hops`. -/
def parseReceivedHops (receivedHeaders : List Str) : List ReceivedHop :=
  receivedHeaders.mapIdx (receivedHop py)

end Parse

/-! ## The evaluated hops -/

/-- `EvaluatedHopDTO`, as far as the timeline sets it. -/
structure EvaluatedHop where
  hopIndex : ℕ
  fromServer : Option Str
  byServer : Option Str
  clientIp : Option Str
  timestamp : Option DateTime
  /-- `latency_seconds`: whole seconds, which a float holds exactly. -/
  latencySeconds : ℤ

/-- `latency_sec` of a hop behind the last timestamp. -/
def latency (prev : Option DateTime) (hop : ReceivedHop) : Except PyException ℤ :=
  match hop.timestamp, prev with
  | some t, some p => do
    let delta ← t.sub p
    return max 0 delta
  | _, _ => return 0

/-- The loop of `reconstruct_evaluated_hops`, from the origin on, with `prev_timestamp`. -/
def evaluate : Option DateTime → List ReceivedHop → Except PyException (List (ReceivedHop × ℤ))
  | _, [] => return []
  | prev, hop :: hops => do
    let latencySec ← latency prev hop
    let rest ← evaluate (hop.timestamp.or prev) hops
    return (hop, latencySec) :: rest

/-- The evaluated hop at a position. -/
def evaluatedHop (idx : ℕ) (e : ReceivedHop × ℤ) : EvaluatedHop where
  hopIndex := idx
  fromServer := e.1.fromServer
  byServer := e.1.byServer
  clientIp := e.1.clientIp
  timestamp := e.1.timestamp
  latencySeconds := e.2

/-- `reconstruct_evaluated_hops`. -/
def reconstructEvaluatedHops (rawHops : List ReceivedHop) : Except PyException (List EvaluatedHop) := do
  let evaluatedChrono ← evaluate none rawHops.reverse
  return evaluatedChrono.reverse.mapIdx evaluatedHop

/-- The dates that there are, in the order of the hops. -/
def dates (hops : List ReceivedHop) : List DateTime := hops.filterMap (·.timestamp)

/-- **What a timeline should be**: a hop for each received hop, in the same order and with the same
data, latencies that are not negative, and the whole duration as their sum if the dates do not
decrease from the last header to the first. -/
structure Consistent (hops : List ReceivedHop) (results : List EvaluatedHop) : Prop where
  same : results.map (fun r => (r.hopIndex, r.fromServer, r.byServer, r.clientIp, r.timestamp)) =
    hops.map fun h => (h.hopIndex, h.fromServer, h.byServer, h.clientIp, h.timestamp)
  nonneg : ∀ r ∈ results, 0 ≤ r.latencySeconds
  telescopes : (dates hops).Pairwise (fun later earlier => earlier.instant ≤ later.instant) →
    ∀ first last, (dates hops).head? = some first → (dates hops).getLast? = some last →
      (results.map (·.latencySeconds)).sum = first.instant - last.instant

/-! ## One step of the loop -/

variable {prev : Option DateTime} {hop : ReceivedHop} {hops : List ReceivedHop}

@[simp] theorem dates_nil : dates [] = [] := rfl

theorem dates_cons : dates (hop :: hops) = hop.timestamp.toList ++ dates hops := by
  cases h : hop.timestamp <;> simp [dates, h]

theorem dates_reverse : dates hops.reverse = (dates hops).reverse := List.filterMap_reverse

theorem latency_of_none (h : hop.timestamp = none ∨ prev = none) : latency prev hop = .ok 0 := by
  unfold latency
  rcases h with h | h
  · rw [h]
    rfl
  · rw [h]
    cases hop.timestamp <;> rfl

theorem latency_eq_ok_iff {t p : DateTime} (ht : hop.timestamp = some t) {d : ℤ} :
    latency (some p) hop = .ok d ↔ t.aware = p.aware ∧ d = max 0 (t.instant - p.instant) := by
  unfold latency
  rw [ht]
  by_cases hzone : t.aware = p.aware
  · simp [DateTime.sub, hzone, bind, Except.bind, pure, Except.pure, eq_comm]
  · simp [DateTime.sub, hzone, bind, Except.bind]

theorem latency_nonneg {d : ℤ} (h : latency prev hop = .ok d) : 0 ≤ d := by
  cases ht : hop.timestamp with
  | none =>
    rw [latency_of_none (.inl ht)] at h
    cases h
    rfl
  | some t =>
    cases prev with
    | none =>
      rw [latency_of_none (.inr rfl)] at h
      cases h
      rfl
    | some p =>
      rw [((latency_eq_ok_iff ht).1 h).2]
      exact le_max_left ..

theorem evaluate_cons_eq_ok_iff {l : List (ReceivedHop × ℤ)} :
    evaluate prev (hop :: hops) = .ok l ↔
      ∃ d rest, latency prev hop = .ok d ∧ evaluate (hop.timestamp.or prev) hops = .ok rest ∧
        l = (hop, d) :: rest := by
  rw [evaluate]
  cases hlatency : latency prev hop with
  | error e => simp [bind, Except.bind]
  | ok d =>
    cases hrest : evaluate (hop.timestamp.or prev) hops with
    | error e => simp [bind, Except.bind]
    | ok rest => simp [bind, Except.bind, pure, Except.pure, eq_comm]

/-! ## The whole loop -/

/-- What the loop returns has the hops in their order, and no negative latency. -/
theorem evaluate_spec {prev : Option DateTime} {l : List (ReceivedHop × ℤ)}
    (h : evaluate prev hops = .ok l) : l.map Prod.fst = hops ∧ ∀ e ∈ l, 0 ≤ e.2 := by
  induction hops generalizing prev l with
  | nil =>
    cases h
    exact ⟨rfl, fun e he => absurd he List.not_mem_nil⟩
  | cons hop hops ih =>
    obtain ⟨d, rest, hd, hrest, rfl⟩ := evaluate_cons_eq_ok_iff.1 h
    obtain ⟨hmap, hnonneg⟩ := ih hrest
    refine ⟨by rw [List.map_cons, hmap], fun e he => ?_⟩
    rcases List.mem_cons.1 he with rfl | he
    · exact latency_nonneg hd
    · exact hnonneg e he

/-- **The loop returns exactly if the dates are of one kind**: all with a zone, or all without. -/
theorem evaluate_eq_ok_iff {prev : Option DateTime} :
    (∃ l, evaluate prev hops = .ok l) ↔
      ∃ zone, ∀ t ∈ prev.toList ++ dates hops, t.aware = zone := by
  induction hops generalizing prev with
  | nil =>
    refine ⟨fun _ => ?_, fun _ => ⟨[], rfl⟩⟩
    cases prev with
    | none => exact ⟨true, by simp⟩
    | some p => exact ⟨p.aware, by simp⟩
  | cons hop hops ih =>
    have hstep : (∃ l, evaluate prev (hop :: hops) = .ok l) ↔
        (∃ d, latency prev hop = .ok d) ∧
          ∃ rest, evaluate (hop.timestamp.or prev) hops = .ok rest := by
      simp only [evaluate_cons_eq_ok_iff]
      exact ⟨fun ⟨_, d, rest, hd, hrest, _⟩ => ⟨⟨d, hd⟩, rest, hrest⟩,
        fun ⟨⟨d, hd⟩, rest, hrest⟩ => ⟨_, d, rest, hd, hrest, rfl⟩⟩
    rw [hstep, ih, dates_cons]
    cases ht : hop.timestamp with
    | none => simp [latency_of_none (.inl ht)]
    | some t =>
      cases prev with
      | none => simp [latency_of_none (.inr rfl)]
      | some p =>
        simp only [latency_eq_ok_iff ht, Option.some_or, Option.toList_some, List.singleton_append,
          List.forall_mem_cons]
        constructor
        · rintro ⟨⟨_, hzone, _⟩, zone, ht, hrest⟩
          exact ⟨zone, hzone.symm.trans ht, ht, hrest⟩
        · rintro ⟨zone, hp, ht, hrest⟩
          exact ⟨⟨_, ht.trans hp.symm, rfl⟩, zone, ht, hrest⟩

/-- Behind a timestamp, the latencies of dates that do not decrease add up to the time since. -/
theorem sum_latencies_after {p : DateTime} {l : List (ReceivedHop × ℤ)}
    (h : evaluate (some p) hops = .ok l)
    (hmono : (p :: dates hops).Pairwise fun a b => a.instant ≤ b.instant) :
    (l.map Prod.snd).sum = ((dates hops).getLastD p).instant - p.instant := by
  induction hops generalizing p l with
  | nil =>
    cases h
    simp
  | cons hop hops ih =>
    obtain ⟨d, rest, hd, hrest, rfl⟩ := evaluate_cons_eq_ok_iff.1 h
    cases ht : hop.timestamp with
    | none =>
      rw [latency_of_none (.inl ht)] at hd
      cases hd
      rw [ht, Option.none_or] at hrest
      rw [dates_cons, ht, Option.toList_none, List.nil_append] at hmono ⊢
      simpa using ih hrest hmono
    | some t =>
      rw [ht, Option.some_or] at hrest
      rw [dates_cons, ht, Option.toList_some, List.singleton_append] at hmono ⊢
      have hle : p.instant ≤ t.instant := List.rel_of_pairwise_cons hmono (List.mem_cons_self ..)
      have hsum := ih hrest (List.pairwise_cons.1 hmono).2
      have hd := ((latency_eq_ok_iff ht).1 hd).2
      rw [max_eq_right (by omega)] at hd
      rw [List.map_cons, List.sum_cons, hsum, hd, List.getLastD_cons]
      omega

/-- **The latencies of dates that do not decrease add up to the whole time.** -/
theorem sum_latencies {l : List (ReceivedHop × ℤ)} (h : evaluate none hops = .ok l)
    (hmono : (dates hops).Pairwise fun a b => a.instant ≤ b.instant) {first last : DateTime}
    (hfirst : (dates hops).head? = some first) (hlast : (dates hops).getLast? = some last) :
    (l.map Prod.snd).sum = last.instant - first.instant := by
  induction hops generalizing l with
  | nil => cases hfirst
  | cons hop hops ih =>
    obtain ⟨d, rest, hd, hrest, rfl⟩ := evaluate_cons_eq_ok_iff.1 h
    rw [latency_of_none (.inr rfl)] at hd
    cases hd
    rw [dates_cons] at hmono hfirst hlast
    cases ht : hop.timestamp with
    | none =>
      rw [ht, Option.none_or] at hrest
      rw [ht, Option.toList_none, List.nil_append] at hmono hfirst hlast
      simpa using ih hrest hmono hfirst hlast
    | some t =>
      rw [ht, Option.some_or] at hrest
      rw [ht, Option.toList_some, List.singleton_append] at hmono hfirst hlast
      cases hfirst
      have hsum := sum_latencies_after hrest hmono
      rw [List.getLast?_cons, Option.some.injEq] at hlast
      rw [List.map_cons, List.sum_cons, hsum, zero_add, ← hlast, List.getLastD_eq_getLast?]

/-! ## The timeline -/

theorem reconstruct_eq_ok_iff {rawHops : List ReceivedHop} {results : List EvaluatedHop} :
    reconstructEvaluatedHops rawHops = .ok results ↔
      ∃ l, evaluate none rawHops.reverse = .ok l ∧ results = l.reverse.mapIdx evaluatedHop := by
  rw [reconstructEvaluatedHops]
  cases evaluate none rawHops.reverse with
  | error e => simp [bind, Except.bind]
  | ok l => simp [bind, Except.bind, pure, Except.pure, eq_comm]

/-- **A timeline is what it should be, whenever there is one.** -/
theorem consistent_of_ok {rawHops : List ReceivedHop} {results : List EvaluatedHop}
    (hindex : ∀ i (hi : i < rawHops.length), (rawHops.get ⟨i, hi⟩).hopIndex = i)
    (h : reconstructEvaluatedHops rawHops = .ok results) : Consistent rawHops results := by
  obtain ⟨l, hl, rfl⟩ := reconstruct_eq_ok_iff.1 h
  obtain ⟨hmap, hnonneg⟩ := evaluate_spec hl
  have hraw : rawHops = l.reverse.map Prod.fst := by
    rw [List.map_reverse, hmap, List.reverse_reverse]
  have hlatency : (l.reverse.mapIdx evaluatedHop).map (·.latencySeconds) =
      (l.map Prod.snd).reverse := by
    rw [← List.map_reverse]
    exact List.ext_getElem (by simp) (by simp [evaluatedHop])
  refine ⟨?_, ?_, ?_⟩
  · refine List.ext_getElem (by simp [hraw]) fun i h₁ h₂ => ?_
    have hi := hindex i (by simpa using h₂)
    simp only [hraw, List.get_eq_getElem, List.getElem_map] at hi ⊢
    simp only [List.getElem_mapIdx, evaluatedHop, hi]
  · intro r hr
    obtain ⟨i, hi, rfl⟩ := List.mem_mapIdx.1 hr
    exact hnonneg _ (List.mem_reverse.1 (List.getElem_mem hi))
  · intro hmono first last hfirst hlast
    rw [hlatency, List.sum_reverse]
    refine sum_latencies hl ?_ ?_ ?_
    · rwa [dates_reverse, List.pairwise_reverse]
    · rw [dates_reverse, List.head?_reverse, hlast]
    · rw [dates_reverse, List.getLast?_reverse, hfirst]

/-- **When the timeline of a mail is total and consistent**: exactly if its dates all have a zone,
or all have none. -/
theorem consistent_iff (py : HeaderReader) (headers : List Str) :
    (∃ results, reconstructEvaluatedHops (parseReceivedHops py headers) = .ok results ∧
        Consistent (parseReceivedHops py headers) results) ↔
      (∀ t ∈ dates (parseReceivedHops py headers), t.aware = true) ∨
        ∀ t ∈ dates (parseReceivedHops py headers), t.aware = false := by
  have hindex : ∀ i (hi : i < (parseReceivedHops py headers).length),
      ((parseReceivedHops py headers).get ⟨i, hi⟩).hopIndex = i := by
    intro i hi
    simp [parseReceivedHops, receivedHop]
  have hok : (∃ results, reconstructEvaluatedHops (parseReceivedHops py headers) = .ok results) ↔
      ∃ zone, ∀ t ∈ dates (parseReceivedHops py headers), t.aware = zone := by
    have h : (∃ l, evaluate none (parseReceivedHops py headers).reverse = .ok l) ↔ _ :=
      evaluate_eq_ok_iff
    rw [Option.toList_none, List.nil_append, dates_reverse] at h
    simp only [List.mem_reverse] at h
    rw [← h]
    simp only [reconstruct_eq_ok_iff]
    exact ⟨fun ⟨_, l, hl, _⟩ => ⟨l, hl⟩, fun ⟨l, hl⟩ => ⟨_, l, hl, rfl⟩⟩
  have hzone : (∃ zone, ∀ t ∈ dates (parseReceivedHops py headers), t.aware = zone) ↔
      (∀ t ∈ dates (parseReceivedHops py headers), t.aware = true) ∨
        ∀ t ∈ dates (parseReceivedHops py headers), t.aware = false := by
    rw [Bool.exists_bool, or_comm]
  rw [← hzone, ← hok]
  exact ⟨fun ⟨results, h, _⟩ => ⟨results, h⟩,
    fun ⟨results, h⟩ => ⟨results, h, consistent_of_ok hindex h⟩⟩

/-- `parsedate_to_datetime` on two dates of one day, the first without a zone. -/
def twoDates : HeaderReader where
  isDecimal := Char.isDigit
  lower := List.map Char.toLower
  parsedateToDatetime := fun s =>
    if s = "Mon, 1 Jan 2024 00:00:00 -0000".toList then .ok ⟨1704067200, none⟩
    else if s = "Mon, 1 Jan 2024 00:00:05 +0000".toList then .ok ⟨1704067205, some 0⟩
    else .error ⟨"ValueError", "Invalid date value or format"⟩

/-- **A mail with a date of zone `-0000` and one of zone `+0000` has no timeline.** -/
theorem mixed_zones_raise :
    reconstructEvaluatedHops (parseReceivedHops twoDates
      ["from b by c; Mon, 1 Jan 2024 00:00:05 +0000".toList,
        "from a by b; Mon, 1 Jan 2024 00:00:00 -0000".toList]) =
      .error ⟨"TypeError", "can't subtract offset-naive and offset-aware datetimes"⟩ := by
  rfl

end ScamOn.Transmission
