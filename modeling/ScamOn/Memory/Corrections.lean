import ScamOn.Memory.LearningLoop

/-!
# Corrections

What the corrections of analysts do to the verdicts that come after them.

* `last_correction_decides`: what an analyst has called a false positive is as good as deleted, and
  what was called phishing or safe is found again.
* `feedback_only_reweighs`: corrections change no search that asks for no confidence.
-/

namespace ScamOn.Memory

open Planner (Fits)

/-! ## The last correction decides -/

section Disowned

variable {g : Services}

/-- A call leaves the confidence of a record at what it is: it does not write another record under
the identifier, and no verdict on the record sets another confidence. -/
def Leaves (g : Services) (id : String) (confidence : ℚ) : MemoryCall → Prop
  | .investigate _ _ draws => ∀ n, draws.memoryId n ≠ id
  | .feedback c => c.memoryId = id →
      ∀ other, feedbackConfidence (g.pipe.lower c.analystVerdict) = some other → other = confidence

/-- The record under an identifier, if there is one, has a confidence. -/
def HasConfidence (id : String) (confidence : ℚ) (m : OrganizationMemory) : Prop :=
  ∀ r, m.store.records.get? id = some r → r.confidenceScore = confidence

theorem hasConfidence_step {id : String} {confidence : ℚ} (m : OrganizationMemory) (call : MemoryCall)
    (hm : HasConfidence id confidence m) (hcall : Leaves g id confidence call) :
    HasConfidence id confidence (step g m call).1 := by
  intro r hget
  cases call with
  | investigate inv state draws =>
    rcases get?_investigate hget with hold | ⟨i, draft, hpass, -, hid, -⟩
    · exact hm r hold
    · exact absurd hid (hcall i)
  | feedback c =>
    rcases get?_submitFeedback hget with ⟨hold, -⟩ | ⟨hid, old, other, hc, -, hverdict, rfl⟩
    · exact hm r hold
    · exact hcall hid.symm other hverdict

/-- **A correction sets the confidence** of its record. -/
theorem hasConfidence_feedback {c : Correction} {confidence : ℚ} (hvalid : c.Valid)
    (hverdict : feedbackConfidence (g.pipe.lower c.analystVerdict) = some confidence)
    (m : OrganizationMemory) : HasConfidence c.memoryId confidence (step g m (.feedback c)).1 := by
  intro r hget
  rcases get?_submitFeedback hget with ⟨-, hnone⟩ | ⟨-, old, other, hc, -, hother, rfl⟩
  · rw [hnone hvalid rfl] at hverdict
    simp at hverdict
  · exact Option.some.inj (hother.symm.trans hverdict)

/-- Of the confidences that verdicts set, one is too low for a search. -/
theorem enough_iff_ne_false_positive {verdict : String} {confidence : ℚ}
    (h : feedbackConfidence verdict = some confidence) :
    3 / 10 ≤ confidence ↔ verdict ≠ "false_positive" := by
  unfold feedbackConfidence at h
  split_ifs at h with h1 h2 h3 h4
  · obtain rfl := Option.some.inj h
    exact iff_of_true (by norm_num) (by rw [h1]; decide)
  · obtain rfl := Option.some.inj h
    exact iff_of_false (by norm_num) (fun hne => hne h2)
  · obtain rfl := Option.some.inj h
    exact iff_of_true (by norm_num) h2
  · obtain rfl := Option.some.inj h
    exact iff_of_true (by norm_num) h2

/-- The search of the engine takes every investigation that has the confidence. -/
theorem matches_similarInvestigations (e : Embedder ℚ) (subject sender bodySummary : String)
    (r : MemoryRecord ℚ (JsonValue ℚ)) :
    ((similarInvestigations subject sender bodySummary).searchArgs e).matches r = true ↔
      r.memoryType = .investigation ∧ 3 / 10 ≤ r.confidenceScore := by
  have hfilters : metadataMatch (∅ : Dict String (JsonValue ℚ)) r.metadata = true := rfl
  have htype : typeMatches (some .investigation) r.memoryType = true ↔ r.memoryType = .investigation :=
    decide_eq_true_iff
  unfold SearchArgs.matches
  simp only [Bool.and_eq_true, Bool.not_eq_true', decide_eq_false_iff_not, not_lt]
  simp only [MemoryQuery.searchArgs, similarInvestigations, htype, hfilters, and_true]

/-- A record that does not match is not missed. -/
theorem query_delete (S : SquareRoot ℚ) {e : Embedder ℚ}
    {store : InMemoryVectorStore ℚ (JsonValue ℚ)} {q : MemoryQuery ℚ (JsonValue ℚ)} {id : String}
    (h : ∀ r, store.records.get? id = some r → (q.searchArgs e).matches r = false) :
    query S e (store.delete id).1 q = query S e store q := by
  have hvalues : (store.delete id).1.records.values.filter (q.searchArgs e).matches =
      store.records.values.filter (q.searchArgs e).matches := by
    rw [store.delete_records]
    show ((store.records.entries.filter fun p => p.1 ≠ id).map Prod.snd).filter _ = _
    rw [Dict.values, List.filter_map, List.filter_map, List.filter_filter]
    refine congrArg _ (List.filter_congr fun p hp => ?_)
    by_cases hid : p.1 = id
    · have hfalse := h p.2 (hid ▸ Dict.mem_entries_iff.1 hp)
      simp [hid, hfalse]
    · simp [hid]
  rw [query_eq, query_eq, matching, matching, hvalues]

/-- **The last correction decides.**  If no later call writes the record again or gives another
verdict on it, then an investigation that was corrected is found by the searches of the engine exactly
if it was not called a false positive, whether it was called phishing or safe; and if it was, all
verdicts are as if the record had been deleted. -/
theorem last_correction_decides (g : Services) (before after : List MemoryCall) (c : Correction)
    (confidence : ℚ) (hvalid : c.Valid)
    (hverdict : feedbackConfidence (g.pipe.lower c.analystVerdict) = some confidence)
    (hafter : ∀ call ∈ after, Leaves g c.memoryId confidence call) :
    let m := memoryAfter g (before ++ .feedback c :: after)
    (∀ subject sender bodySummary r, m.store.records.get? c.memoryId = some r →
      r.memoryType = .investigation →
        (((similarInvestigations subject sender bodySummary).searchArgs
            g.pipe.embedder).matches r = true ↔
          g.pipe.lower c.analystVerdict ≠ "false_positive")) ∧
      (g.pipe.lower c.analystVerdict = "false_positive" →
        ∀ inv, verdictOn g m.store inv = verdictOn g (m.store.delete c.memoryId).1 inv) := by
  intro m
  have hm : HasConfidence c.memoryId confidence m := by
    have hrun : m = Machine.run (step g)
        (step g (Machine.run (step g) .empty before) (.feedback c)).1 after := by
      show Machine.run (step g) .empty (before ++ .feedback c :: after) = _
      rw [Machine.run_append, Machine.run_cons]
    rw [hrun]
    exact Machine.inv_run (fun s call hs hcall => hasConfidence_step s call hs hcall.2)
      (hasConfidence_feedback hvalid hverdict _)
      ((Machine.always_of_forall (P := fun _ _ => True) (fun _ _ => trivial) _ _).and_of_mem hafter)
  have hmatches : ∀ subject sender bodySummary r, m.store.records.get? c.memoryId = some r →
      (((similarInvestigations subject sender bodySummary).searchArgs
          g.pipe.embedder).matches r = true ↔
        r.memoryType = .investigation ∧ g.pipe.lower c.analystVerdict ≠ "false_positive") := by
    intro subject sender bodySummary r hget
    rw [matches_similarInvestigations, hm r hget, enough_iff_ne_false_positive hverdict]
  constructor
  · intro subject sender bodySummary r hget htype
    rw [hmatches subject sender bodySummary r hget]
    exact and_iff_right htype
  · intro hdisowned inv
    have hretriever : retriever g (m.store.delete c.memoryId).1 = retriever g m.store := by
      funext subject sender bodySummary
      refine congrArg (List.map matchOf) (query_delete g.squareRoot fun r hget => ?_)
      rw [← Bool.not_eq_true, hmatches subject sender bodySummary r hget]
      exact fun h => h.2 hdisowned
    rw [verdictOn, verdictOn, hretriever]

theorem disown_now : "2026-01-02T00:00:00+00:00".length ≤ 64 ∧ Fits 1 128 "fb" := by decide

/-- The first record of the bad link, called a false positive. -/
def disown : Correction :=
  ⟨"a", "FALSE_POSITIVE", "", "2026-01-02T00:00:00+00:00", "fb", disown_now.1, disown_now.2⟩

theorem disown_verdict : disown.Valid ∧
    plainServices.pipe.lower disown.analystVerdict = "false_positive" := by decide

theorem disown_confidence :
    feedbackConfidence (plainServices.pipe.lower disown.analystVerdict) = some (1 / 10) := by
  rw [disown_verdict.2]
  simp [feedbackConfidence]

/-- The bad link is disowned, and a correction of another record does not undo that. -/
theorem last_correction_decides_badLink :
    let other : Correction := { disown with memoryId := "b", analystVerdict := "safe_email" }
    let m := memoryAfter plainServices
      ([learnBadLink 0, learnBadLink 10] ++ .feedback disown :: [.feedback other])
    (∀ subject sender bodySummary r, m.store.records.get? "a" = some r →
      r.memoryType = .investigation →
        (((similarInvestigations subject sender bodySummary).searchArgs
            plainServices.pipe.embedder).matches r = true ↔
          plainServices.pipe.lower disown.analystVerdict ≠ "false_positive")) ∧
      (plainServices.pipe.lower disown.analystVerdict = "false_positive" → ∀ inv,
        verdictOn plainServices m.store inv =
          verdictOn plainServices (m.store.delete "a").1 inv) := by
  intro other
  refine last_correction_decides plainServices [learnBadLink 0, learnBadLink 10] [.feedback other]
    disown (1 / 10) disown_verdict.1 disown_confidence ?_
  intro call hcall
  obtain rfl := List.mem_singleton.1 hcall
  intro hsame
  exact absurd hsame (by decide)

end Disowned

/-! ## Corrections only reweigh -/

section Reweighed

variable {g : Services}

theorem unweighted_updatedAt : "".length ≤ 64 := by decide

/-- A record without what corrections change. -/
def unweighted (r : MemoryRecord ℚ (JsonValue ℚ)) : MemoryRecord ℚ (JsonValue ℚ) :=
  r.corrected 0 "" ⟨le_refl 0, zero_le_one⟩ unweighted_updatedAt

/-- Two memories have the same records in the same order, up to what corrections change. -/
def SameRecords (m m' : OrganizationMemory) : Prop :=
  m'.store.records.keys = m.store.records.keys ∧
    ∀ id, (m'.store.records.get? id).map unweighted = (m.store.records.get? id).map unweighted

theorem sameRecords_correct (lower : String → String) (m : OrganizationMemory) (c : Correction)
    (feedback : List FeedbackRecord) :
    SameRecords m ⟨correct lower m.store c, feedback⟩ := by
  unfold correct
  split
  · next old confidence hold hverdict =>
    have hid : old.memoryId = c.memoryId := m.store.keyed _ _ hold
    have hcontains : m.store.records.contains old.memoryId = true := by
      rw [Dict.contains, hid, hold]
      rfl
    have hupdate : m.store.update (old.corrected confidence c.now (feedbackConfidence_mem hverdict)
        c.now_le) = some (m.store.insert (old.corrected confidence c.now
          (feedbackConfidence_mem hverdict) c.now_le)) := if_pos hcontains
    rw [hupdate, Option.getD_some]
    refine ⟨Dict.keys_set_of_contains hcontains _, fun id => ?_⟩
    have hset := Dict.get?_set m.store.records old.memoryId id
      (old.corrected confidence c.now (feedbackConfidence_mem hverdict) c.now_le)
    refine (congrArg (Option.map unweighted) hset).trans ?_
    split_ifs with hsame
    · rw [hsame, hid, hold]
      rfl
    · rfl
  · exact ⟨rfl, fun _ => rfl⟩

theorem sameRecords_feedback (m : OrganizationMemory) (c : Correction) :
    SameRecords m (step g m (.feedback c)).1 := by
  show SameRecords m (submitFeedback g m c).1
  unfold submitFeedback
  split_ifs
  · exact sameRecords_correct _ m c _
  · exact ⟨rfl, fun _ => rfl⟩

theorem sameRecords_run (m : OrganizationMemory) (corrections : List Correction) :
    SameRecords m (Machine.run (step g) m (corrections.map .feedback)) := by
  induction corrections generalizing m with
  | nil => exact ⟨rfl, fun _ => rfl⟩
  | cons c cs ih =>
    obtain ⟨hkeys, hget⟩ := sameRecords_feedback (g := g) m c
    obtain ⟨hkeys', hget'⟩ := ih (step g m (.feedback c)).1
    exact ⟨hkeys'.trans hkeys, fun id => (hget' id).trans (hget id)⟩

/-- The records in their order, up to what corrections change. -/
theorem map_unweighted_values {m m' : OrganizationMemory} (h : SameRecords m m') :
    m'.store.records.values.map unweighted = m.store.records.values.map unweighted := by
  have hsome : (m'.store.records.values.map unweighted).map some =
      (m.store.records.values.map unweighted).map some := by
    have hcomp : ∀ l : List (MemoryRecord ℚ (JsonValue ℚ)),
        (l.map unweighted).map some = (l.map some).map (Option.map unweighted) := by
      intro l
      simp [Function.comp_def]
    rw [hcomp, hcomp, ← Dict.map_get?_keys, ← Dict.map_get?_keys, List.map_map, List.map_map, h.1]
    exact List.map_congr_left fun id _ => h.2 id
  exact List.map_injective_iff.2 (Option.some_injective _) hsome

/-- **A search that asks for no confidence** is one of the records without it. -/
theorem map_query_eq (S : SquareRoot ℚ) (e : Embedder ℚ) (store : InMemoryVectorStore ℚ (JsonValue ℚ))
    {q : MemoryQuery ℚ (JsonValue ℚ)} (hq : q.minConfidence = 0) :
    (query S e store q).map (fun res => (res.memoryId, res.similarityScore)) =
      (((ranked (fun r => similarity S (q.vector e) r.vector)
        ((store.records.values.map unweighted).filter (q.searchArgs e).matches)).take
          q.topK).filter fun r => q.inRange r.createdAt).map
            fun r => (r.memoryId, roundDigits 4 (similarity S (q.vector e) r.vector)) := by
  have hmatches : ∀ r : MemoryRecord ℚ (JsonValue ℚ),
      (q.searchArgs e).matches (unweighted r) = (q.searchArgs e).matches r := by
    intro r
    have hmin : (q.searchArgs e).minConfidence = 0 := hq
    have hnonneg := r.valid.confidenceScore_nonneg
    have hleft : ¬(unweighted r).confidenceScore < 0 := lt_irrefl (0 : ℚ)
    have hright : ¬r.confidenceScore < 0 := not_lt.2 hnonneg
    unfold SearchArgs.matches
    simp only [hmin, hleft, hright]
    rfl
  have hmap : (store.records.values.map unweighted).filter (q.searchArgs e).matches =
      (store.records.values.filter (q.searchArgs e).matches).map unweighted := by
    rw [List.filter_map]
    exact congrArg _ (List.filter_congr fun r _ => hmatches r)
  rw [query_eq, matching, hmap, ranked_map, ← List.map_take, List.filter_map, List.map_map,
    List.map_map]
  rfl

/-- **Corrections only reweigh.**  Whatever corrections follow: the memory keeps its records and their
order, each record keeps all that it says, and a search that asks for no confidence finds the same
records with the same scores in the same order. -/
theorem feedback_only_reweighs (g : Services) (calls : List MemoryCall)
    (corrections : List Correction) :
    let m := memoryAfter g calls
    let m' := memoryAfter g (calls ++ corrections.map .feedback)
    m'.store.records.keys = m.store.records.keys ∧
      (∀ id, (m'.store.records.get? id).map unweighted =
        (m.store.records.get? id).map unweighted) ∧
      ∀ q : MemoryQuery ℚ (JsonValue ℚ), q.minConfidence = 0 →
        (query g.squareRoot g.pipe.embedder m'.store q).map
            (fun res => (res.memoryId, res.similarityScore)) =
          (query g.squareRoot g.pipe.embedder m.store q).map
            fun res => (res.memoryId, res.similarityScore) := by
  intro m m'
  have hrun : m' = Machine.run (step g) m (corrections.map .feedback) :=
    Machine.run_append _ _ _
  have hsame : SameRecords m m' := hrun ▸ sameRecords_run m corrections
  refine ⟨hsame.1, hsame.2, fun q hq => ?_⟩
  rw [map_query_eq g.squareRoot _ _ hq, map_query_eq g.squareRoot _ _ hq,
    map_unweighted_values hsame]

end Reweighed

end ScamOn.Memory
