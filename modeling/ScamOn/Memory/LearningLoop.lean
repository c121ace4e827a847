import ScamOn.Lib.Origins
import ScamOn.Memory.Learning

/-!
# The learning loop

The memory of an organization is read by the reasoning engine, and what the engine says of an e-mail
is learned by the same memory; analysts correct the memory in between.  So a verdict may rest on
earlier verdicts.

* `findSimilarInvestigations` and `retriever` are what the engine reads of the memory.
* `submitFeedback` is the correction of a record by an analyst.
* `step` is one call on the memory of an organization: an investigation or a correction.
* `Precedent` is an investigation that was rated high or critical by its own evidence.
* `raised_needs_precedents`: history does not feed on itself.  Whatever has been learned, and in
  whatever order, it raises a verdict from low to medium at most, and only after two precedents.
-/

namespace ScamOn.Memory

open Planner (AgentState EmailInput FinalReport Fits FoldsAscii InvestigationMatch ReasoningEnv
  ReasoningOutput Retriever RiskLevel classificationOf generateReport historicalContext reason)

/-! ## What the engine reads -/

/-- The text that `find_similar_investigations` searches for. -/
def similarText (subject sender bodySummary : String) : String :=
  let stripped := Text.strip (subject ++ " " ++ sender ++ " " ++ bodySummary)
  let queryStr := String.ofList (stripped.toList.take 1024)
  if queryStr = "" then "investigation query" else queryStr

theorem length_similarText (subject sender bodySummary : String) :
    (similarText subject sender bodySummary).length ≤ 1024 := by
  unfold similarText
  dsimp only
  split_ifs
  · decide
  · rw [String.length_ofList]
    exact List.length_take_le _ _

theorem similarTopK : 1 ≤ 5 ∧ 5 ≤ 100 := by decide

theorem similarConfidence : (0 : ℚ) ≤ 3 / 10 ∧ (3 / 10 : ℚ) ≤ 1 := by norm_num

/-- The query of `find_similar_investigations`. -/
def similarInvestigations (subject sender bodySummary : String) : MemoryQuery ℚ (JsonValue ℚ) where
  queryText := some (similarText subject sender bodySummary)
  queryVector := none
  memoryType := some .investigation
  topK := 5
  minConfidence := 3 / 10
  metadataFilters := ∅
  timeRangeStart := none
  timeRangeEnd := none
  queryText_le := length_similarText subject sender bodySummary
  topK_range := similarTopK
  minConfidence_range := similarConfidence
  timeRangeStart_le := trivial
  timeRangeEnd_le := trivial

/-- A result, with the fields that the engine reads; `""` where the record has none. -/
def matchOf (res : MemorySearchResult ℚ (JsonValue ℚ)) : InvestigationMatch :=
  match res.record.details with
  | .investigation _ subject sender classification riskLevel _ summary =>
    ⟨res.memoryId, res.similarityScore, classification, riskLevel, sender, subject, summary⟩
  | _ => ⟨res.memoryId, res.similarityScore, "", "", "", "", ""⟩

/-- The services of an organization: the reasoning engine, the learning pipeline, and the square
root that the store takes. -/
structure Services where
  env : ReasoningEnv
  pipe : LearningPipeline
  squareRoot : SquareRoot ℚ

section Calls

variable (g : Services)

/-- `find_similar_investigations`. -/
def findSimilarInvestigations (store : InMemoryVectorStore ℚ (JsonValue ℚ))
    (subject sender bodySummary : String) : List (MemorySearchResult ℚ (JsonValue ℚ)) :=
  query g.squareRoot g.pipe.embedder store (similarInvestigations subject sender bodySummary)

/-- The memory, as the engine asks it. -/
def retriever (store : InMemoryVectorStore ℚ (JsonValue ℚ)) : Retriever :=
  fun subject sender bodySummary =>
    (findSimilarInvestigations g store subject sender bodySummary).map matchOf

/-! ## Corrections -/

/-- `FeedbackRecord`. -/
structure FeedbackRecord where
  feedbackId : String
  memoryId : String
  analystVerdict : String
  analystNotes : String
  timestamp : String
  feedbackId_fits : Fits 1 128 feedbackId
  memoryId_fits : Fits 1 128 memoryId
  analystNotes_fits : Fits 0 4096 analystNotes
  timestamp_le : timestamp.length ≤ 64

/-- The confidence that a verdict in lower case sets. -/
def feedbackConfidence (verdict : String) : Option ℚ :=
  if verdict = "confirmed_phishing" then some (99 / 100)
  else if verdict = "false_positive" then some (1 / 10)
  else if verdict = "false_negative" then some (99 / 100)
  else if verdict = "safe_email" then some (95 / 100)
  else none

theorem feedbackConfidence_mem {verdict : String} {c : ℚ} (h : feedbackConfidence verdict = some c) :
    0 ≤ c ∧ c ≤ 1 := by
  unfold feedbackConfidence at h
  split_ifs at h <;> obtain rfl := Option.some.inj h <;> norm_num

/-- `record.model_copy(update={"confidence_score": c, "updated_at": now})`. -/
def MemoryRecord.corrected (r : MemoryRecord ℚ (JsonValue ℚ)) (c : ℚ) (now : String)
    (hc : 0 ≤ c ∧ c ≤ 1) (hnow : now.length ≤ 64) : MemoryRecord ℚ (JsonValue ℚ) where
  toRecordData := { r.toRecordData with confidenceScore := c, updatedAt := now }
  valid := {
    memoryId_pos := r.valid.memoryId_pos
    memoryId_le := r.valid.memoryId_le
    createdAt_le := r.valid.createdAt_le
    updatedAt_le := hnow
    ttlSeconds_pos := r.valid.ttlSeconds_pos
    confidenceScore_nonneg := hc.1
    confidenceScore_le := hc.2
    details_valid := r.valid.details_valid
  }

/-- The memory of an organization, with the corrections so far. -/
structure OrganizationMemory where
  store : InMemoryVectorStore ℚ (JsonValue ℚ)
  feedbackRecords : List FeedbackRecord

/-- A correction, with the time and the identifier that are drawn for it. -/
structure Correction where
  memoryId : String
  analystVerdict : String
  analystNotes : String
  now : String
  feedbackId : String
  now_le : now.length ≤ 64
  feedbackId_fits : Fits 1 128 feedbackId

/-- A correction that can be recorded. -/
def Correction.Valid (c : Correction) : Prop := Fits 1 128 c.memoryId ∧ Fits 0 4096 c.analystNotes

instance (c : Correction) : Decidable c.Valid := inferInstanceAs (Decidable (_ ∧ _))

/-- The store after a correction that is recorded. -/
def correct (lower : String → String) (store : InMemoryVectorStore ℚ (JsonValue ℚ)) (c : Correction) :
    InMemoryVectorStore ℚ (JsonValue ℚ) :=
  match store.records.get? c.memoryId, h : feedbackConfidence (lower c.analystVerdict) with
  | some r, some confidence =>
    (store.update (r.corrected confidence c.now (feedbackConfidence_mem h) c.now_le)).getD store
  | _, _ => store

/-- `submit_feedback`. -/
def submitFeedback (m : OrganizationMemory) (c : Correction) :
    OrganizationMemory × Except PyException FeedbackRecord :=
  if h : c.Valid then
    let feedback : FeedbackRecord := ⟨c.feedbackId, c.memoryId, c.analystVerdict, c.analystNotes,
      c.now, c.feedbackId_fits, h.1, h.2, c.now_le⟩
    (⟨correct g.pipe.lower m.store c, m.feedbackRecords ++ [feedback]⟩, .ok feedback)
  else (m, .error ⟨"ValidationError", "validation errors for FeedbackRecord"⟩)

/-! ## Calls -/

/-- A call on the memory: an investigation, with the state that is reported and what is drawn, or a
correction. -/
inductive MemoryCall
  | investigate (inv : Investigation) (state : AgentState) (draws : Draws)
  | feedback (c : Correction)

/-- What a caller sees. -/
inductive MemoryAnswer
  | investigated (report : FinalReport) (saved : Except PyException Unit)
  | recorded (feedback : Except PyException FeedbackRecord)

/-- The verdict on an investigation, with the memory as it is. -/
def verdictOn (store : InMemoryVectorStore ℚ (JsonValue ℚ)) (inv : Investigation) : ReasoningOutput :=
  reason g.env inv.parsedEmail inv.evidence (some (retriever g store))

/-- The verdict on an investigation by its own evidence. -/
def ownVerdict (inv : Investigation) : ReasoningOutput :=
  reason g.env inv.parsedEmail inv.evidence none

/-- One call. -/
def step (m : OrganizationMemory) : MemoryCall → OrganizationMemory × MemoryAnswer
  | .investigate inv state draws =>
    let verdict := verdictOn g m.store inv
    let report := generateReport state verdict
    let learned := ingestInvestigation g.pipe draws m.store inv verdict (some report)
    (⟨learned.1, m.feedbackRecords⟩, .investigated report (learned.2.map fun _ => ()))
  | .feedback c =>
    let submitted := submitFeedback g m c
    (submitted.1, .recorded submitted.2)

/-- The memory before the first call. -/
def OrganizationMemory.empty : OrganizationMemory := ⟨.empty, []⟩

/-- The memory after calls. -/
def memoryAfter (calls : List MemoryCall) : OrganizationMemory := Machine.run (step g) .empty calls

/-- The `i`-th call was an investigation whose own evidence was rated high or critical. -/
def Precedent (calls : List MemoryCall) (i : ℕ) : Prop :=
  ∃ inv state draws, calls[i]? = some (.investigate inv state draws) ∧
    .high ≤ (ownVerdict g inv).riskLevel

end Calls

/-! ## What an ingestion may write -/

section Writes

variable {pipe : LearningPipeline} {draws : Draws} {s : InMemoryVectorStore ℚ (JsonValue ℚ)}
  {inv : Investigation} {reasoning : ReasoningOutput} {report : Option FinalReport}

/-- **A record after the loop** was there before, or is that of a draft. -/
theorem get?_saveAll_cases {ds : List (Except PyException Draft)} {n : ℕ} {id : String}
    {r : MemoryRecord ℚ (JsonValue ℚ)}
    (h : (saveAll pipe draws n s ds).1.records.get? id = some r) :
    s.records.get? id = some r ∨ ∃ i draft hpass, ds[i]? = some (.ok draft) ∧
      draws.memoryId (n + i) = id ∧ r = recordOf pipe draws (n + i) draft hpass := by
  induction ds generalizing n s with
  | nil => exact .inl h
  | cons d rest ih =>
    cases d with
    | error e => exact .inl h
    | ok draft =>
      rw [saveAll] at h
      split_ifs at h with hpass
      · rcases ih h with hold | ⟨i, later, hlater, hget, hid, rfl⟩
        · have hset : (s.insert (recordOf pipe draws n draft hpass)).records.get? id =
              if id = draws.memoryId n then some (recordOf pipe draws n draft hpass)
              else s.records.get? id := Dict.get?_set _ _ _ _
          rw [hset] at hold
          split_ifs at hold with hid
          · exact .inr ⟨0, draft, hpass, rfl, hid.symm, (Option.some.inj hold).symm⟩
          · exact .inl hold
        · have hshift : n + 1 + i = n + (i + 1) := by omega
          simp only [hshift] at hid ⊢
          exact .inr ⟨i + 1, later, hlater, hget, hid, rfl⟩
      · exact .inl h

/-- A draft of what an investigation has found. -/
def Draft.Later (draft : Draft) : Prop :=
  draft.details.recordClass ≠ .InvestigationMemory ∧ draft.details.recordClass ≠ .BaseMemoryRecord

theorem later_of_mem_evidenceDrafts {ev : Planner.EvidenceRecord} {draft : Draft}
    (h : draft ∈ evidenceDrafts reasoning ev) : draft.Later := by
  unfold evidenceDrafts at h
  rcases List.mem_cons.1 h with rfl | h
  · simp [Draft.Later, Details.recordClass]
  · split_ifs at h
    · obtain rfl := List.mem_singleton.1 h
      simp [Draft.Later, Details.recordClass]
    · simp at h

theorem later_of_mem_senderDraft {email : EmailInput} {draft : Draft}
    (h : draft ∈ senderDraft reasoning email) : draft.Later := by
  unfold senderDraft at h
  split_ifs at h
  · simp at h
  · obtain rfl := List.mem_singleton.1 h
    simp [Draft.Later, Details.recordClass]

theorem later_of_mem_urlDrafts {draft : Draft} (h : .ok draft ∈ urlDrafts pipe inv reasoning) :
    draft.Later := by
  unfold urlDrafts at h
  split at h
  · simp at h
  · obtain ⟨item, -, hitem⟩ := List.mem_flatMap.1 h
    unfold urlItemDraft at hitem
    split at hitem
    · simp at hitem
    · split_ifs at hitem
      · simp at hitem
      · obtain rfl := Except.ok.inj (List.mem_singleton.1 hitem)
        simp [urlDraft, Draft.Later, Details.recordClass]
    · split_ifs at hitem
      · simp at hitem
      · simp at hitem

/-- Only the first draft is of the investigation itself. -/
theorem later_of_mem_laterDrafts {draft : Draft}
    (h : .ok draft ∈ laterDrafts pipe inv reasoning) :
    draft.Later := by
  simp only [laterDrafts, List.mem_append, List.mem_map, List.mem_flatMap, Option.mem_toList] at h
  rcases h with (((⟨d, ⟨ev, -, hd⟩, heq⟩ | ⟨d, ⟨email, -, hd⟩, heq⟩) | h) |
    ⟨email, -, att, -, heq⟩) | ⟨corr, -, heq⟩
  · obtain rfl := Except.ok.inj heq
    exact later_of_mem_evidenceDrafts hd
  · obtain rfl := Except.ok.inj heq
    exact later_of_mem_senderDraft hd
  · exact later_of_mem_urlDrafts h
  · obtain rfl := Except.ok.inj heq
    simp [attachmentDraft, Draft.Later, Details.recordClass]
  · obtain rfl := Except.ok.inj heq
    simp [patternDraft, Draft.Later, Details.recordClass]

/-- No draft is of the base class. -/
theorem recordClass_of_mem_drafts {draft : Draft} (h : .ok draft ∈ drafts pipe inv reasoning report) :
    draft.details.recordClass ≠ .BaseMemoryRecord := by
  rcases List.mem_cons.1 h with heq | h
  · obtain rfl := Except.ok.inj heq
    simp [investigationDraft, Details.recordClass]
  · exact (later_of_mem_laterDrafts h).2

end Writes

/-! ## What history may say -/

section History

variable {env : ReasoningEnv} {email : EmailInput} {found : List InvestigationMatch}

theorem investigationIds_contextOf : (Planner.contextOf env email found).investigationIds =
    (Planner.supportingMatches env found).map (·.memoryId) := by
  unfold Planner.contextOf
  split_ifs with hnone
  · rw [Planner.supportingMatches, List.isEmpty_iff.1 hnone]
    rfl
  · rfl

/-- A repeated campaign has two supporting matches. -/
theorem two_le_of_hasCampaignMatch (h : (Planner.contextOf env email found).hasCampaignMatch = true) :
    2 ≤ (Planner.contextOf env email found).investigationIds.length := by
  unfold Planner.contextOf at h ⊢
  split_ifs at h ⊢
  · rw [Bool.and_eq_true, decide_eq_true_eq] at h
    exact h.1

/-- The confidence is moved by supporting matches only. -/
theorem confidenceAdjustment_of_no_support
    (h : (Planner.contextOf env email found).investigationIds = []) :
    (Planner.contextOf env email found).confidenceAdjustment = 0 := by
  unfold Planner.contextOf at h ⊢
  split_ifs at h ⊢
  · rfl
  · dsimp only at h ⊢
    rw [h]
    simp [Planner.confidenceAdjustment]

theorem mem_of_mem_supportingMatches {m : InvestigationMatch}
    (h : m ∈ Planner.supportingMatches env found) : m ∈ found ∧ m.isPhishing env = true := by
  obtain ⟨hhigh, hphishing⟩ := List.mem_filter.1 h
  exact ⟨(Planner.mem_highSimilarityMatches.1 hhigh).1, hphishing⟩

/-- Matches with different identifiers support a verdict under different identifiers. -/
theorem nodup_supportingMatches (h : (found.map (·.memoryId)).Nodup) :
    ((Planner.supportingMatches env found).map (·.memoryId)).Nodup := by
  have hsub : List.Sublist ((found.filter fun m => 4 / 5 ≤ m.similarityScore).map (·.memoryId))
      (found.map (·.memoryId)) := List.filter_sublist.map _
  have hsorted : ((Planner.highSimilarityMatches found).map (·.memoryId)).Nodup :=
    ((List.mergeSort_perm _ _).map _).nodup_iff.2 (h.sublist hsub)
  exact hsorted.sublist (List.filter_sublist.map _)

/-- **Without support, the verdict is that of the evidence.** -/
theorem reason_of_no_support (evidences : List Planner.EvidenceRecord)
    {parsedEmail : Option EmailInput} {retriever : Option Retriever}
    (h : (historicalContext env parsedEmail retriever).investigationIds = []) :
    (reason env parsedEmail evidences retriever).riskLevel =
        (reason env parsedEmail evidences none).riskLevel ∧
      (reason env parsedEmail evidences retriever).confidence =
        (reason env parsedEmail evidences none).confidence := by
  have hcurrent := @Planner.confidence_currentAssessment env parsedEmail evidences
  have hquiet : (historicalContext env parsedEmail retriever).hasCampaignMatch = false ∧
      (historicalContext env parsedEmail retriever).confidenceAdjustment = 0 := by
    unfold historicalContext at h ⊢
    split at h
    · refine ⟨?_, confidenceAdjustment_of_no_support h⟩
      by_contra hcampaign
      have htwo := two_le_of_hasCampaignMatch (by simpa using hcampaign)
      rw [h] at htwo
      simp at htwo
    · exact ⟨rfl, rfl⟩
  rw [Planner.riskLevel_reason_none, Planner.confidence_reason_none, Planner.riskLevel_reason,
    Planner.confidence_reason, Planner.confidence_adjustHistory hcurrent,
    Planner.Assessment.raiseForCampaign, hquiet.1, hquiet.2, if_neg (by simp), if_neg (by simp),
    add_zero, min_eq_right hcurrent.2]
  exact ⟨rfl, rfl⟩

end History

/-! ## What the memory answers -/

section Answers

variable {g : Services} {store : InMemoryVectorStore ℚ (JsonValue ℚ)}

theorem map_memoryId_values (store : InMemoryVectorStore ℚ (JsonValue ℚ)) :
    store.records.values.map (·.memoryId) = store.records.keys := by
  rw [Dict.values, Dict.keys, List.map_map]
  refine List.map_congr_left fun p hp => ?_
  exact store.keyed p.1 p.2 (Dict.mem_entries_iff.1 hp)

/-- A result of a search is a record of the store that matches. -/
theorem mem_query {S : SquareRoot ℚ} {e : Embedder ℚ} {q : MemoryQuery ℚ (JsonValue ℚ)}
    {res : MemorySearchResult ℚ (JsonValue ℚ)} (h : res ∈ query S e store q) :
    ∃ r, store.records.get? r.memoryId = some r ∧ (q.searchArgs e).matches r = true ∧
      res = searchResult S (q.vector e) r := by
  rw [query_eq] at h
  obtain ⟨r, hr, rfl⟩ := List.mem_map.1 h
  have hmem := (mem_ranked _).1 (List.mem_of_mem_take (List.mem_of_mem_filter hr))
  obtain ⟨hvalue, hmatch⟩ := List.mem_filter.1 hmem
  exact ⟨r, store.get?_of_mem_values hvalue, hmatch, rfl⟩

theorem nodup_query (S : SquareRoot ℚ) (e : Embedder ℚ) (store : InMemoryVectorStore ℚ (JsonValue ℚ))
    (q : MemoryQuery ℚ (JsonValue ℚ)) : ((query S e store q).map (·.memoryId)).Nodup := by
  have hvalues : (store.records.values.map (·.memoryId)).Nodup :=
    map_memoryId_values store ▸ store.records.nodup_keys
  have hmatching : ((matching S e store q).map (·.memoryId)).Nodup :=
    ((ranked_perm _ _).map _).nodup_iff.2 (hvalues.sublist (List.filter_sublist.map _))
  have hids : (query S e store q).map (·.memoryId) =
      (((matching S e store q).take q.topK).filter fun r => q.inRange r.createdAt).map
        (·.memoryId) := by
    rw [query_eq, List.map_map]
    rfl
  rw [hids]
  exact hmatching.sublist ((List.filter_sublist.trans (List.take_sublist _ _)).map _)

theorem matchOf_memoryId (res : MemorySearchResult ℚ (JsonValue ℚ)) :
    (matchOf res).memoryId = res.memoryId := by
  unfold matchOf
  split <;> rfl

/-- **A match** is of a record of the store that has a confidence of at least 0.3. -/
theorem mem_retriever {subject sender bodySummary : String} {m : InvestigationMatch}
    (h : m ∈ retriever g store subject sender bodySummary) :
    ∃ r res, store.records.get? m.memoryId = some r ∧ 3 / 10 ≤ r.confidenceScore ∧
      res.record = r ∧ m = matchOf res := by
  obtain ⟨res, hres, rfl⟩ := List.mem_map.1 h
  obtain ⟨r, hget, hmatch, rfl⟩ := mem_query hres
  refine ⟨r, _, ?_, ?_, rfl, rfl⟩
  · rw [matchOf_memoryId]
    exact hget
  · unfold SearchArgs.matches at hmatch
    simp only [Bool.and_eq_true, Bool.not_eq_true', decide_eq_false_iff_not, not_lt] at hmatch
    exact hmatch.1.2

theorem nodup_retriever (g : Services) (store : InMemoryVectorStore ℚ (JsonValue ℚ))
    (subject sender bodySummary : String) :
    ((retriever g store subject sender bodySummary).map (·.memoryId)).Nodup := by
  have hids : (retriever g store subject sender bodySummary).map (·.memoryId) =
      (findSimilarInvestigations g store subject sender bodySummary).map (·.memoryId) := by
    rw [retriever, List.map_map]
    exact List.map_congr_left fun res _ => matchOf_memoryId res
  rw [hids]
  exact nodup_query _ _ _ _

end Answers

/-! ## Where a stored verdict comes from -/

section Origin

variable {g : Services}

/-- What an investigation in the memory says of itself. -/
structure Said where
  memoryId : String
  riskLevel : String
  classification : String

/-- The memory holds an investigation that says so. -/
def Holds (said : Said) (m : OrganizationMemory) : Prop :=
  ∃ r emailId subject sender executedTools summary, m.store.records.get? said.memoryId = some r ∧
    r.details = .investigation emailId subject sender said.classification said.riskLevel
      executedTools summary

/-- A call is an investigation that has it said. -/
def Says (g : Services) (said : Said) (m : OrganizationMemory) (c : MemoryCall) : Prop :=
  ∃ inv state draws, c = .investigate inv state draws ∧ draws.memoryId 0 = said.memoryId ∧
    said.riskLevel = (verdictOn g m.store inv).riskLevel.value ∧
    said.classification = classificationOf (verdictOn g m.store inv).riskLevel

/-- **A correction** leaves a record as it is, or changes its confidence. -/
theorem get?_correct {lower : String → String} {store : InMemoryVectorStore ℚ (JsonValue ℚ)}
    {c : Correction} {id : String} {r : MemoryRecord ℚ (JsonValue ℚ)}
    (h : (correct lower store c).records.get? id = some r) :
    (store.records.get? id = some r ∧
        (id = c.memoryId → feedbackConfidence (lower c.analystVerdict) = none)) ∨
      id = c.memoryId ∧ ∃ old confidence hc, store.records.get? id = some old ∧
        feedbackConfidence (lower c.analystVerdict) = some confidence ∧
        r = old.corrected confidence c.now hc c.now_le := by
  unfold correct at h
  split at h
  · next old confidence hold hverdict =>
    have hid : old.memoryId = c.memoryId := store.keyed _ _ hold
    have hupdate : store.update (old.corrected confidence c.now (feedbackConfidence_mem hverdict)
        c.now_le) = some (store.insert (old.corrected confidence c.now
          (feedbackConfidence_mem hverdict) c.now_le)) := by
      refine if_pos ?_
      show (store.records.get? old.memoryId).isSome = true
      rw [hid, hold]
      rfl
    rw [hupdate, Option.getD_some] at h
    have hset := (Dict.get?_set store.records old.memoryId id (old.corrected confidence c.now
      (feedbackConfidence_mem hverdict) c.now_le)).symm.trans h
    split_ifs at hset with hsame
    · refine .inr ⟨hsame.trans hid, old, confidence, _, ?_, hverdict, (Option.some.inj hset).symm⟩
      rw [hsame, hid, hold]
    · exact .inl ⟨hset, fun hsame' => absurd (hsame'.trans hid.symm) hsame⟩
  · next hnot =>
    refine .inl ⟨h, fun hsame => ?_⟩
    by_contra hsome
    obtain ⟨confidence, hverdict⟩ := Option.ne_none_iff_exists'.1 hsome
    exact hnot r confidence (hsame ▸ h) hverdict

/-- What a correction leaves of a record. -/
theorem get?_submitFeedback {m : OrganizationMemory} {c : Correction} {id : String}
    {r : MemoryRecord ℚ (JsonValue ℚ)}
    (h : (submitFeedback g m c).1.store.records.get? id = some r) :
    (m.store.records.get? id = some r ∧ (c.Valid → id = c.memoryId →
        feedbackConfidence (g.pipe.lower c.analystVerdict) = none)) ∨
      id = c.memoryId ∧ ∃ old confidence hc, m.store.records.get? id = some old ∧
        feedbackConfidence (g.pipe.lower c.analystVerdict) = some confidence ∧
        r = old.corrected confidence c.now hc c.now_le := by
  unfold submitFeedback at h
  split_ifs at h with hvalid
  · rcases get?_correct h with ⟨hold, hverdict⟩ | hcorrected
    · exact .inl ⟨hold, fun _ => hverdict⟩
    · exact .inr hcorrected
  · exact .inl ⟨h, fun hvalid' => absurd hvalid' hvalid⟩

/-- What an investigation leaves of a record. -/
theorem get?_investigate {m : OrganizationMemory} {inv : Investigation} {state : AgentState}
    {draws : Draws} {id : String} {r : MemoryRecord ℚ (JsonValue ℚ)}
    (h : (step g m (.investigate inv state draws)).1.store.records.get? id = some r) :
    m.store.records.get? id = some r ∨ ∃ i draft hpass,
      (drafts g.pipe inv (verdictOn g m.store inv)
        (some (generateReport state (verdictOn g m.store inv))))[i]? = some (.ok draft) ∧
      draws.memoryId i = id ∧ r = recordOf g.pipe draws i draft hpass := by
  have hsaved := (ingestInvestigation_eq g.pipe draws m.store inv (verdictOn g m.store inv)
    (some (generateReport state (verdictOn g m.store inv)))).1
  have h' : (ingestInvestigation g.pipe draws m.store inv (verdictOn g m.store inv)
      (some (generateReport state (verdictOn g m.store inv)))).1.records.get? id = some r := h
  rw [hsaved] at h'
  simpa using get?_saveAll_cases h'

/-- **What the memory holds of an investigation was there before, or is said by the call.** -/
theorem holds_step (said : Said) (m : OrganizationMemory) (c : MemoryCall)
    (h : Holds said (step g m c).1) : Holds said m ∨ Says g said m c := by
  obtain ⟨r, emailId, subject, sender, executedTools, summary, hget, hdetails⟩ := h
  cases c with
  | investigate inv state draws =>
    rcases get?_investigate hget with hold | ⟨i, draft, hpass, hdraft, hid, rfl⟩
    · exact .inl ⟨r, emailId, subject, sender, executedTools, summary, hold, hdetails⟩
    · rw [recordOf_details] at hdetails
      rw [drafts] at hdraft
      cases i with
      | zero =>
        obtain rfl := Except.ok.inj (Option.some.inj hdraft)
        simp only [investigationDraft, Details.investigation.injEq] at hdetails
        exact .inr ⟨inv, state, draws, rfl, hid, hdetails.2.2.2.2.1.symm, hdetails.2.2.2.1.symm⟩
      | succ i =>
        rw [List.getElem?_cons_succ] at hdraft
        have hclass := (later_of_mem_laterDrafts (List.mem_of_getElem? hdraft)).1
        rw [hdetails] at hclass
        exact absurd rfl hclass
  | feedback c =>
    rcases get?_submitFeedback hget with ⟨hold, -⟩ | ⟨-, old, confidence, hc, hold, -, rfl⟩
    · exact .inl ⟨r, emailId, subject, sender, executedTools, summary, hold, hdetails⟩
    · exact .inl ⟨old, emailId, subject, sender, executedTools, summary, hold, hdetails⟩

theorem not_holds_empty (said : Said) : ¬Holds said .empty := by
  rintro ⟨r, _, _, _, _, _, hget, -⟩
  exact absurd hget (by simp [OrganizationMemory.empty, InMemoryVectorStore.empty])

/-- An investigation says something under one identifier only. -/
theorem not_says_of_says {said said' : Said} (hne : said.memoryId ≠ said'.memoryId)
    {m m' : OrganizationMemory} {c : MemoryCall} (h : Says g said m c) : ¬Says g said' m' c := by
  rintro ⟨inv', state', draws', hsame, hid', -⟩
  obtain ⟨inv, state, draws, rfl, hid, -⟩ := h
  cases hsame
  exact hne (hid.symm.trans hid')

/-- The level of a verdict is high or critical exactly if the evidence alone makes it so. -/
theorem high_le_verdictOn_iff (store : InMemoryVectorStore ℚ (JsonValue ℚ)) (inv : Investigation) :
    .high ≤ (verdictOn g store inv).riskLevel ↔ .high ≤ (ownVerdict g inv).riskLevel := by
  rw [verdictOn, ownVerdict, Planner.riskLevel_reason_none, Planner.riskLevel_reason]
  split_ifs with hraise
  · rw [hraise.2]
    decide
  · exact Iff.rfl

/-- **A match that supports a verdict** says what an investigation of the memory says. -/
theorem holds_of_isPhishing (hfold : FoldsAscii g.env.casefold) {m : OrganizationMemory}
    {subject sender bodySummary : String} {found : InvestigationMatch}
    (h : found ∈ retriever g m.store subject sender bodySummary)
    (hphishing : found.isPhishing g.env = true) :
    Holds ⟨found.memoryId, found.riskLevel, found.classification⟩ m := by
  obtain ⟨r, res, hget, -, rfl, rfl⟩ := mem_retriever h
  have hnone : (⟨res.memoryId, res.similarityScore, "", "", "", "", ""⟩ :
      InvestigationMatch).isPhishing g.env = false := by
    have hempty : g.env.casefold "" = "" := hfold "" (by decide)
    simp only [InvestigationMatch.isPhishing, hempty]
    decide
  rw [matchOf_memoryId] at hget
  unfold matchOf at hphishing ⊢
  split at hphishing
  · next emailId subject' sender' classification riskLevel executedTools summary hdetails =>
    exact ⟨res.record, emailId, subject', sender', executedTools, summary, hget, hdetails⟩
  · rw [hnone] at hphishing
    exact absurd hphishing (by decide)

/-- The investigation that says so was rated high or critical by its own evidence. -/
theorem precedent_of_says (hfold : FoldsAscii g.env.casefold) {calls : List MemoryCall} {i : ℕ}
    {c : MemoryCall} {found : InvestigationMatch} (hphishing : found.isPhishing g.env = true)
    (hget : calls[i]? = some c)
    (h : Says g ⟨found.memoryId, found.riskLevel, found.classification⟩
      (memoryAfter g (calls.take i)) c) : Precedent g calls i := by
  obtain ⟨inv, state, draws, rfl, -, hrisk, hclass⟩ := h
  refine ⟨inv, state, draws, hget, ?_⟩
  rw [← high_le_verdictOn_iff (memoryAfter g (calls.take i)).store]
  exact (Planner.isPhishing_classificationOf hfold hrisk hclass).1 hphishing

end Origin

/-! ## History does not feed on itself -/

section Loop

/-- The supporting matches of an e-mail, by their identifiers. -/
theorem mem_investigationIds {env : ReasoningEnv} {parsedEmail : Option EmailInput}
    {find : Retriever} {id : String}
    (h : id ∈ (historicalContext env parsedEmail (some find)).investigationIds) :
    ∃ email found, parsedEmail = some email ∧ found ∈ find.answer email ∧
      found.isPhishing env = true ∧ found.memoryId = id := by
  cases parsedEmail with
  | none => exact absurd h List.not_mem_nil
  | some email =>
    rw [historicalContext, investigationIds_contextOf] at h
    obtain ⟨found, hfound, rfl⟩ := List.mem_map.1 h
    obtain ⟨hmem, hphishing⟩ := mem_of_mem_supportingMatches hfound
    exact ⟨email, found, rfl, hmem, hphishing, rfl⟩

theorem nodup_investigationIds (g : Services) (store : InMemoryVectorStore ℚ (JsonValue ℚ))
    (parsedEmail : Option EmailInput) :
    (historicalContext g.env parsedEmail (some (retriever g store))).investigationIds.Nodup := by
  cases parsedEmail with
  | none => exact List.nodup_nil
  | some email =>
    rw [historicalContext, investigationIds_contextOf]
    exact nodup_supportingMatches (nodup_retriever g store _ _ _)

/-- Two members of a list without repetitions. -/
theorem exists_pair_of_two_le {l : List String} (hnodup : l.Nodup) (h : 2 ≤ l.length) :
    ∃ a ∈ l, ∃ b ∈ l, a ≠ b := by
  cases l with
  | nil => simp at h
  | cons a l =>
    cases l with
    | nil => simp at h
    | cons b l =>
      have hne : a ≠ b := fun hsame => (List.nodup_cons.1 hnodup).1 (hsame ▸ List.mem_cons_self)
      exact ⟨a, List.mem_cons_self, b, List.mem_cons_of_mem a List.mem_cons_self, hne⟩

/-- **History does not feed on itself.**  Whatever investigations and corrections came before, and in
whatever order: what the memory adds to a verdict rests on an earlier investigation that was rated
high or critical by its own evidence; and if the level is not that of the evidence, it was raised from
low to medium, and there are two such investigations. -/
theorem raised_needs_precedents (g : Services) (hfold : FoldsAscii g.env.casefold)
    (calls : List MemoryCall) (inv : Investigation) :
    let verdict := verdictOn g (memoryAfter g calls).store inv
    ((verdict.riskLevel ≠ (ownVerdict g inv).riskLevel ∨
        verdict.confidence ≠ (ownVerdict g inv).confidence) → ∃ i, Precedent g calls i) ∧
      (verdict.riskLevel ≠ (ownVerdict g inv).riskLevel →
        (ownVerdict g inv).riskLevel = .low ∧ verdict.riskLevel = .medium ∧
        ∃ i j, i ≠ j ∧ Precedent g calls i ∧ Precedent g calls j) := by
  intro verdict
  constructor
  · intro hdiffers
    have hsupport : (historicalContext g.env inv.parsedEmail
        (some (retriever g (memoryAfter g calls).store))).investigationIds ≠ [] := by
      intro hnone
      obtain ⟨hlevel, hconfidence⟩ := reason_of_no_support inv.evidence hnone
      exact hdiffers.elim (fun h => h hlevel) fun h => h hconfidence
    obtain ⟨id, hid⟩ := List.exists_mem_of_ne_nil _ hsupport
    obtain ⟨email, found, -, hfound, hphishing, -⟩ := mem_investigationIds hid
    obtain ⟨i, c, hget, hsays⟩ := Machine.origin_of_run holds_step (not_holds_empty _)
      (holds_of_isPhishing hfold hfound hphishing)
    exact ⟨i, precedent_of_says hfold hphishing hget hsays⟩
  · intro hraised
    have hlevel : (reason g.env inv.parsedEmail inv.evidence
        (some (retriever g (memoryAfter g calls).store))).riskLevel = _ :=
      Planner.riskLevel_reason inv.evidence
    have hown : (ownVerdict g inv).riskLevel = _ := Planner.riskLevel_reason_none inv.evidence
    split_ifs at hlevel with hraise
    · obtain ⟨hcampaign, hlow⟩ := hraise
      refine ⟨hown.trans hlow, hlevel, ?_⟩
      have htwo : 2 ≤ (historicalContext g.env inv.parsedEmail
          (some (retriever g (memoryAfter g calls).store))).investigationIds.length := by
        cases hemail : inv.parsedEmail with
        | none =>
          rw [hemail] at hcampaign
          exact absurd hcampaign (by simp [historicalContext])
        | some email =>
          rw [hemail] at hcampaign
          exact two_le_of_hasCampaignMatch hcampaign
      obtain ⟨a, ha, b, hb, hne⟩ := exists_pair_of_two_le (nodup_investigationIds ..) htwo
      obtain ⟨_, found, -, hfound, hphishing, rfl⟩ := mem_investigationIds ha
      obtain ⟨_, found', -, hfound', hphishing', rfl⟩ := mem_investigationIds hb
      obtain ⟨i, j, c, c', hij, ⟨hget, hsays⟩, hget', hsays'⟩ := Machine.origins_of_run holds_step
        (fun _ _ _ => not_says_of_says hne) (not_holds_empty _) (not_holds_empty _)
        (holds_of_isPhishing hfold hfound hphishing) (holds_of_isPhishing hfold hfound' hphishing')
      exact ⟨i, j, hij, precedent_of_says hfold hphishing hget hsays,
        precedent_of_says hfold hphishing' hget' hsays'⟩
    · exact absurd (hlevel.trans hown.symm) hraised

/-- An organization with the plain services. -/
def plainServices : Services := ⟨Planner.asciiEnv, plainPipeline, SquareRoot.rational⟩

/-- An e-mail, with what was found in it. -/
def mailed (evidence : List Planner.EvidenceRecord) : Investigation :=
  ⟨some Planner.noteEmail, ["url_tool"], none, evidence⟩

/-- Identifiers of one letter, from one of them on. -/
def letteredFrom (k : ℕ) : Draws where
  now := lettered.now
  memoryId n := lettered.memoryId (k + n)
  now_le := lettered.now_le
  memoryId_fits n := lettered.memoryId_fits (k + n)

/-- The e-mail with a bad link, investigated and learned. -/
def learnBadLink (k : ℕ) : MemoryCall :=
  .investigate (mailed [Planner.bareItem "url" .critical]) (.create none "state") (letteredFrom k)

/-- The e-mail came twice with a bad link, and comes again without one: both times match. -/
theorem raised_needs_precedents_badLink :
    let calls := [learnBadLink 0, learnBadLink 10]
    let verdict := verdictOn plainServices (memoryAfter plainServices calls).store (mailed [])
    ((verdict.riskLevel ≠ (ownVerdict plainServices (mailed [])).riskLevel ∨
        verdict.confidence ≠ (ownVerdict plainServices (mailed [])).confidence) →
          ∃ i, Precedent plainServices calls i) ∧
      (verdict.riskLevel ≠ (ownVerdict plainServices (mailed [])).riskLevel →
        (ownVerdict plainServices (mailed [])).riskLevel = .low ∧ verdict.riskLevel = .medium ∧
        ∃ i j, i ≠ j ∧ Precedent plainServices calls i ∧ Precedent plainServices calls j) :=
  raised_needs_precedents plainServices Planner.foldsAscii_asciiLower
    [learnBadLink 0, learnBadLink 10] (mailed [])

end Loop

end ScamOn.Memory
