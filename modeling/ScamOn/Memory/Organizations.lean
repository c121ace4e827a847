import ScamOn.Memory.LearningLoop

/-!
# The memories of the organizations

The API opens a memory for an organization when it is first asked, on a file that is named after the
organization, and keeps it until the program ends.  Each investigation writes the file.  The endpoints
run in a pool of threads and no lock is taken; here requests are handled one at a time.

* `hybridSearch` is the search that the API offers, `handle` a request on an open memory.
* `apiStep` is a request of an organization, or a new start of the program.
* `organization_memory`: if no two organizations have the same file, each finds what its own
  investigations have learned, whatever the others do and however often the program starts again.
* `last_writer_wins`: of the organizations that have the same file, all find after a start what the
  one that wrote last has in its memory, and nothing else.
-/

namespace ScamOn.Memory

open Planner (AgentState FinalReport ReasoningOutput generateReport)

/-- The API, with its services, the letters and digits of the language, and the text of a record in
lower case. -/
structure MemoryApi where
  services : Services
  isalnum : Char → Bool
  dumpText : RecordData ℚ (JsonValue ℚ) → String

/-! ## Hybrid search -/

section Search

variable (api : MemoryApi)

/-- `s.split()`. -/
def splitWords (s : String) : List String :=
  ((s.toList.splitOnP Text.isSpace).filter (· ≠ [])).map String.ofList

theorem hybridTopK : 1 ≤ 5 * 2 ∧ 5 * 2 ≤ 100 := by decide

theorem hybridConfidence : (0 : ℚ) ≤ 0 ∧ (0 : ℚ) ≤ 1 := by norm_num

theorem length_queryText (queryText : String) :
    ShortText 1024 (some (String.ofList (queryText.toList.take 1024))) := by
  show (String.ofList (queryText.toList.take 1024)).length ≤ 1024
  rw [String.length_ofList]
  exact List.length_take_le _ _

/-- The query of `hybrid_search`, whose text the model cuts. -/
def hybridQuery (queryText : String) : MemoryQuery ℚ (JsonValue ℚ) where
  queryText := some (String.ofList (queryText.toList.take 1024))
  queryVector := none
  memoryType := none
  topK := 5 * 2
  minConfidence := 0
  metadataFilters := ∅
  timeRangeStart := none
  timeRangeEnd := none
  queryText_le := length_queryText queryText
  topK_range := hybridTopK
  minConfidence_range := hybridConfidence
  timeRangeStart_le := trivial
  timeRangeEnd_le := trivial

/-- A result with its combined score. -/
structure HybridResult where
  memoryId : String
  memoryType : MemoryType
  similarityScore : ℚ
  record : MemoryRecord ℚ (JsonValue ℚ)

/-- The share of the keywords that a record mentions. -/
def keywordScore (keywords : List String) (r : MemoryRecord ℚ (JsonValue ℚ)) : ℚ :=
  if keywords = [] then 0
  else ((keywords.filter fun kw => Text.contains (api.dumpText r.toRecordData) kw).length : ℚ) /
    keywords.length

/-- `hybrid_search`, with `top_k` 5 and no type. -/
def hybridSearch (store : InMemoryVectorStore ℚ (JsonValue ℚ)) (queryText : String) :
    List HybridResult :=
  let semantic := query api.services.squareRoot api.services.pipe.embedder store (hybridQuery queryText)
  let keywords := ((splitWords queryText).filter (2 < ·.length)).map api.services.pipe.lower
  let scored := semantic.map fun res =>
    { memoryId := res.memoryId
      memoryType := res.memoryType
      similarityScore := roundDigits 4
        (res.similarityScore * (7 / 10) + keywordScore api keywords res.record * (3 / 10))
      record := res.record : HybridResult }
  (ranked (·.similarityScore) scored).take 5

end Search

/-! ## Requests -/

section Api

variable (api : MemoryApi)

/-- `safe_org_id`. -/
def safeOrgId (orgId : String) : String :=
  String.ofList (orgId.toList.filter fun c => api.isalnum c || c = '-' || c = '_')

/-- The file of an organization. -/
def persistenceFile (orgId : String) : String :=
  (if safeOrgId api orgId = "" then "default" else safeOrgId api orgId) ++ ".json"

/-- The files, and `_organization_memory_services`. -/
structure ApiMemory where
  files : Dict String (SnapshotFile ℚ)
  services : Dict String (InMemoryVectorStore ℚ (JsonValue ℚ))

/-- Before the first start. -/
def ApiMemory.init : ApiMemory := ⟨∅, ∅⟩

/-- The file of an organization, if there is one yet. -/
def ApiMemory.fileOf (w : ApiMemory) (orgId : String) : SnapshotFile ℚ :=
  (w.files.get? (persistenceFile api orgId)).getD .absent

/-- `get_memory_services`. -/
def getMemoryServices (w : ApiMemory) (orgId : String) (drawn : ℕ → Generated) :
    InMemoryVectorStore ℚ (JsonValue ℚ) × ApiMemory :=
  match w.services.get? orgId with
  | some store => (store, w)
  | none =>
    let store := (openStore drawn (w.fileOf api orgId)).store
    (store, { w with services := w.services.set orgId store })

/-- What an organization asks for; an investigation may fail before there is a verdict. -/
inductive Request
  | investigate (inv : Investigation) (state : AgentState) (draws : Draws)
  | abandoned
  | search (q : String)

inductive ApiAnswer
  | reported (verdict : ReasoningOutput) (report : FinalReport)
  | raised (e : PyException)
  | failed
  | found (results : List HybridResult)
  | started

/-- What a request leaves of an open memory, and whether it has written the file: each insertion
does, and the record of the investigation is the first. -/
structure Handled where
  store : InMemoryVectorStore ℚ (JsonValue ℚ)
  written : Bool
  answer : ApiAnswer

/-- A request on an open memory. -/
def handle (store : InMemoryVectorStore ℚ (JsonValue ℚ)) : Request → Handled
  | .investigate inv state draws =>
    let verdict := verdictOn api.services store inv
    let report := generateReport state verdict
    let learned := ingestInvestigation api.services.pipe draws store inv verdict (some report)
    let answer := match learned.2 with
      | .ok _ => .reported verdict report
      | .error e => .raised e
    ⟨learned.1, (investigationDraft inv verdict (some report)).Passes, answer⟩
  | .abandoned => ⟨store, false, .failed⟩
  | .search q => ⟨store, false, .found (hybridSearch api store q)⟩

/-- A request of an organization, with what is drawn if its file is read, or a start. -/
inductive ApiCall
  | request (orgId : String) (drawn : ℕ → Generated) (r : Request)
  | start

/-- One call. -/
def apiStep (w : ApiMemory) : ApiCall → ApiMemory × ApiAnswer
  | .request orgId drawn r =>
    let opened := getMemoryServices api w orgId drawn
    let handled := handle api opened.1 r
    let files := if handled.written then
        w.files.set (persistenceFile api orgId) (snapshot handled.store) else w.files
    (⟨files, opened.2.services.set orgId handled.store⟩, handled.answer)
  | .start => ({ w with services := ∅ }, .started)

end Api

/-! ## What the files hold -/

section Sound

variable {api : MemoryApi}

theorem typeMap_defaultType {cls : RecordClass} (h : cls ≠ .BaseMemoryRecord) :
    typeMap cls.defaultType = cls := by
  cases cls with
  | BaseMemoryRecord => exact absurd rfl h
  | _ => rfl

/-- **A record that is learned** is of the class of its tag. -/
theorem conforms_recordOf {pipe : LearningPipeline} {draws : Draws} {n : ℕ} {draft : Draft}
    (hclass : draft.details.recordClass ≠ .BaseMemoryRecord) (h : draft.Passes) :
    (recordOf pipe draws n draft h).details.recordClass =
      typeMap (recordOf pipe draws n draft h).memoryType :=
  (typeMap_defaultType hclass).symm

theorem conforming_empty : Conforming (.empty : InMemoryVectorStore ℚ (JsonValue ℚ)) := by
  intro id r hget
  exact absurd hget (by simp [InMemoryVectorStore.empty])

theorem conforming_ingestInvestigation {pipe : LearningPipeline} {draws : Draws}
    {store : InMemoryVectorStore ℚ (JsonValue ℚ)} (h : Conforming store) (inv : Investigation)
    (reasoning : ReasoningOutput) (report : Option FinalReport) :
    Conforming (ingestInvestigation pipe draws store inv reasoning report).1 := by
  intro id r hget
  rw [(ingestInvestigation_eq pipe draws store inv reasoning report).1] at hget
  rcases get?_saveAll_cases hget with hold | ⟨i, draft, hpass, hdraft, -, rfl⟩
  · exact h id r hold
  · exact conforms_recordOf (recordClass_of_mem_drafts (List.mem_of_getElem? hdraft)) hpass

theorem conforming_handle (api : MemoryApi) {store : InMemoryVectorStore ℚ (JsonValue ℚ)} (h : Conforming store)
    (r : Request) : Conforming (handle api store r).store := by
  cases r with
  | investigate inv state draws => exact conforming_ingestInvestigation h inv _ _
  | abandoned => exact h
  | search q => exact h

/-- What has not written the file has not changed the memory. -/
theorem store_handle_of_not_written {store : InMemoryVectorStore ℚ (JsonValue ℚ)} {r : Request}
    (h : (handle api store r).written = false) : (handle api store r).store = store := by
  cases r with
  | investigate inv state draws =>
    have hfails := of_decide_eq_false h
    simp only [handle, ingestInvestigation, dif_neg hfails]
  | abandoned => rfl
  | search q => rfl

/-- A file that a new store reads as `s`. -/
def ReadsAs (file : SnapshotFile ℚ) (s : InMemoryVectorStore ℚ (JsonValue ℚ)) : Prop :=
  Conforming s ∧ ∀ drawn, (openStore drawn file).store = s

theorem readsAs_absent : ReadsAs .absent .empty := ⟨conforming_empty, fun _ => rfl⟩

theorem readsAs_snapshot {s : InMemoryVectorStore ℚ (JsonValue ℚ)} (h : Conforming s) :
    ReadsAs (snapshot s) s :=
  ⟨h, fun drawn => (restore_snapshot_iff drawn s).2 h⟩

/-- Every file can be read, and every memory could be. -/
def Sound (api : MemoryApi) (w : ApiMemory) : Prop :=
  (∀ orgId, ∃ s, ReadsAs (w.fileOf api orgId) s) ∧
    ∀ orgId s, w.services.get? orgId = some s → Conforming s

theorem sound_init : Sound api .init :=
  ⟨fun _ => ⟨.empty, readsAs_absent⟩, fun _ _ h => absurd h (by simp [ApiMemory.init])⟩

/-- The memory that an organization finds. -/
def found (api : MemoryApi) (w : ApiMemory) (orgId : String) (drawn : ℕ → Generated) :
    InMemoryVectorStore ℚ (JsonValue ℚ) := (getMemoryServices api w orgId drawn).1

theorem conforming_found {w : ApiMemory} (hw : Sound api w) (orgId : String) (drawn : ℕ → Generated) :
    Conforming (found api w orgId drawn) := by
  unfold found getMemoryServices
  cases hget : w.services.get? orgId with
  | some s => exact hw.2 orgId s hget
  | none =>
    obtain ⟨s, hconforming, hreads⟩ := hw.1 orgId
    show Conforming (openStore drawn (w.fileOf api orgId)).store
    rw [hreads drawn]
    exact hconforming

/-- The memories after a request. -/
theorem services_request (w : ApiMemory) (orgId : String) (drawn : ℕ → Generated) (r : Request)
    (other : String) :
    (apiStep api w (.request orgId drawn r)).1.services.get? other =
      if other = orgId then some (handle api (found api w orgId drawn) r).store
      else w.services.get? other := by
  have hset := Dict.get?_set (getMemoryServices api w orgId drawn).2.services orgId other
    (handle api (found api w orgId drawn) r).store
  refine hset.trans ?_
  split_ifs with hsame
  · rfl
  · unfold getMemoryServices
    cases w.services.get? orgId with
    | some s => rfl
    | none => exact Dict.get?_set_of_ne _ _ hsame

/-- The files after a request. -/
theorem fileOf_request (w : ApiMemory) (orgId : String) (drawn : ℕ → Generated) (r : Request)
    (other : String) :
    (apiStep api w (.request orgId drawn r)).1.fileOf api other =
      if (handle api (found api w orgId drawn) r).written = true ∧
          persistenceFile api other = persistenceFile api orgId then
        snapshot (handle api (found api w orgId drawn) r).store
      else w.fileOf api other := by
  have hfiles : (apiStep api w (.request orgId drawn r)).1.files =
      if (handle api (found api w orgId drawn) r).written = true then
        w.files.set (persistenceFile api orgId)
          (snapshot (handle api (found api w orgId drawn) r).store)
      else w.files := rfl
  unfold ApiMemory.fileOf
  rw [hfiles]
  by_cases hwritten : (handle api (found api w orgId drawn) r).written = true
  · rw [if_pos hwritten, Dict.get?_set]
    by_cases hfile : persistenceFile api other = persistenceFile api orgId
    · rw [if_pos hfile, if_pos ⟨hwritten, hfile⟩]
      rfl
    · rw [if_neg hfile, if_neg fun h => hfile h.2]
  · rw [if_neg hwritten, if_neg fun h => hwritten h.1]

/-- **Every file can be read in every reachable state.** -/
theorem sound_step (w : ApiMemory) (call : ApiCall) (hw : Sound api w) :
    Sound api (apiStep api w call).1 := by
  cases call with
  | start => exact ⟨hw.1, fun _ _ h => absurd h (by simp [apiStep])⟩
  | request orgId drawn r =>
    have hconforming := conforming_handle api (conforming_found hw orgId drawn) r
    constructor
    · intro other
      rw [fileOf_request]
      split_ifs
      · exact ⟨_, readsAs_snapshot hconforming⟩
      · exact hw.1 other
    · intro other s hget
      rw [services_request] at hget
      split_ifs at hget
      · exact Option.some.inj hget ▸ hconforming
      · exact hw.2 other s hget

theorem sound_run (calls : List ApiCall) : Sound api (Machine.run (apiStep api) .init calls) :=
  Machine.inv_run (C := fun _ _ => True) (fun w call hw _ => sound_step w call hw) sound_init
    (Machine.always_of_forall (fun _ _ => trivial) _ _)

end Sound

/-! ## One memory for each organization -/

section Apart

variable {api : MemoryApi}

/-- The memory of an organization is `s`: it is what is open, if anything is, and what is on file. -/
def Kept (api : MemoryApi) (orgId : String) (s : InMemoryVectorStore ℚ (JsonValue ℚ))
    (w : ApiMemory) : Prop :=
  ReadsAs (w.fileOf api orgId) s ∧ ∀ open_, w.services.get? orgId = some open_ → open_ = s

theorem found_of_kept {w : ApiMemory} {orgId : String} {s : InMemoryVectorStore ℚ (JsonValue ℚ)}
    (h : Kept api orgId s w) (drawn : ℕ → Generated) : found api w orgId drawn = s := by
  unfold found getMemoryServices
  cases hget : w.services.get? orgId with
  | some open_ => exact h.2 open_ hget
  | none => exact h.1.2 drawn

/-- **A request of the organization itself.** -/
theorem kept_own {w : ApiMemory} {orgId : String} {s : InMemoryVectorStore ℚ (JsonValue ℚ)}
    (h : Kept api orgId s w) (drawn : ℕ → Generated) (r : Request) :
    Kept api orgId (handle api s r).store (apiStep api w (.request orgId drawn r)).1 := by
  have hfound := found_of_kept h drawn
  constructor
  · rw [fileOf_request, hfound]
    split_ifs with hwritten
    · exact readsAs_snapshot (conforming_handle api h.1.1 r)
    · have hquiet : (handle api s r).written = false := by simpa using hwritten
      rw [store_handle_of_not_written hquiet]
      exact h.1
  · intro open_ hget
    rw [services_request, if_pos rfl, hfound] at hget
    exact (Option.some.inj hget).symm

/-- **A request of another organization**, which has another file. -/
theorem kept_other {w : ApiMemory} {orgId other : String}
    {s : InMemoryVectorStore ℚ (JsonValue ℚ)} (h : Kept api orgId s w) (hne : orgId ≠ other)
    (hfile : persistenceFile api orgId ≠ persistenceFile api other) (drawn : ℕ → Generated)
    (r : Request) : Kept api orgId s (apiStep api w (.request other drawn r)).1 := by
  constructor
  · rw [fileOf_request, if_neg fun hboth => hfile hboth.2]
    exact h.1
  · intro open_ hget
    rw [services_request, if_neg hne] at hget
    exact h.2 open_ hget

/-- What an organization learns in a call. -/
def learnedBy (orgId : String) : ApiCall → Option MemoryCall
  | .request other _ (.investigate inv state draws) =>
    if other = orgId then some (.investigate inv state draws) else none
  | _ => none

/-- The organization that calls. -/
def ApiCall.orgId? : ApiCall → Option String
  | .request orgId _ _ => some orgId
  | .start => none

theorem kept_step {orgs : Set String} (hapart : Set.InjOn (persistenceFile api) orgs) {orgId : String}
    (horg : orgId ∈ orgs) {w : ApiMemory} {m : OrganizationMemory} (h : Kept api orgId m.store w)
    (call : ApiCall) (hcall : ∀ other, call.orgId? = some other → other ∈ orgs) :
    Kept api orgId
      (Machine.run (step api.services) m (learnedBy orgId call).toList).store
      (apiStep api w call).1 := by
  cases call with
  | start => exact ⟨h.1, fun _ hget => absurd hget (by simp [apiStep])⟩
  | request other drawn r =>
    by_cases hsame : other = orgId
    · subst hsame
      have hkept := kept_own h drawn r
      cases r with
      | investigate inv state draws =>
        rw [learnedBy, if_pos rfl]
        exact hkept
      | abandoned => exact hkept
      | search q => exact hkept
    · have hne : orgId ≠ other := fun heq => hsame heq.symm
      have hfile : persistenceFile api orgId ≠ persistenceFile api other :=
        fun heq => hne (hapart horg (hcall other rfl) heq)
      have hkept := kept_other h hne hfile drawn r
      cases r with
      | investigate inv state draws =>
        rw [learnedBy, if_neg hsame]
        exact hkept
      | abandoned => exact hkept
      | search q => exact hkept

theorem kept_run {orgs : Set String} (hapart : Set.InjOn (persistenceFile api) orgs) {orgId : String}
    (horg : orgId ∈ orgs) {w : ApiMemory} {m : OrganizationMemory} (h : Kept api orgId m.store w)
    (calls : List ApiCall)
    (hcalls : ∀ call ∈ calls, ∀ other, call.orgId? = some other → other ∈ orgs) :
    Kept api orgId
      (Machine.run (step api.services) m (calls.filterMap (learnedBy orgId))).store
      (Machine.run (apiStep api) w calls) := by
  induction calls generalizing w m with
  | nil => exact h
  | cons call calls ih =>
    have hfirst := kept_step hapart horg h call (hcalls call List.mem_cons_self)
    have hrest := ih hfirst fun c hc => hcalls c (List.mem_cons_of_mem call hc)
    have hsplit : (call :: calls).filterMap (learnedBy orgId) =
        (learnedBy orgId call).toList ++ calls.filterMap (learnedBy orgId) := by
      cases hlearned : learnedBy orgId call with
      | none => simp [hlearned]
      | some learned => simp [hlearned]
    rw [hsplit, Machine.run_append, Machine.run_cons]
    exact hrest

/-- **One memory for each organization.**  If no two of the organizations have the same file, then in
every run an organization finds exactly what the investigations of its own have learned, one after the
other, and is answered from that: nothing comes from the others, and nothing is lost by a start. -/
theorem organization_memory (api : MemoryApi) (orgs : Set String)
    (hapart : Set.InjOn (persistenceFile api) orgs) (calls : List ApiCall)
    (hcalls : ∀ call ∈ calls, ∀ other, call.orgId? = some other → other ∈ orgs) (orgId : String)
    (horg : orgId ∈ orgs) (drawn : ℕ → Generated) :
    let w := Machine.run (apiStep api) .init calls
    let own := (memoryAfter api.services (calls.filterMap (learnedBy orgId))).store
    found api w orgId drawn = own ∧
      ∀ r, (apiStep api w (.request orgId drawn r)).2 = (handle api own r).answer := by
  intro w own
  have hinit : Kept api orgId OrganizationMemory.empty.store .init :=
    ⟨readsAs_absent, fun _ hget => absurd hget (by simp [ApiMemory.init])⟩
  have hfound : found api w orgId drawn = own :=
    found_of_kept (kept_run hapart horg hinit calls hcalls) drawn
  refine ⟨hfound, fun r => ?_⟩
  show (handle api (found api w orgId drawn) r).answer = _
  rw [hfound]

/-- The API with the plain services. -/
def plainApi : MemoryApi := ⟨plainServices, Char.isAlphanum, fun _ => ""⟩

theorem plainApi_apart : Set.InjOn (persistenceFile plainApi) {"a", "b"} := by
  have hfiles : persistenceFile plainApi "a" ≠ persistenceFile plainApi "b" := by decide +kernel
  rintro x (rfl | rfl) y (rfl | rfl) heq
  · rfl
  · exact absurd heq hfiles
  · exact absurd heq.symm hfiles
  · rfl

/-- An investigation of the bad link. -/
def investigateBadLink : Request := .investigate badLink (.create none "state") lettered

/-- The bad link is investigated, and the program starts again. -/
theorem organization_memory_badLink :
    let calls := [.request "a" drawnIds investigateBadLink, .start, .request "b" drawnIds .abandoned]
    let w := Machine.run (apiStep plainApi) .init calls
    let own := (memoryAfter plainApi.services (calls.filterMap (learnedBy "a"))).store
    found plainApi w "a" drawnIds = own ∧
      ∀ r, (apiStep plainApi w (.request "a" drawnIds r)).2 = (handle plainApi own r).answer := by
  intro calls
  refine organization_memory plainApi {"a", "b"} plainApi_apart calls ?_ "a" (.inl rfl) drawnIds
  intro call hcall other horg
  simp only [calls, List.mem_cons, List.not_mem_nil, or_false] at hcall
  rcases hcall with rfl | rfl | rfl
  · exact .inl (Option.some.inj horg).symm
  · exact absurd horg (by simp [ApiCall.orgId?])
  · exact .inr (Option.some.inj horg).symm

end Apart

/-! ## Organizations with the same file -/

section Shared

variable {api : MemoryApi}

/-- A call that writes no file of this name: a start, a request that is no investigation, or one of an
organization with another file. -/
def LeavesFile (api : MemoryApi) (file : String) : ApiCall → Prop
  | .request orgId _ (.investigate _ _ _) => persistenceFile api orgId ≠ file
  | _ => True

theorem fileOf_of_leavesFile {w : ApiMemory} {orgId : String} {call : ApiCall}
    (h : LeavesFile api (persistenceFile api orgId) call) :
    (apiStep api w call).1.fileOf api orgId = w.fileOf api orgId := by
  cases call with
  | start => rfl
  | request other drawn r =>
    rw [fileOf_request]
    refine if_neg fun hboth => ?_
    cases r with
    | investigate inv state draws => exact h hboth.2.symm
    | abandoned => exact Bool.noConfusion hboth.1
    | search q => exact Bool.noConfusion hboth.1

theorem fileOf_run_of_leavesFile {w : ApiMemory} {orgId : String} {calls : List ApiCall}
    (h : ∀ call ∈ calls, LeavesFile api (persistenceFile api orgId) call) :
    (Machine.run (apiStep api) w calls).fileOf api orgId = w.fileOf api orgId := by
  induction calls generalizing w with
  | nil => rfl
  | cons call calls ih =>
    rw [Machine.run_cons, ih fun c hc => h c (List.mem_cons_of_mem call hc)]
    exact fileOf_of_leavesFile (h call List.mem_cons_self)

/-- **The last writer wins.**  In every run, if a request of an organization has written its file, and
no investigation of an organization with the same file comes after it, then after the next start each
of them finds what that organization had in its memory, and not what the others had learned. -/
theorem last_writer_wins (api : MemoryApi) (before after : List ApiCall) (writer reader : String)
    (drawn drawn' : ℕ → Generated) (r : Request)
    (hfile : persistenceFile api reader = persistenceFile api writer) :
    let w := Machine.run (apiStep api) .init before
    let handled := handle api (found api w writer drawn) r
    handled.written = true →
      (∀ call ∈ after, LeavesFile api (persistenceFile api writer) call) →
        found api (Machine.run (apiStep api) .init
          (before ++ .request writer drawn r :: after ++ [.start])) reader drawn' =
            handled.store := by
  intro w handled hwritten hafter
  have hsound : Sound api w := sound_run before
  have hrun : Machine.run (apiStep api) .init (before ++ .request writer drawn r :: after ++ [.start]) =
      (apiStep api (Machine.run (apiStep api) (apiStep api w (.request writer drawn r)).1 after)
        .start).1 := by
    rw [Machine.run_append, Machine.run_append]
    rfl
  have hshared : ∀ v : ApiMemory, v.fileOf api reader = v.fileOf api writer := by
    intro v
    unfold ApiMemory.fileOf
    rw [hfile]
  have hcontent : (Machine.run (apiStep api) (apiStep api w (.request writer drawn r)).1 after).fileOf
      api reader = snapshot handled.store := by
    rw [hshared, fileOf_run_of_leavesFile hafter, fileOf_request]
    exact if_pos ⟨hwritten, rfl⟩
  have hreads := readsAs_snapshot (conforming_handle api (conforming_found hsound writer drawn) r)
  rw [hrun]
  show (openStore drawn' _).store = _
  rw [← hreads.2 drawn', ← hcontent]
  rfl

theorem investigateBadLink_written :
    persistenceFile plainApi "ab" = persistenceFile plainApi "a.b" ∧
      (handle plainApi (found plainApi .init "a.b" drawnIds) investigateBadLink).written = true := by
  constructor
  · decide +kernel
  · decide +kernel

/-- Two organizations whose names differ by a full stop. -/
theorem last_writer_wins_badLink :
    found plainApi (Machine.run (apiStep plainApi) .init
        ([] ++ .request "a.b" drawnIds investigateBadLink :: [] ++ [.start])) "ab" drawnIds =
      (handle plainApi (found plainApi .init "a.b" drawnIds) investigateBadLink).store :=
  last_writer_wins plainApi [] [] "a.b" "ab" drawnIds drawnIds investigateBadLink
    investigateBadLink_written.1 investigateBadLink_written.2 (by simp)

end Shared

end ScamOn.Memory
