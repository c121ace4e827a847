import Mathlib.Order.WithBot
import ScamOn.Lib.Machine
import ScamOn.Memory.VectorStore

/-!
# The pgvector store

`PgVectorStore` keeps records in a table of a PostgreSQL database with pgvector, and goes on with
an in-memory store of its own from the first error on.

* `Row`, `upsert`, `updateRow` and `select` are the table and the statements on it; `PgSetting` has
  what the store takes from outside, among it the order of rows that the database is free to choose.
* `PgVectorStore.step` is a call on the store, `memoryStep` the same call on an in-memory store.
* `Faithful` says of a call that the table and its columns tell what the in-memory store goes by.
* `answers_as_memory`: while the database is up, and the calls are of this kind, the store answers
  as an in-memory store; once it is down, it answers as a new in-memory store.
-/

namespace ScamOn.Memory

variable {K : Type*}

/-! ## The table -/

/-- A row of `scamon_memory_vectors`; an embedding may be `NULL`. -/
structure Row (K : Type*) where
  memoryId : String
  tenantId : String
  memoryType : MemoryType
  embedding : Option (List K)
  metadata : Dict String (JsonValue K)
  createdAt : String

abbrev Table (K : Type*) := Dict String (Row K)

/-- A similarity in SQL: a number, or below the numbers `NaN`, or below that `NULL`. -/
abbrev Score (K : Type*) := WithBot (WithBot K)

/-- `INSERT ... ON CONFLICT (memory_id) DO UPDATE SET embedding, metadata`. -/
def upsert (table : Table K) (row : Row K) : Table K :=
  match table.get? row.memoryId with
  | none => table.set row.memoryId row
  | some old =>
    table.set row.memoryId { old with embedding := row.embedding, metadata := row.metadata }

/-- `UPDATE ... SET embedding, metadata WHERE memory_id`; `none` if no row was updated. -/
def updateRow (table : Table K) (row : Row K) : Option (Table K) :=
  match table.get? row.memoryId with
  | none => none
  | some old =>
    some (table.set row.memoryId { old with embedding := row.embedding, metadata := row.metadata })

variable [Field K] [LinearOrder K]

/-- What the store is configured with, and what it takes from the database and from the language:
`ORDER BY` puts the rows in descending order of their similarity, equals in any order; `float` of a
text; `str` of a value that is no text. -/
structure PgSetting (K : Type*) [Field K] [LinearOrder K] where
  dimension : ℕ
  dimension_pos : 0 < dimension
  squareRoot : SquareRoot K
  orderBy : (Row K → Score K) → List (Row K) → List (Row K)
  orderBy_perm : ∀ score rows, (orderBy score rows).Perm rows
  orderBy_sorted : ∀ score rows, (orderBy score rows).Pairwise fun a b => score b ≤ score a
  floatOfStr : String → Option K
  strOf : JsonValue K → String

namespace PgSetting

variable (g : PgSetting K)

/-- `str(value)`. -/
def pyStr : JsonValue K → String
  | .str s => s
  | value => g.strOf value

/-- `float(value)`; `none` is an exception. -/
def pyFloat : JsonValue K → Option K
  | .str s => g.floatOfStr s
  | value => value.number?

/-- The `tenant_id` column of a record. -/
def tenantColumn (metadata : Dict String (JsonValue K)) : String :=
  g.pyStr ((metadata.get? "tenant_id").getD ((metadata.get? "org_id").getD (.str "default")))

/-- The row of a record. -/
def rowOf (r : MemoryRecord K (JsonValue K)) : Row K where
  memoryId := r.memoryId
  tenantId := g.tenantColumn r.metadata
  memoryType := r.memoryType
  embedding := if r.vector = [] then none else some r.vector
  metadata := r.metadata
  createdAt := r.createdAt

/-- The tenant that a search asks for. -/
def tenantFilter (filters : Dict String (JsonValue K)) : Option String :=
  let tenantId := getItem filters "tenant_id"
  match if tenantId.truthy then tenantId else getItem filters "org_id" with
  | .null => none
  | value => some (g.pyStr value)

/-- `tenant_id = :tenant_id`, if there is a tenant. -/
def tenantClause (filters : Dict String (JsonValue K)) (tenantId : String) : Bool :=
  match g.tenantFilter filters with
  | none => true
  | some tenant => tenantId = tenant

/-- `1 - (embedding <=> :embedding)`. -/
def score (queryVector : List K) (row : Row K) : Score K :=
  match row.embedding with
  | none => ⊥
  | some vector =>
    if 0 < g.squareRoot.norm queryVector ∧ 0 < g.squareRoot.norm vector then
      ((g.squareRoot.cosine queryVector vector : WithBot K) : Score K)
    else ((⊥ : WithBot K) : Score K)

/-- `SELECT ... WHERE ... ORDER BY embedding <=> :embedding LIMIT :top_k`. -/
def select (table : Table K) (a : SearchArgs K (JsonValue K)) : List (Row K) :=
  (g.orderBy (g.score a.queryVector) (table.values.filter fun row =>
    g.tenantClause a.metadataFilters row.tenantId && typeMatches a.memoryType row.memoryType)).take
      a.topK

/-- `float(meta.get("confidence_score", 1.0))`. -/
def confidenceOf (metadata : Dict String (JsonValue K)) : Option K :=
  g.pyFloat ((metadata.get? "confidence_score").getD (.float 1))

/-- The record that a result carries. -/
def recordOf (now : String) (row : Row K) (confidence : K) : RecordData K (JsonValue K) where
  memoryId := row.memoryId
  memoryType := row.memoryType
  createdAt := row.createdAt
  updatedAt := now
  ttlSeconds := none
  confidenceScore := confidence
  metadata := row.metadata
  vector := []
  details := .base

variable [IsStrictOrderedRing K] [FloorRing K]

/-- A row as a result: `none` is an exception, and `some none` a row below the confidence. -/
def resultOf (a : SearchArgs K (JsonValue K)) (now : String) (row : Row K) :
    Option (Option (MemorySearchResult K (JsonValue K))) :=
  match g.score a.queryVector row, g.confidenceOf row.metadata with
  | some similarity, some confidence =>
    if confidence < a.minConfidence then some none
    else
      match similarity with
      | none => none
      | some s =>
        if hrange : |roundDigits 4 s| ≤ 1 then
          if hvalid : (recordOf now row confidence).Valid then
            some (some ⟨row.memoryId, row.memoryType, roundDigits 4 s, ⟨_, hvalid⟩, hrange⟩)
          else none
        else none
  | _, _ => none

/-- The loop over the rows. -/
def readRows (a : SearchArgs K (JsonValue K)) (now : String) :
    List (Row K) → Option (List (MemorySearchResult K (JsonValue K)))
  | [] => some []
  | row :: rest =>
    match g.resultOf a now row, readRows a now rest with
    | some found, some results => some (found.toList ++ results)
    | _, _ => none

end PgSetting

/-! ## The store -/

/-- `PgVectorStore`, with the table, and whether the database is up. -/
structure PgVectorStore (K : Type*) [Field K] [LinearOrder K] where
  table : Table K
  fallbackStore : InMemoryVectorStore K (JsonValue K)
  isDegraded : Bool
  isUp : Bool

/-- A time as `datetime.isoformat` writes it. -/
abbrev Timestamp := { s : String // s.length ≤ 64 }

/-- A call; a search reads the clock. -/
inductive VectorCall (K : Type*) [Field K] [LinearOrder K]
  | insert (r : MemoryRecord K (JsonValue K))
  | update (r : MemoryRecord K (JsonValue K))
  | delete (memoryId : String)
  | clear
  | similaritySearch (a : SearchArgs K (JsonValue K)) (now : Timestamp)

/-- What a caller sees: of a search the ids, in their order. -/
inductive Answer
  | done
  | keyError
  | valueError
  | deleted (found : Bool)
  | found (memoryIds : List String)
  deriving DecidableEq

variable [IsStrictOrderedRing K] [FloorRing K]

/-- The ids of the results. -/
def memoryIds (results : List (MemorySearchResult K (JsonValue K))) : Answer :=
  .found (results.map (·.memoryId))

/-- A call on an in-memory store. -/
def memoryStep (S : SquareRoot K) (s : InMemoryVectorStore K (JsonValue K)) :
    VectorCall K → InMemoryVectorStore K (JsonValue K) × Answer
  | .insert r => (s.insert r, .done)
  | .update r =>
    match s.update r with
    | some s' => (s', .done)
    | none => (s, .keyError)
  | .delete memoryId => ((s.delete memoryId).1, .deleted (s.delete memoryId).2)
  | .clear => (.empty, .done)
  | .similaritySearch a _ => (s, memoryIds (s.similaritySearch S a))

namespace PgVectorStore

variable (g : PgSetting K) (p : PgVectorStore K)

/-- The call on the fallback store. -/
def onFallback (c : VectorCall K) : PgVectorStore K × Answer :=
  ({ p with fallbackStore := (memoryStep g.squareRoot p.fallbackStore c).1 },
    (memoryStep g.squareRoot p.fallbackStore c).2)

/-- An exception: the store is degraded from now on, and the call is made on the fallback store. -/
def degrade (c : VectorCall K) : PgVectorStore K × Answer :=
  onFallback g { p with isDegraded := true } c

def insert (r : MemoryRecord K (JsonValue K)) : PgVectorStore K × Answer :=
  if r.vector ≠ [] ∧ r.vector.length ≠ g.dimension then (p, .valueError)
  else if p.isDegraded then onFallback g p (.insert r)
  else if p.isUp then ({ p with table := upsert p.table (g.rowOf r) }, .done)
  else degrade g p (.insert r)

def update (r : MemoryRecord K (JsonValue K)) : PgVectorStore K × Answer :=
  if r.vector ≠ [] ∧ r.vector.length ≠ g.dimension then (p, .valueError)
  else if p.isDegraded then onFallback g p (.update r)
  else if p.isUp then
    match updateRow p.table (g.rowOf r) with
    | some table => ({ p with table := table }, .done)
    | none => (p, .keyError)
  else degrade g p (.update r)

def delete (memoryId : String) : PgVectorStore K × Answer :=
  if p.isDegraded then onFallback g p (.delete memoryId)
  else if p.isUp then
    ({ p with table := p.table.erase memoryId }, .deleted (p.table.contains memoryId))
  else degrade g p (.delete memoryId)

/-- `clear`; an exception does not degrade the store. -/
def clear : PgVectorStore K × Answer :=
  if p.isDegraded then onFallback g p .clear
  else if p.isUp then ({ p with table := ∅ }, .done)
  else onFallback g p .clear

/-- `similarity_search`; a query without a vector is no `vector` of SQL. -/
def similaritySearch (a : SearchArgs K (JsonValue K)) (now : Timestamp) : PgVectorStore K × Answer :=
  if a.queryVector ≠ [] ∧ a.queryVector.length ≠ g.dimension then (p, .valueError)
  else if p.isDegraded then onFallback g p (.similaritySearch a now)
  else if p.isUp ∧ a.queryVector ≠ [] then
    match g.readRows a now (g.select p.table a) with
    | some results => (p, memoryIds results)
    | none => degrade g p (.similaritySearch a now)
  else degrade g p (.similaritySearch a now)

/-- A call on the store. -/
def step : VectorCall K → PgVectorStore K × Answer
  | .insert r => insert g p r
  | .update r => update g p r
  | .delete memoryId => delete g p memoryId
  | .clear => clear g p
  | .similaritySearch a now => similaritySearch g p a now

omit [IsStrictOrderedRing K] [FloorRing K] in
/-- Connected, with an empty table. -/
def init : PgVectorStore K := ⟨∅, .empty, false, true⟩

omit [IsStrictOrderedRing K] [FloorRing K] in
/-- The database starts to fail. -/
def down : PgVectorStore K := { p with isUp := false }

end PgVectorStore

/-! ## What the table has to tell -/

section Conditions

variable (g : PgSetting K) (m : InMemoryVectorStore K (JsonValue K))

omit [IsStrictOrderedRing K] [FloorRing K] in
/-- A vector of the configured dimension. -/
def HasDimension (vector : List K) : Prop := vector.length = g.dimension

omit [IsStrictOrderedRing K] [FloorRing K] in
/-- A vector that has a direction. -/
def HasDirection (vector : List K) : Prop :=
  HasDimension g vector ∧ 0 < g.squareRoot.norm vector

omit [IsStrictOrderedRing K] [FloorRing K] in
/-- A record that is written over another one, if any, of the same type and tenant: the statements
leave these columns as they are. -/
def KeepsColumns (r : MemoryRecord K (JsonValue K)) : Prop :=
  ∀ old, m.records.get? r.memoryId = some old →
    old.memoryType = r.memoryType ∧ g.tenantColumn old.metadata = g.tenantColumn r.metadata

omit [IsStrictOrderedRing K] [FloorRing K] in
/-- The records of the type that a search asks for. -/
def OfType (a : SearchArgs K (JsonValue K)) (id : String) (r : MemoryRecord K (JsonValue K)) : Prop :=
  m.records.get? id = some r ∧ typeMatches a.memoryType r.memoryType = true

omit [IsStrictOrderedRing K] [FloorRing K] in
/-- The records that match the type and the metadata filters, best first. -/
def candidates (a : SearchArgs K (JsonValue K)) : List (MemoryRecord K (JsonValue K)) :=
  ranked (fun r => similarity g.squareRoot a.queryVector r.vector)
    (m.records.values.filter fun r =>
      typeMatches a.memoryType r.memoryType && metadataMatch a.metadataFilters r.metadata)

omit [IsStrictOrderedRing K] [FloorRing K] in
/-- A search whose filters the table can answer. -/
structure SearchFaithful (a : SearchArgs K (JsonValue K)) : Prop where
  query : HasDirection g a.queryVector
  /-- The similarities are distinct. -/
  distinct : ∀ id r id' r', OfType m a id r → OfType m a id' r' →
    similarity g.squareRoot a.queryVector r.vector = similarity g.squareRoot a.queryVector r'.vector →
      id = id'
  /-- The metadata filters select what the tenant column selects. -/
  filters : ∀ id r, OfType m a id r →
    g.tenantClause a.metadataFilters (g.tenantColumn r.metadata) =
      metadataMatch a.metadataFilters r.metadata
  /-- The metadata give a confidence on the same side of the minimum as the record's. -/
  confidence : ∀ id r, OfType m a id r → metadataMatch a.metadataFilters r.metadata = true →
    ∃ c, g.confidenceOf r.metadata = some c ∧ 0 ≤ c ∧ c ≤ 1 ∧
      (c < a.minConfidence ↔ r.confidenceScore < a.minConfidence)
  /-- No record below the minimum takes the place of one that is not. -/
  limit : (∀ r ∈ (candidates g m a).take a.topK, ¬r.confidenceScore < a.minConfidence) ∨
    ∀ r ∈ (candidates g m a).drop a.topK, r.confidenceScore < a.minConfidence

omit [IsStrictOrderedRing K] [FloorRing K] in
/-- A call whose outcome the table can tell, made on what an in-memory store holds. -/
def Faithful : VectorCall K → Prop
  | .insert r => HasDirection g r.vector ∧ KeepsColumns g m r
  | .update r => HasDirection g r.vector ∧ KeepsColumns g m r
  | .delete _ => True
  | .clear => True
  | .similaritySearch a _ => SearchFaithful g m a

omit [IsStrictOrderedRing K] [FloorRing K] in
/-- A call with vectors of the configured dimension. -/
def InDimension : VectorCall K → Prop
  | .insert r => HasDimension g r.vector
  | .update r => HasDimension g r.vector
  | .delete _ => True
  | .clear => True
  | .similaritySearch a _ => HasDimension g a.queryVector

end Conditions

/-! ## The table and the records -/

section Linked

variable {g : PgSetting K} {p : PgVectorStore K} {m : InMemoryVectorStore K (JsonValue K)}

omit [IsStrictOrderedRing K] [FloorRing K] in
/-- The row has what the search reads of a record; its time may be that of an earlier record. -/
structure RowTells (g : PgSetting K) (r : MemoryRecord K (JsonValue K)) (row : Row K) : Prop where
  memoryId_eq : row.memoryId = r.memoryId
  tenantId_eq : row.tenantId = g.tenantColumn r.metadata
  memoryType_eq : row.memoryType = r.memoryType
  embedding_eq : row.embedding = some r.vector
  metadata_eq : row.metadata = r.metadata
  createdAt_le : row.createdAt.length ≤ 64

omit [IsStrictOrderedRing K] [FloorRing K] in
/-- The database is up, and its table has the records of the in-memory store in their order. -/
structure Linked (g : PgSetting K) (p : PgVectorStore K) (m : InMemoryVectorStore K (JsonValue K)) :
    Prop where
  isUp : p.isUp = true
  notDegraded : p.isDegraded = false
  fallback_empty : p.fallbackStore = .empty
  keys_eq : p.table.keys = m.records.keys
  rows : ∀ id r, m.records.get? id = some r → ∃ row, p.table.get? id = some row ∧ RowTells g r row
  vectors : ∀ id r, m.records.get? id = some r → HasDirection g r.vector

omit [IsStrictOrderedRing K] [FloorRing K] in
theorem linked_init (g : PgSetting K) : Linked g .init .empty where
  isUp := rfl
  notDegraded := rfl
  fallback_empty := rfl
  keys_eq := rfl
  rows id r h := by
    rw [InMemoryVectorStore.empty, Dict.get?_empty] at h
    cases h
  vectors id r h := by
    rw [InMemoryVectorStore.empty, Dict.get?_empty] at h
    cases h

omit [IsStrictOrderedRing K] [FloorRing K] in
theorem HasDirection.ne_nil {vector : List K} (h : HasDirection g vector) : vector ≠ [] := by
  rintro rfl
  have hdim : 0 = g.dimension := h.1
  exact absurd hdim (Nat.ne_of_lt g.dimension_pos)

omit [IsStrictOrderedRing K] [FloorRing K] in
theorem rowTells_rowOf {r : MemoryRecord K (JsonValue K)} (h : r.vector ≠ []) :
    RowTells g r (g.rowOf r) where
  memoryId_eq := rfl
  tenantId_eq := rfl
  memoryType_eq := rfl
  embedding_eq := if_neg h
  metadata_eq := rfl
  createdAt_le := r.valid.createdAt_le

omit [IsStrictOrderedRing K] [FloorRing K] in
theorem Linked.contains_eq (h : Linked g p m) (id : String) :
    p.table.contains id = m.records.contains id := by
  have hiff : p.table.contains id = true ↔ m.records.contains id = true := by
    unfold Dict.contains
    rw [← Dict.mem_keys_iff, ← Dict.mem_keys_iff, h.keys_eq]
  exact Bool.eq_iff_iff.2 hiff

omit [IsStrictOrderedRing K] [FloorRing K] in
/-- A record that is written goes to its row, which may be that of an earlier record. -/
theorem Linked.write (h : Linked g p m) {r : MemoryRecord K (JsonValue K)} {row : Row K}
    (hdirection : HasDirection g r.vector) (hrow : RowTells g r row) :
    Linked g { p with table := p.table.set r.memoryId row } (m.insert r) where
  isUp := h.isUp
  notDegraded := h.notDegraded
  fallback_empty := h.fallback_empty
  keys_eq := by
    show (p.table.set r.memoryId row).keys = (m.records.set r.memoryId r).keys
    have hcontains := h.contains_eq r.memoryId
    cases hthere : m.records.contains r.memoryId with
    | true =>
      rw [Dict.keys_set_of_contains (hcontains.trans hthere), Dict.keys_set_of_contains hthere,
        h.keys_eq]
    | false =>
      have hnone : ∀ {ν : Type _} {d : Dict String ν}, d.contains r.memoryId = false →
          d.get? r.memoryId = none := fun hfalse => by simpa [Dict.contains] using hfalse
      rw [Dict.keys_set_of_get?_eq_none (hnone (hcontains.trans hthere)),
        Dict.keys_set_of_get?_eq_none (hnone hthere), h.keys_eq]
  rows := by
    intro id r' hget
    have hget' : (m.records.set r.memoryId r).get? id = some r' := hget
    show ∃ row', (p.table.set r.memoryId row).get? id = some row' ∧ _
    rw [Dict.get?_set] at hget' ⊢
    split_ifs at hget' ⊢ with hid
    · cases hget'
      exact ⟨row, rfl, hrow⟩
    · exact h.rows id r' hget'
  vectors := by
    intro id r' hget
    have hget' : (m.records.set r.memoryId r).get? id = some r' := hget
    rw [Dict.get?_set] at hget'
    split_ifs at hget' with hid
    · cases hget'
      exact hdirection
    · exact h.vectors id r' hget'

omit [IsStrictOrderedRing K] [FloorRing K] in
/-- Where the columns stay right, writing over a row makes it the row of the record. -/
theorem Linked.overwrite (h : Linked g p m) {r : MemoryRecord K (JsonValue K)} {old : Row K}
    (hdirection : HasDirection g r.vector) (hkeeps : KeepsColumns g m r)
    (hget : p.table.get? r.memoryId = some old) :
    Linked g { p with
      table := p.table.set r.memoryId
        { old with embedding := (g.rowOf r).embedding, metadata := (g.rowOf r).metadata } }
      (m.insert r) := by
  refine h.write hdirection ?_
  have hthere : (m.records.get? r.memoryId).isSome = true := by
    have hcontains := h.contains_eq r.memoryId
    rw [Dict.contains, hget] at hcontains
    exact hcontains.symm
  obtain ⟨oldRecord, hrecord⟩ := Option.isSome_iff_exists.1 hthere
  obtain ⟨row, hrow, htells⟩ := h.rows _ _ hrecord
  have hsame : old = row := Option.some.inj (hget.symm.trans hrow)
  obtain ⟨htype, htenant⟩ := hkeeps oldRecord hrecord
  subst hsame
  constructor
  · exact htells.memoryId_eq.trans (m.keyed _ _ hrecord)
  · exact htells.tenantId_eq.trans htenant
  · exact htells.memoryType_eq.trans htype
  · exact if_neg hdirection.ne_nil
  · rfl
  · exact htells.createdAt_le

omit [IsStrictOrderedRing K] [FloorRing K] in
theorem Linked.upsert (h : Linked g p m) {r : MemoryRecord K (JsonValue K)}
    (hdirection : HasDirection g r.vector) (hkeeps : KeepsColumns g m r) :
    Linked g { p with table := upsert p.table (g.rowOf r) } (m.insert r) := by
  cases hget : p.table.get? r.memoryId with
  | none =>
    have hupsert : Memory.upsert p.table (g.rowOf r) = p.table.set r.memoryId (g.rowOf r) := by
      simp only [Memory.upsert, PgSetting.rowOf, hget]
    rw [hupsert]
    exact h.write hdirection (rowTells_rowOf hdirection.ne_nil)
  | some old =>
    have hupsert : Memory.upsert p.table (g.rowOf r) = p.table.set r.memoryId
        { old with embedding := (g.rowOf r).embedding, metadata := (g.rowOf r).metadata } := by
      simp only [Memory.upsert, PgSetting.rowOf, hget]
    rw [hupsert]
    exact h.overwrite hdirection hkeeps hget

omit [IsStrictOrderedRing K] [FloorRing K] in
theorem HasDimension.not_mismatch {vector : List K} (h : HasDimension g vector) :
    ¬(vector ≠ [] ∧ vector.length ≠ g.dimension) := fun hne => hne.2 h

theorem Linked.insert (h : Linked g p m) {r : MemoryRecord K (JsonValue K)}
    (hdirection : HasDirection g r.vector) (hkeeps : KeepsColumns g m r) :
    Linked g (p.insert g r).1 (m.insert r) ∧ (p.insert g r).2 = .done := by
  rw [PgVectorStore.insert, if_neg hdirection.1.not_mismatch, if_neg (by simp [h.notDegraded]),
    if_pos h.isUp]
  exact ⟨h.upsert hdirection hkeeps, rfl⟩

/-- A record that is not there is an error in both stores. -/
theorem Linked.update (h : Linked g p m) {r : MemoryRecord K (JsonValue K)}
    (hdirection : HasDirection g r.vector) (hkeeps : KeepsColumns g m r) :
    Linked g (p.update g r).1 (memoryStep g.squareRoot m (.update r)).1 ∧
      (memoryStep g.squareRoot m (.update r)).2 = (p.update g r).2 := by
  have hcontains := h.contains_eq r.memoryId
  rw [PgVectorStore.update, if_neg hdirection.1.not_mismatch, if_neg (by simp [h.notDegraded]),
    if_pos h.isUp]
  cases hget : p.table.get? r.memoryId with
  | none =>
    have hrow : updateRow p.table (g.rowOf r) = none := by
      simp only [updateRow, PgSetting.rowOf, hget]
    have hrecord : m.update r = none := by
      rw [InMemoryVectorStore.update, ← hcontains, Dict.contains, hget]
      rfl
    simp only [memoryStep, hrow, hrecord]
    exact ⟨h, trivial⟩
  | some old =>
    have hrow : updateRow p.table (g.rowOf r) = some (p.table.set r.memoryId
        { old with embedding := (g.rowOf r).embedding, metadata := (g.rowOf r).metadata }) := by
      simp only [updateRow, PgSetting.rowOf, hget]
    have hrecord : m.update r = some (m.insert r) := by
      rw [InMemoryVectorStore.update, ← hcontains, Dict.contains, hget]
      rfl
    simp only [memoryStep, hrow, hrecord]
    exact ⟨h.overwrite hdirection hkeeps hget, trivial⟩

theorem Linked.delete (h : Linked g p m) (memoryId : String) :
    Linked g (p.delete g memoryId).1 (m.delete memoryId).1 ∧
      (p.delete g memoryId).2 = .deleted (m.delete memoryId).2 := by
  rw [PgVectorStore.delete, if_neg (by simp [h.notDegraded]), if_pos h.isUp, m.delete_snd,
    h.contains_eq]
  refine ⟨?_, rfl⟩
  constructor
  · exact h.isUp
  · exact h.notDegraded
  · exact h.fallback_empty
  · rw [m.delete_records, Dict.keys_erase, Dict.keys_erase, h.keys_eq]
  · intro id r hget
    rw [m.delete_records, Dict.get?_erase] at hget
    rw [Dict.get?_erase]
    split_ifs at hget ⊢
    exact h.rows id r hget
  · intro id r hget
    rw [m.delete_records, Dict.get?_erase] at hget
    split_ifs at hget
    exact h.vectors id r hget

theorem Linked.clear (h : Linked g p m) :
    Linked g (p.clear g).1 .empty ∧ (p.clear g).2 = .done := by
  have hempty := linked_init g
  rw [PgVectorStore.clear, if_neg (by simp [h.notDegraded]), if_pos h.isUp]
  exact ⟨⟨h.isUp, h.notDegraded, h.fallback_empty, hempty.keys_eq, hempty.rows, hempty.vectors⟩, rfl⟩

end Linked

/-! ## Searches -/

section Search

variable {g : PgSetting K} {p : PgVectorStore K} {m : InMemoryVectorStore K (JsonValue K)}
  {a : SearchArgs K (JsonValue K)} {r : MemoryRecord K (JsonValue K)} {row : Row K}

omit [IsStrictOrderedRing K] [FloorRing K] in
/-- The row of a record in the table. -/
def rowFor (g : PgSetting K) (p : PgVectorStore K) (r : MemoryRecord K (JsonValue K)) : Row K :=
  (p.table.get? r.memoryId).getD (g.rowOf r)

omit [IsStrictOrderedRing K] [FloorRing K] in
theorem Linked.get?_rowFor (h : Linked g p m) (hr : r ∈ m.records.values) :
    p.table.get? r.memoryId = some (rowFor g p r) ∧ RowTells g r (rowFor g p r) := by
  obtain ⟨row, hrow, htells⟩ := h.rows _ _ (m.get?_of_mem_values hr)
  have hrowFor : rowFor g p r = row := by rw [rowFor, hrow, Option.getD_some]
  rw [hrowFor]
  exact ⟨hrow, htells⟩

omit [IsStrictOrderedRing K] [FloorRing K] in
/-- The table has one row for each record, in their order. -/
theorem Linked.values_eq (h : Linked g p m) : p.table.values = m.records.values.map (rowFor g p) := by
  have hsome : p.table.values.map some = (m.records.values.map (rowFor g p)).map some := by
    rw [← Dict.map_get?_keys, h.keys_eq, Dict.keys, Dict.values, List.map_map, List.map_map,
      List.map_map]
    refine List.map_congr_left fun e he => ?_
    obtain ⟨id, r⟩ := e
    have hr : r ∈ m.records.values := List.mem_map.2 ⟨(id, r), he, rfl⟩
    have hid : r.memoryId = id := m.keyed id r (Dict.mem_entries_iff.1 he)
    show p.table.get? id = some (rowFor g p r)
    rw [← hid]
    exact (h.get?_rowFor hr).1
  exact List.map_injective_iff.2 (Option.some_injective _) hsome

omit [IsStrictOrderedRing K] [FloorRing K] in
/-- The database and the in-memory store compute the same similarity. -/
theorem RowTells.score_eq (h : RowTells g r row) (hvector : HasDirection g r.vector)
    (hquery : HasDirection g a.queryVector) :
    g.score a.queryVector row =
      (((similarity g.squareRoot a.queryVector r.vector : K) : WithBot K) : Score K) := by
  have hcomparable : ¬(r.vector = [] ∨ a.queryVector = [] ∨
      r.vector.length ≠ a.queryVector.length) := by
    rintro (hnil | hnil | hne)
    · exact hvector.ne_nil hnil
    · exact hquery.ne_nil hnil
    · exact hne (hvector.1.trans hquery.1.symm)
  simp only [PgSetting.score, h.embedding_eq, if_pos (And.intro hquery.2 hvector.2)]
  rw [similarity, if_neg hcomparable]

omit [IsStrictOrderedRing K] [FloorRing K] in
/-- The condition of the statement keeps the rows of the records that match. -/
theorem Linked.where_eq (h : Linked g p m) (hsearch : SearchFaithful g m a)
    (hr : r ∈ m.records.values) :
    (g.tenantClause a.metadataFilters (rowFor g p r).tenantId &&
        typeMatches a.memoryType (rowFor g p r).memoryType) =
      (typeMatches a.memoryType r.memoryType && metadataMatch a.metadataFilters r.metadata) := by
  have htells := (h.get?_rowFor hr).2
  rw [htells.tenantId_eq, htells.memoryType_eq, Bool.and_comm]
  cases htype : typeMatches a.memoryType r.memoryType with
  | false => rfl
  | true => rw [hsearch.filters r.memoryId r ⟨m.get?_of_mem_values hr, htype⟩]

omit [IsStrictOrderedRing K] [FloorRing K] in
theorem mem_candidates : r ∈ candidates g m a ↔ r ∈ m.records.values ∧
    typeMatches a.memoryType r.memoryType = true ∧
      metadataMatch a.metadataFilters r.metadata = true := by
  rw [candidates, mem_ranked, List.mem_filter, Bool.and_eq_true]

omit [IsStrictOrderedRing K] [FloorRing K] in
/-- The statement finds the rows of the candidates in their order. -/
theorem Linked.select_eq (h : Linked g p m) (hsearch : SearchFaithful g m a) :
    g.select p.table a = ((candidates g m a).take a.topK).map (rowFor g p) := by
  have hrows : (p.table.values.filter fun row =>
      g.tenantClause a.metadataFilters row.tenantId && typeMatches a.memoryType row.memoryType) =
        (m.records.values.filter fun r => typeMatches a.memoryType r.memoryType &&
          metadataMatch a.metadataFilters r.metadata).map (rowFor g p) := by
    rw [h.values_eq, List.filter_map]
    exact congrArg _ (List.filter_congr fun r hr => h.where_eq hsearch hr)
  have hscore : ∀ r ∈ candidates g m a, g.score a.queryVector (rowFor g p r) =
      (((similarity g.squareRoot a.queryVector r.vector : K) : WithBot K) : Score K) := by
    intro r hr
    have hvalues := (mem_candidates.1 hr).1
    exact (h.get?_rowFor hvalues).2.score_eq (h.vectors _ _ (m.get?_of_mem_values hvalues))
      hsearch.query
  have hperm : ((candidates g m a).map (rowFor g p)).Perm ((m.records.values.filter fun r =>
      typeMatches a.memoryType r.memoryType &&
        metadataMatch a.metadataFilters r.metadata).map (rowFor g p)) := (ranked_perm _ _).map _
  have hsorted : ((candidates g m a).map (rowFor g p)).Pairwise fun x y =>
      g.score a.queryVector y ≤ g.score a.queryVector x := by
    rw [List.pairwise_map]
    refine (pairwise_ranked _ _).imp_of_mem fun {r r'} hr hr' hle => ?_
    rw [hscore r hr, hscore r' hr']
    exact_mod_cast hle
  have hdistinct : ∀ x ∈ (candidates g m a).map (rowFor g p),
      ∀ y ∈ (candidates g m a).map (rowFor g p),
        g.score a.queryVector x = g.score a.queryVector y → x = y := by
    intro x hx y hy heq
    obtain ⟨r, hr, rfl⟩ := List.mem_map.1 hx
    obtain ⟨r', hr', rfl⟩ := List.mem_map.1 hy
    obtain ⟨hvalues, htype, -⟩ := mem_candidates.1 hr
    obtain ⟨hvalues', htype', -⟩ := mem_candidates.1 hr'
    have hget := m.get?_of_mem_values hvalues
    have hget' := m.get?_of_mem_values hvalues'
    rw [hscore r hr, hscore r' hr'] at heq
    have hid := hsearch.distinct _ r _ r' ⟨hget, htype⟩ ⟨hget', htype'⟩ (by exact_mod_cast heq)
    rw [hid, hget'] at hget
    rw [Option.some.inj hget]
  -- With distinct similarities there is one order, whatever the database does.
  have horder := ranked_unique (g.score a.queryVector)
    ((g.orderBy_perm (g.score a.queryVector) _).trans hperm.symm) (g.orderBy_sorted _ _) hdistinct
  have hranked := ranked_unique (g.score a.queryVector) (List.Perm.refl _) hsorted hdistinct
  rw [PgSetting.select, hrows, List.map_take, horder, ← hranked]

omit [IsStrictOrderedRing K] [FloorRing K] in
theorem RowTells.recordOf_valid (h : RowTells g r row) (now : Timestamp) {c : K} (hnonneg : 0 ≤ c)
    (hle : c ≤ 1) : (PgSetting.recordOf now row c).Valid where
  memoryId_pos := by
    show 1 ≤ row.memoryId.length
    rw [h.memoryId_eq]
    exact r.valid.memoryId_pos
  memoryId_le := by
    show row.memoryId.length ≤ 128
    rw [h.memoryId_eq]
    exact r.valid.memoryId_le
  createdAt_le := h.createdAt_le
  updatedAt_le := now.2
  ttlSeconds_pos := nofun
  confidenceScore_nonneg := hnonneg
  confidenceScore_le := hle
  details_valid := trivial

/-- The row of a candidate is a result, or below the minimum, as the record is. -/
theorem Linked.resultOf_eq (h : Linked g p m) (hsearch : SearchFaithful g m a) (now : Timestamp)
    (hr : r ∈ candidates g m a) :
    ∃ found, g.resultOf a now (rowFor g p r) = some found ∧
      found.toList.map (·.memoryId) =
        if r.confidenceScore < a.minConfidence then [] else [r.memoryId] := by
  obtain ⟨hvalues, htype, hmetadata⟩ := mem_candidates.1 hr
  have hget := m.get?_of_mem_values hvalues
  have htells := (h.get?_rowFor hvalues).2
  have hscore := htells.score_eq (h.vectors _ _ hget) hsearch.query
  obtain ⟨c, hconfidence, hnonneg, hle, hside⟩ := hsearch.confidence _ r ⟨hget, htype⟩ hmetadata
  rw [← htells.metadata_eq] at hconfidence
  have hrange := abs_round_similarity_le_one g.squareRoot a.queryVector r.vector
  have hvalid := htells.recordOf_valid now hnonneg hle
  rw [PgSetting.resultOf, hscore, hconfidence]
  by_cases hbelow : c < a.minConfidence
  · exact ⟨none, if_pos hbelow, (if_pos (hside.1 hbelow)).symm⟩
  · refine ⟨_, (if_neg hbelow).trans ((dif_pos hrange).trans (dif_pos hvalid)), ?_⟩
    rw [if_neg fun hlow => hbelow (hside.2 hlow)]
    exact congrArg ([·]) htells.memoryId_eq

omit [IsStrictOrderedRing K] in
/-- The loop gives the results of the rows in their order. -/
theorem readRows_map (now : Timestamp) (rowOf : MemoryRecord K (JsonValue K) → Row K)
    {rs : List (MemoryRecord K (JsonValue K))}
    (h : ∀ r ∈ rs, ∃ found, g.resultOf a now (rowOf r) = some found ∧
      found.toList.map (·.memoryId) =
        if r.confidenceScore < a.minConfidence then [] else [r.memoryId]) :
    ∃ results, g.readRows a now (rs.map rowOf) = some results ∧
      results.map (·.memoryId) =
        (rs.filter fun r => !(r.confidenceScore < a.minConfidence)).map (·.memoryId) := by
  induction rs with
  | nil => exact ⟨[], rfl, rfl⟩
  | cons r rs ih =>
    obtain ⟨found, hfound, hids⟩ := h r (List.mem_cons_self ..)
    obtain ⟨results, hresults, hrest⟩ := ih fun r' hr' => h r' (List.mem_cons_of_mem r hr')
    refine ⟨found.toList ++ results, ?_, ?_⟩
    · rw [List.map_cons, PgSetting.readRows, hfound, hresults]
    · rw [List.map_append, hids, hrest]
      by_cases hbelow : r.confidenceScore < a.minConfidence
      · rw [if_pos hbelow, List.filter_cons_of_neg (by simp [hbelow]), List.nil_append]
      · rw [if_neg hbelow, List.filter_cons_of_pos (by simp [hbelow])]
        rfl

/-- The in-memory store finds the first candidates among those that are not below the minimum. -/
theorem memoryIds_similaritySearch (m : InMemoryVectorStore K (JsonValue K))
    (a : SearchArgs K (JsonValue K)) :
    (m.similaritySearch g.squareRoot a).map (·.memoryId) =
      (((candidates g m a).filter fun r => !(r.confidenceScore < a.minConfidence)).take
        a.topK).map (·.memoryId) := by
  have hmatches : m.records.values.filter a.matches = (m.records.values.filter fun r =>
      typeMatches a.memoryType r.memoryType && metadataMatch a.metadataFilters r.metadata).filter
        fun r => !(r.confidenceScore < a.minConfidence) := by
    rw [List.filter_filter]
    refine List.filter_congr fun r _ => ?_
    rw [SearchArgs.matches, Bool.and_comm (typeMatches _ _), Bool.and_assoc]
  rw [InMemoryVectorStore.similaritySearch, bestResults, hmatches, candidates, ranked_filter,
    List.map_map]
  rfl

theorem Linked.similaritySearch (h : Linked g p m) (hsearch : SearchFaithful g m a)
    (now : Timestamp) :
    Linked g (p.similaritySearch g a now).1 m ∧
      memoryIds (m.similaritySearch g.squareRoot a) = (p.similaritySearch g a now).2 := by
  obtain ⟨results, hresults, hids⟩ := readRows_map now (rowFor g p) fun r hr =>
    h.resultOf_eq hsearch now (List.mem_of_mem_take hr)
  have hcut : ((candidates g m a).take a.topK).filter
      (fun r => !(r.confidenceScore < a.minConfidence)) =
        ((candidates g m a).filter fun r => !(r.confidenceScore < a.minConfidence)).take a.topK := by
    rw [filter_take_eq_iff]
    simpa using hsearch.limit
  rw [PgVectorStore.similaritySearch, if_neg hsearch.query.1.not_mismatch,
    if_neg (by simp [h.notDegraded]), if_pos ⟨h.isUp, hsearch.query.ne_nil⟩, h.select_eq hsearch,
    hresults]
  refine ⟨h, ?_⟩
  show Answer.found _ = Answer.found _
  rw [memoryIds_similaritySearch, hids, hcut]

end Search

/-! ## Runs -/

section Runs

variable {g : PgSetting K} {p : PgVectorStore K} {m : InMemoryVectorStore K (JsonValue K)}

/-- **One call.**  While the database is up, the answer is that of the in-memory store. -/
theorem Linked.step (h : Linked g p m) {c : VectorCall K} (hc : Faithful g m c) :
    Linked g (p.step g c).1 (memoryStep g.squareRoot m c).1 ∧
      (memoryStep g.squareRoot m c).2 = (p.step g c).2 := by
  cases c with
  | insert r =>
    obtain ⟨hlinked, hanswer⟩ := h.insert hc.1 hc.2
    exact ⟨hlinked, hanswer.symm⟩
  | update r => exact h.update hc.1 hc.2
  | delete memoryId =>
    obtain ⟨hlinked, hanswer⟩ := h.delete memoryId
    exact ⟨hlinked, hanswer.symm⟩
  | clear =>
    obtain ⟨hlinked, hanswer⟩ := h.clear
    exact ⟨hlinked, hanswer.symm⟩
  | similaritySearch a now => exact h.similaritySearch hc now

omit [IsStrictOrderedRing K] [FloorRing K] in
/-- The database is down, and the fallback store is this in-memory store. -/
def Fallen (p : PgVectorStore K) (m : InMemoryVectorStore K (JsonValue K)) : Prop :=
  p.isUp = false ∧ p.fallbackStore = m

/-- A call after the database is down is made on the fallback store, at once or after an error. -/
theorem step_of_down (hdown : p.isUp = false) {c : VectorCall K} (hc : InDimension g c) :
    p.step g c = p.onFallback g c ∨ p.step g c = p.degrade g c := by
  have hup : ¬p.isUp = true := by simp [hdown]
  cases c with
  | insert r =>
    rw [PgVectorStore.step, PgVectorStore.insert, if_neg (HasDimension.not_mismatch hc), if_neg hup]
    split_ifs
    · exact .inl rfl
    · exact .inr rfl
  | update r =>
    rw [PgVectorStore.step, PgVectorStore.update, if_neg (HasDimension.not_mismatch hc), if_neg hup]
    split_ifs
    · exact .inl rfl
    · exact .inr rfl
  | delete memoryId =>
    rw [PgVectorStore.step, PgVectorStore.delete, if_neg hup]
    split_ifs
    · exact .inl rfl
    · exact .inr rfl
  | clear =>
    rw [PgVectorStore.step, PgVectorStore.clear, if_neg hup, ite_self]
    exact .inl rfl
  | similaritySearch a now =>
    have hboth : ¬(p.isUp = true ∧ a.queryVector ≠ []) := fun hboth => hup hboth.1
    rw [PgVectorStore.step, PgVectorStore.similaritySearch, if_neg (HasDimension.not_mismatch hc),
      if_neg hboth]
    split_ifs
    · exact .inl rfl
    · exact .inr rfl

/-- One call after the database is down: the answer is that of the fallback store. -/
theorem Fallen.step (h : Fallen p m) {c : VectorCall K} (hc : InDimension g c) :
    Fallen (p.step g c).1 (memoryStep g.squareRoot m c).1 ∧
      (memoryStep g.squareRoot m c).2 = (p.step g c).2 := by
  obtain ⟨hdown, rfl⟩ := h
  rcases step_of_down hdown hc with heq | heq
  · rw [heq]
    exact ⟨⟨hdown, rfl⟩, rfl⟩
  · rw [heq]
    exact ⟨⟨hdown, rfl⟩, rfl⟩

/-- **The pgvector store answers as an in-memory store.**  While the database is up, and the calls
are such that the table can tell their outcome, the store answers as an in-memory store given the
same calls; from the moment on that the database fails, it answers as a new in-memory store given
the calls from then on. -/
theorem answers_as_memory (g : PgSetting K) {before after : List (VectorCall K)}
    (hbefore : Machine.Always (memoryStep g.squareRoot) (Faithful g) .empty before)
    (hafter : ∀ c ∈ after, InDimension g c) :
    Machine.outputs (PgVectorStore.step g) .init before =
      Machine.outputs (memoryStep g.squareRoot) .empty before ∧
    Machine.outputs (PgVectorStore.step g) (Machine.run (PgVectorStore.step g) .init before).down
      after = Machine.outputs (memoryStep g.squareRoot) .empty after := by
  have hstep : ∀ m p c, Linked g p m → Faithful g m c →
      Linked g (p.step g c).1 (memoryStep g.squareRoot m c).1 ∧
        (memoryStep g.squareRoot m c).2 = (p.step g c).2 := fun m p c h hc => h.step hc
  have hfallenStep : ∀ m p c, Fallen p m → True ∧ InDimension g c →
      Fallen (p.step g c).1 (memoryStep g.squareRoot m c).1 ∧
        (memoryStep g.squareRoot m c).2 = (p.step g c).2 := fun m p c h hc => h.step hc.2
  obtain ⟨hanswers, hlinked⟩ := Machine.outputs_eq_of_sim hstep (linked_init g) hbefore
  have hfallen : Fallen (Machine.run (PgVectorStore.step g) .init before).down .empty :=
    ⟨rfl, hlinked.fallback_empty⟩
  have hcalls : Machine.Always (memoryStep g.squareRoot) (fun _ c => True ∧ InDimension g c) .empty
      after := (Machine.always_of_forall (fun _ _ => trivial) _ _).and_of_mem hafter
  obtain ⟨hanswers', -⟩ := Machine.outputs_eq_of_sim hfallenStep hfallen hcalls
  exact ⟨hanswers.symm, hanswers'.symm⟩

end Runs

/-! ## Calls on both stores -/

section Example

theorem orderBy_ranked_sorted (score : Row ℚ → Score ℚ) (rows : List (Row ℚ)) :
    (ranked score rows).Pairwise fun a b => score b ≤ score a := pairwise_ranked score rows

/-- Two dimensions. -/
def planeSetting : PgSetting ℚ where
  dimension := 2
  dimension_pos := Nat.zero_lt_two
  squareRoot := .rational
  orderBy := ranked
  orderBy_perm := ranked_perm
  orderBy_sorted := orderBy_ranked_sorted
  floatOfStr := fun _ => none
  strOf := fun _ => "None"

theorem short_a : 1 ≤ "a".length ∧ "a".length ≤ 128 := by decide

theorem short_b : 1 ≤ "b".length ∧ "b".length ≤ 128 := by decide

theorem thisYear_le : "2026".length ≤ 64 := by decide

def thisYear : Timestamp := ⟨"2026", thisYear_le⟩

def tenantMetadata : Dict String (JsonValue ℚ) := Dict.set ∅ "tenant_id" (.str "acme")

/-- A record in the direction of the query, and one across. -/
def straight : MemoryRecord ℚ (JsonValue ℚ) :=
  .base "a" "2026" .threat tenantMetadata [3, 4] short_a thisYear_le

def across : MemoryRecord ℚ (JsonValue ℚ) :=
  .base "b" "2026" .url tenantMetadata [4, -3] short_b thisYear_le

def bestOf (topK : ℕ) (memoryType : Option MemoryType) (minConfidence : ℚ)
    (filters : Dict String (JsonValue ℚ)) : VectorCall ℚ :=
  .similaritySearch ⟨[3, 4], topK, memoryType, minConfidence, filters⟩ thisYear

def plainCalls : List (VectorCall ℚ) :=
  [.insert across, .insert straight, bestOf 5 none 0 tenantMetadata, .delete "b"]

theorem plainRecords {id : String} {r : MemoryRecord ℚ (JsonValue ℚ)}
    (h : ((InMemoryVectorStore.empty.insert across).insert straight).records.get? id = some r) :
    (id = "b" ∧ r = across) ∨ (id = "a" ∧ r = straight) := by
  have hentries : ((InMemoryVectorStore.empty.insert across).insert straight).records.entries =
      [("b", across), ("a", straight)] := rfl
  have hmem := Dict.mem_entries_iff.2 h
  rw [hentries] at hmem
  simpa using hmem

theorem plainSearch : SearchFaithful planeSetting
    ((InMemoryVectorStore.empty.insert across).insert straight)
    ⟨[3, 4], 5, none, 0, tenantMetadata⟩ where
  query := ⟨rfl, by decide +kernel⟩
  distinct := by
    intro id r id' r' h h' hsame
    rcases plainRecords h.1 with ⟨rfl, rfl⟩ | ⟨rfl, rfl⟩
    · rcases plainRecords h'.1 with ⟨rfl, rfl⟩ | ⟨rfl, rfl⟩
      · rfl
      · exact absurd hsame (by decide +kernel)
    · rcases plainRecords h'.1 with ⟨rfl, rfl⟩ | ⟨rfl, rfl⟩
      · exact absurd hsame (by decide +kernel)
      · rfl
  filters := by
    intro id r h
    rcases plainRecords h.1 with ⟨rfl, rfl⟩ | ⟨rfl, rfl⟩
    · decide +kernel
    · decide +kernel
  confidence := by
    intro id r h hmatch
    rcases plainRecords h.1 with ⟨rfl, rfl⟩ | ⟨rfl, rfl⟩
    · exact ⟨1, rfl, zero_le_one, le_refl 1, Iff.rfl⟩
    · exact ⟨1, rfl, zero_le_one, le_refl 1, Iff.rfl⟩
  limit := by
    right
    intro r hr
    have hlength : (candidates planeSetting
        ((InMemoryVectorStore.empty.insert across).insert straight)
        ⟨[3, 4], 5, none, 0, tenantMetadata⟩).length ≤ 5 := by decide +kernel
    rw [List.drop_of_length_le hlength] at hr
    cases hr

theorem keepsColumns_of_new {m : InMemoryVectorStore ℚ (JsonValue ℚ)}
    {r : MemoryRecord ℚ (JsonValue ℚ)} (h : m.records.get? r.memoryId = none) :
    KeepsColumns planeSetting m r := by
  intro old hold
  rw [h] at hold
  cases hold

theorem plainCalls_faithful :
    Machine.Always (memoryStep .rational) (Faithful planeSetting) .empty plainCalls := by
  refine ⟨⟨⟨rfl, by decide +kernel⟩, keepsColumns_of_new rfl⟩,
    ⟨⟨rfl, by decide +kernel⟩, keepsColumns_of_new rfl⟩, plainSearch, trivial, trivial⟩

theorem deleteB_inDimension : ∀ c ∈ [VectorCall.delete "b"], InDimension planeSetting c := by
  intro c hc
  rw [List.mem_singleton.1 hc]
  trivial

/-- Both find the straight record first; the record across is found to delete, but not after the
database is down. -/
theorem answers_as_memory_plain :
    Machine.outputs (PgVectorStore.step planeSetting) .init plainCalls =
      Machine.outputs (memoryStep .rational) .empty plainCalls ∧
    Machine.outputs (PgVectorStore.step planeSetting)
      (Machine.run (PgVectorStore.step planeSetting) .init plainCalls).down [.delete "b"] =
        Machine.outputs (memoryStep .rational) .empty [.delete "b"] :=
  answers_as_memory planeSetting plainCalls_faithful deleteB_inDimension

def pgAnswers (calls : List (VectorCall ℚ)) : List Answer :=
  Machine.outputs (PgVectorStore.step planeSetting) .init calls

def memoryAnswers (calls : List (VectorCall ℚ)) : List Answer :=
  Machine.outputs (memoryStep .rational) .empty calls

/-- The straight record as one of another kind. -/
def straightUrl : MemoryRecord ℚ (JsonValue ℚ) :=
  .base "a" "2026" .url tenantMetadata [3, 4] short_a thisYear_le

def undirected : MemoryRecord ℚ (JsonValue ℚ) :=
  .base "a" "2026" .threat tenantMetadata [0, 0] short_a thisYear_le

def unsure : RecordData ℚ (JsonValue ℚ) :=
  { RecordData.base "a" "2026" .threat (Dict.set ∅ "confidence_score" (.float (1 / 2))) [3, 4] with
    confidenceScore := 1 / 2 }

theorem unsure_valid : unsure.Valid := by decide +kernel

/-- The metadata say nothing of the confidence. -/
theorem unsureSilent_valid : { unsure with metadata := ∅ }.Valid := by decide +kernel

/-- The stores differ: by a filter other than for the tenant; by a confidence that the metadata do
not have; by one that they have, with a limit; by a type that was written over; by a vector without
a direction; and by a database that fails after a record was written. -/
theorem answers_differ :
    (pgAnswers [.insert straight, bestOf 5 none 0 (Dict.set ∅ "kind" (.str "x"))] =
        [.done, .found ["a"]] ∧
      memoryAnswers [.insert straight, bestOf 5 none 0 (Dict.set ∅ "kind" (.str "x"))] =
        [.done, .found []]) ∧
    (pgAnswers [.insert ⟨_, unsureSilent_valid⟩, bestOf 5 none (3 / 4) ∅] = [.done, .found ["a"]] ∧
      memoryAnswers [.insert ⟨_, unsureSilent_valid⟩, bestOf 5 none (3 / 4) ∅] =
        [.done, .found []]) ∧
    (pgAnswers [.insert ⟨_, unsure_valid⟩, .insert across, bestOf 1 none (3 / 4) ∅] =
        [.done, .done, .found []] ∧
      memoryAnswers [.insert ⟨_, unsure_valid⟩, .insert across, bestOf 1 none (3 / 4) ∅] =
        [.done, .done, .found ["b"]]) ∧
    (pgAnswers [.insert straight, .insert straightUrl, bestOf 5 (some .url) 0 ∅] =
        [.done, .done, .found []] ∧
      memoryAnswers [.insert straight, .insert straightUrl, bestOf 5 (some .url) 0 ∅] =
        [.done, .done, .found ["a"]]) ∧
    (pgAnswers [.insert undirected, bestOf 5 none 0 ∅] = [.done, .found []] ∧
      memoryAnswers [.insert undirected, bestOf 5 none 0 ∅] = [.done, .found ["a"]]) ∧
    (Machine.outputs (PgVectorStore.step planeSetting)
        (Machine.run (PgVectorStore.step planeSetting) .init [.insert straight]).down
        [bestOf 5 none 0 ∅, .delete "a"] = [.found [], .deleted false] ∧
      Machine.outputs (memoryStep .rational)
        (Machine.run (memoryStep .rational) .empty [.insert straight])
        [bestOf 5 none 0 ∅, .delete "a"] = [.found ["a"], .deleted true]) := by
  decide +kernel

end Example

end ScamOn.Memory
