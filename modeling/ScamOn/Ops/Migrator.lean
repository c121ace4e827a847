import ScamOn.Lib.KeyedTables
import ScamOn.Lib.UuidText

/-!
# The migration from SQLite to PostgreSQL

`DatabaseMigrator.migrate_all_tables` reads the seven tables of a SQLite database, parents before
children, gives every row an identifier by `to_uuid`, and checks what the rows refer to.

* `toUuid` is total on texts that are not blank.
* `of_migrateTables`: in a run that returns the counted rows of each table are those with an
  identifier, and every reference leads to a row that is counted.
* `migrateAllTables_lossless_iff`: nothing reaches PostgreSQL, so a run loses nothing if and only
  if there is nothing; and what it counts is complete and told apart if and only if no row of the
  last tables has a blank identifier and no table spells one identifier in two ways.
-/

namespace ScamOn.Ops

open KeyedTables

/-! ## Identifiers -/

/-- What the migration takes from the standard library. -/
structure Library where
  /-- `uuid5(namespace, name)`. -/
  uuid5 : Uuid → String → Uuid
  /-- `json.dumps(json.loads(text))`, or the text of the exception. -/
  reserialize : String → Except String String
  /-- `json.dumps` of a list of texts. -/
  dumps : List String → String
  /-- `datetime.fromisoformat(text).isoformat()`, or the text of the exception. -/
  isoDate : String → Except String String

/-- `NAMESPACE_SCAMON`. -/
def namespaceScamon : Uuid := ⟨0x6c41d938cf1c49f89199a67d033bb082#128⟩

section

variable (py : Library)

/-- `to_uuid`. -/
def toUuid (val : Option String) : Option String :=
  match val with
  | none => none
  | some val =>
    let valStr := Text.strip val
    if valStr = "" then none
    else
      match Uuid.ofText? valStr.toList with
      | some u => some u.str
      | none => some (py.uuid5 namespaceScamon valStr).str

/-- What a text identifies: an identifier, in whatever spelling, or a text that is none; a blank
identifies nothing. -/
def canonical? (val : Option String) : Option (Uuid ⊕ String) :=
  match val with
  | none => none
  | some val =>
    if Text.strip val = "" then none
    else
      match Uuid.ofText? (Text.strip val).toList with
      | some u => some (.inl u)
      | none => some (.inr (Text.strip val))

/-- The identifier in PostgreSQL. -/
def target : Uuid ⊕ String → String
  | .inl u => u.str
  | .inr legacy => (py.uuid5 namespaceScamon legacy).str

theorem toUuid_eq (val : Option String) : toUuid py val = (canonical? val).map (target py) := by
  cases val with
  | none => rfl
  | some val =>
    rw [toUuid, canonical?]
    by_cases hblank : Text.strip val = ""
    · rw [if_pos hblank, if_pos hblank, Option.map_none]
    · rw [if_neg hblank, if_neg hblank]
      cases Uuid.ofText? (Text.strip val).toList <;> rfl

/-- `None`, or a text of blanks only. -/
def Blank (val : Option String) : Prop := ∀ text, val = some text → Text.strip text = ""

theorem canonical?_eq_none_iff {val : Option String} : canonical? val = none ↔ Blank val := by
  cases val with
  | none => exact ⟨fun _ _ h => (nomatch h), fun _ => rfl⟩
  | some val =>
    rw [canonical?]
    constructor
    · intro h text heq
      cases heq
      by_contra hne
      rw [if_neg hne] at h
      split at h <;> cases h
    · intro h
      rw [if_pos (h val rfl)]

theorem toUuid_ne_none_iff {val : Option String} : toUuid py val ≠ none ↔ ¬Blank val := by
  rw [toUuid_eq, ← canonical?_eq_none_iff, Ne, Option.map_eq_none_iff]

theorem canonical?_str (u : Uuid) : canonical? (some u.str) = some (.inl u) := by
  have hne : u.str ≠ "" := by
    intro heq
    have hlength := congrArg (fun s : String => s.toList.length) heq
    simp [Uuid.length_chars] at hlength
  rw [canonical?, Uuid.strip_str, if_neg hne, Uuid.toList_str, Uuid.ofText?_chars]

/-! ## Values -/

/-- `validate_json`. -/
def validateJson (val : Option String) : Except String (Option String) :=
  match val with
  | none => .ok none
  | some val =>
    if Text.strip val = "" then .ok none
    else
      match py.reserialize val with
      | .ok text => .ok (some text)
      | .error exc => .error ("Malformed JSON payload encountered during migration: " ++ exc)

/-- `val.replace("Z", "+00:00")`. -/
def replaceZulu (val : String) : String :=
  String.ofList (val.toList.flatMap fun c => if c = 'Z' then "+00:00".toList else [c])

/-- `validate_timestamp`. -/
def validateTimestamp (val : Option String) : Except String String :=
  match val with
  | none => .error "Missing required timestamp field."
  | some val =>
    if val = "" then .error "Missing required timestamp field."
    else
      match py.isoDate (replaceZulu val) with
      | .ok text => .ok text
      | .error exc => .error ("Invalid timestamp format '" ++ val ++ "': " ++ exc)

/-- A value of a column, as far as `validate_boolean` looks at it; any other value is given by its
text. -/
inductive Cell
  | bool (b : Bool)
  | int (n : ℤ)
  | str (s : String)
  | other (text : String)

/-- `validate_boolean`. -/
def validateBoolean : Cell → Except String Bool
  | .bool b => .ok b
  | .int n =>
    if n = 0 ∨ n = 1 then .ok (n ≠ 0)
    else .error ("Invalid integer boolean value '" ++ toString n ++ "'. Expected 0 or 1.")
  | .str s =>
    if Text.asciiLower s ∈ ["true", "1"] then .ok true
    else if Text.asciiLower s ∈ ["false", "0"] then .ok false
    else .error ("Invalid boolean value '" ++ s ++ "'.")
  | .other text => .error ("Invalid boolean value '" ++ text ++ "'.")

/-! ## Rows -/

structure OrganizationRow where
  id : Option String
  createdAt : Option String

structure UserRow where
  id : Option String
  orgId : Option String
  preferences : Option String
  roles : Option String
  isActive : Cell
  createdAt : Option String

structure ApiKeyRow where
  id : Option String
  orgId : Option String
  isActive : Cell
  createdAt : Option String

structure AuditLogRow where
  id : Option String
  orgId : Option String
  userId : Option String
  details : Option String
  timestamp : Option String

structure InvestigationRow where
  id : Option String
  orgId : Option String
  createdAt : Option String

structure PlannerMetricRow where
  id : Option String
  orgId : Option String
  investigationId : Option String
  createdAt : Option String

structure AnalyticsRow where
  id : Option String
  orgId : Option String
  timestamp : Option String

/-- A SQLite database; three of the tables may be missing. -/
structure SqliteDb where
  organizations : List OrganizationRow
  users : List UserRow
  apiKeys : Option (List ApiKeyRow)
  auditLogs : List AuditLogRow
  investigations : List InvestigationRow
  plannerMetrics : Option (List PlannerMetricRow)
  analytics : Option (List AnalyticsRow)

/-! ## The steps for one row

Each step gives the identifier under which the row is counted, if it is: an organization, a user or
an investigation without one is an error, any other row is passed over. -/

/-- A reference that is not blank leads to an identifier of `migrated`; `orphan` is the text of the
error. -/
def requireParent (migrated : List String) (orphan : String → String) :
    Option String → Except String Unit
  | none => .ok ()
  | some id => if id ∈ migrated then .ok () else .error (orphan id)

/-- `validate_json` where the column is not empty. -/
def validateJsonColumn (val : Option String) : Except String Unit :=
  match val with
  | none => .ok ()
  | some val => if val = "" then .ok () else discard (validateJson py (some val))

/-- The check of the roles of a user: a text that is no list is cut at its commas. -/
def validateRoles (roles : Option String) : Except String Unit :=
  match roles with
  | none => .ok ()
  | some roles =>
    if roles = "" then .ok ()
    else if roles.toList.head? = some '[' then discard (validateJson py (some roles))
    else
      let parts := (roles.toList.splitOn ',').map String.ofList
      discard (validateJson py (some (py.dumps parts)))

def migrateOrganization (r : OrganizationRow) : Except String (Option String) :=
  match toUuid py r.id with
  | none => .error "Organization record missing valid ID."
  | some orgId => do
    discard (validateTimestamp py r.createdAt)
    return some orgId

def migrateUser (migratedOrgIds : List String) (r : UserRow) : Except String (Option String) :=
  match toUuid py r.id, toUuid py r.orgId with
  | some userId, some orgId => do
    requireParent migratedOrgIds (fun orgId =>
      "Orphan user '" ++ userId ++ "' references non-existent org_id '" ++ orgId ++ "'.") (some orgId)
    validateJsonColumn py r.preferences
    validateRoles py r.roles
    discard (validateTimestamp py r.createdAt)
    discard (validateBoolean r.isActive)
    return some userId
  | _, _ => .error "User record missing required ID or org_id."

def migrateApiKey (migratedOrgIds : List String) (r : ApiKeyRow) :
    Except String (Option String) := do
  requireParent migratedOrgIds (fun orgId =>
    "Orphan API key references non-existent org_id '" ++ orgId ++ "'.") (toUuid py r.orgId)
  match toUuid py r.id with
  | none => return none
  | some keyId =>
    discard (validateTimestamp py r.createdAt)
    discard (validateBoolean r.isActive)
    return some keyId

def migrateAuditLog (migratedOrgIds migratedUserIds : List String) (r : AuditLogRow) :
    Except String (Option String) := do
  requireParent migratedOrgIds (fun orgId =>
    "Orphan audit log references non-existent org_id '" ++ orgId ++ "'.") (toUuid py r.orgId)
  requireParent migratedUserIds (fun userId =>
    "Orphan audit log references non-existent user_id '" ++ userId ++ "'.") (toUuid py r.userId)
  validateJsonColumn py r.details
  discard (validateTimestamp py r.timestamp)
  return toUuid py r.id

def migrateInvestigation (migratedOrgIds : List String) (r : InvestigationRow) :
    Except String (Option String) :=
  match toUuid py r.id, toUuid py r.orgId with
  | some invId, some orgId => do
    requireParent migratedOrgIds (fun orgId =>
      "Orphan investigation references non-existent org_id '" ++ orgId ++ "'.") (some orgId)
    discard (validateTimestamp py r.createdAt)
    return some invId
  | _, _ => .error "Investigation missing required id or org_id."

def migratePlannerMetric (migratedOrgIds migratedInvestigationIds : List String)
    (r : PlannerMetricRow) : Except String (Option String) := do
  requireParent migratedOrgIds (fun orgId =>
    "Orphan planner metric references non-existent org_id '" ++ orgId ++ "'.") (toUuid py r.orgId)
  requireParent migratedInvestigationIds (fun invId =>
    "Orphan planner metric references non-existent investigation_id '" ++ invId ++ "'.")
    (toUuid py r.investigationId)
  match toUuid py r.id with
  | none => return none
  | some pmId =>
    discard (validateTimestamp py r.createdAt)
    return some pmId

def migrateAnalytics (migratedOrgIds : List String) (r : AnalyticsRow) :
    Except String (Option String) := do
  requireParent migratedOrgIds (fun orgId =>
    "Orphan analytics metric references non-existent org_id '" ++ orgId ++ "'.") (toUuid py r.orgId)
  match toUuid py r.id with
  | none => return none
  | some aId =>
    discard (validateTimestamp py r.timestamp)
    return some aId

/-! ## The run -/

inductive Table
  | organizations
  | users
  | apiKeys
  | auditLogs
  | investigations
  | plannerMetrics
  | analytics
  deriving DecidableEq

/-- The identifiers of the rows that are counted, table by table. -/
def migrateTables (db : SqliteDb) : Except String (Table → List String) := do
  let orgIds ← scan (migrateOrganization py) db.organizations
  let userIds ← scan (migrateUser py orgIds) db.users
  let keyIds ← scan (migrateApiKey py orgIds) (db.apiKeys.getD [])
  let auditIds ← scan (migrateAuditLog py orgIds userIds) db.auditLogs
  let invIds ← scan (migrateInvestigation py orgIds) db.investigations
  let pmIds ← scan (migratePlannerMetric py orgIds invIds) (db.plannerMetrics.getD [])
  let analyticsIds ← scan (migrateAnalytics py orgIds) (db.analytics.getD [])
  return fun
    | .organizations => orgIds
    | .users => userIds
    | .apiKeys => keyIds
    | .auditLogs => auditIds
    | .investigations => invIds
    | .plannerMetrics => pmIds
    | .analytics => analyticsIds

/-- The PostgreSQL client: the rows it was handed, by table and identifier. -/
structure PostgresClient where
  received : List (Table × String)

/-- `migrate_all_tables`: the counts, and the client afterwards. No step uses the client. -/
def migrateAllTables (postgresClient : PostgresClient) (db : SqliteDb) :
    Except String ((Table → ℕ) × PostgresClient) :=
  match migrateTables py db with
  | .ok ids => .ok (fun t => (ids t).length, postgresClient)
  | .error exc => .error ("Database migration failed: " ++ exc)

/-! ## The rows of a run -/

/-- The identifiers and the references of the rows, as they stand in the database. -/
def SqliteDb.tables (db : SqliteDb) : KeyedTables Table (Option String) where
  keys
    | .organizations => db.organizations.map (·.id)
    | .users => db.users.map (·.id)
    | .apiKeys => (db.apiKeys.getD []).map (·.id)
    | .auditLogs => db.auditLogs.map (·.id)
    | .investigations => db.investigations.map (·.id)
    | .plannerMetrics => (db.plannerMetrics.getD []).map (·.id)
    | .analytics => (db.analytics.getD []).map (·.id)
  references
    | .organizations => []
    | .users => db.users.map fun r => (.organizations, r.orgId)
    | .apiKeys => (db.apiKeys.getD []).map fun r => (.organizations, r.orgId)
    | .auditLogs => db.auditLogs.flatMap fun r => [(.organizations, r.orgId), (.users, r.userId)]
    | .investigations => db.investigations.map fun r => (.organizations, r.orgId)
    | .plannerMetrics => (db.plannerMetrics.getD []).flatMap fun r =>
        [(.organizations, r.orgId), (.investigations, r.investigationId)]
    | .analytics => (db.analytics.getD []).map fun r => (.organizations, r.orgId)

/-- A reference that is not blank leads to one of the identifiers. -/
def Leads (ids : List String) (key : Option String) : Prop :=
  ∀ id, toUuid py key = some id → id ∈ ids

variable {py}

theorem leads_of_requireParent {ids : List String} {orphan : String → String} {key : Option String}
    {u : Unit} (h : requireParent ids orphan (toUuid py key) = .ok u) : Leads py ids key := by
  intro id hid
  rw [hid, requireParent] at h
  by_contra hmem
  rw [if_neg hmem] at h
  cases h

variable {counted : Option String} {orgIds userIds invIds : List String}

/-- A row is counted under its identifier, or not at all. -/
theorem eq_of_counted {id : Option String} {count : String → Except String (Option String)}
    (hcount : ∀ key given, count key = .ok given → given = some key)
    (h : (match id with | none => return none | some key => count key) = .ok counted) :
    counted = id := by
  cases id with
  | none =>
    cases h
    rfl
  | some key => exact hcount key counted h

theorem of_migrateOrganization {r : OrganizationRow} (h : migrateOrganization py r = .ok counted) :
    counted = toUuid py r.id ∧ toUuid py r.id ≠ none := by
  unfold migrateOrganization at h
  cases hid : toUuid py r.id with
  | none =>
    rw [hid] at h
    cases h
  | some orgId =>
    rw [hid] at h
    obtain ⟨_, -, h⟩ := of_bind h
    cases h
    exact ⟨rfl, Option.some_ne_none _⟩

theorem of_migrateUser {r : UserRow} (h : migrateUser py orgIds r = .ok counted) :
    counted = toUuid py r.id ∧ toUuid py r.id ≠ none ∧ Leads py orgIds r.orgId := by
  unfold migrateUser at h
  split at h
  · rename_i userId orgId hid horg
    obtain ⟨_, hparent, h⟩ := of_bind h
    obtain ⟨_, -, h⟩ := of_bind h
    obtain ⟨_, -, h⟩ := of_bind h
    obtain ⟨_, -, h⟩ := of_bind h
    obtain ⟨_, -, h⟩ := of_bind h
    cases h
    rw [← horg] at hparent
    exact ⟨hid.symm, hid ▸ Option.some_ne_none _, leads_of_requireParent hparent⟩
  · cases h

theorem of_migrateApiKey {r : ApiKeyRow} (h : migrateApiKey py orgIds r = .ok counted) :
    counted = toUuid py r.id ∧ Leads py orgIds r.orgId := by
  obtain ⟨_, hparent, h⟩ := of_bind h
  refine ⟨eq_of_counted (fun keyId given h => ?_) h, leads_of_requireParent hparent⟩
  obtain ⟨_, -, h⟩ := of_bind h
  obtain ⟨_, -, h⟩ := of_bind h
  cases h
  rfl

theorem of_migrateAuditLog {r : AuditLogRow} (h : migrateAuditLog py orgIds userIds r = .ok counted) :
    counted = toUuid py r.id ∧ Leads py orgIds r.orgId ∧ Leads py userIds r.userId := by
  obtain ⟨_, horg, h⟩ := of_bind h
  obtain ⟨_, huser, h⟩ := of_bind h
  obtain ⟨_, -, h⟩ := of_bind h
  obtain ⟨_, -, h⟩ := of_bind h
  cases h
  exact ⟨rfl, leads_of_requireParent horg, leads_of_requireParent huser⟩

theorem of_migrateInvestigation {r : InvestigationRow}
    (h : migrateInvestigation py orgIds r = .ok counted) :
    counted = toUuid py r.id ∧ toUuid py r.id ≠ none ∧ Leads py orgIds r.orgId := by
  unfold migrateInvestigation at h
  split at h
  · rename_i invId orgId hid horg
    obtain ⟨_, hparent, h⟩ := of_bind h
    obtain ⟨_, -, h⟩ := of_bind h
    cases h
    rw [← horg] at hparent
    exact ⟨hid.symm, hid ▸ Option.some_ne_none _, leads_of_requireParent hparent⟩
  · cases h

theorem of_migratePlannerMetric {r : PlannerMetricRow}
    (h : migratePlannerMetric py orgIds invIds r = .ok counted) :
    counted = toUuid py r.id ∧ Leads py orgIds r.orgId ∧ Leads py invIds r.investigationId := by
  obtain ⟨_, horg, h⟩ := of_bind h
  obtain ⟨_, hinv, h⟩ := of_bind h
  refine ⟨eq_of_counted (fun pmId given h => ?_) h, leads_of_requireParent horg,
    leads_of_requireParent hinv⟩
  obtain ⟨_, -, h⟩ := of_bind h
  cases h
  rfl

theorem of_migrateAnalytics {r : AnalyticsRow} (h : migrateAnalytics py orgIds r = .ok counted) :
    counted = toUuid py r.id ∧ Leads py orgIds r.orgId := by
  obtain ⟨_, hparent, h⟩ := of_bind h
  refine ⟨eq_of_counted (fun aId given h => ?_) h, leads_of_requireParent hparent⟩
  obtain ⟨_, -, h⟩ := of_bind h
  cases h
  rfl

/-- What the identifiers of a run are: those of the rows, and every reference leads to one. -/
structure Sound (py : Library) (db : SqliteDb) (ids : Table → List String) : Prop where
  ids_eq : ∀ t, ids t = (db.tables.keys t).filterMap (toUuid py)
  leads : ∀ t, ∀ r ∈ db.tables.references t, Leads py (ids r.1) r.2
  required : ∀ t ∈ [Table.organizations, .users, .investigations], ∀ k ∈ db.tables.keys t, ¬Blank k

/-- **A run that returns counts the rows with an identifier**, and no reference is left without a
row. -/
theorem of_migrateTables {db : SqliteDb} {ids : Table → List String}
    (h : migrateTables py db = .ok ids) : Sound py db ids := by
  obtain ⟨orgIds, horgs, h⟩ := of_bind h
  obtain ⟨userIds, husers, h⟩ := of_bind h
  obtain ⟨keyIds, hkeys, h⟩ := of_bind h
  obtain ⟨auditIds, haudits, h⟩ := of_bind h
  obtain ⟨invIds, hinvs, h⟩ := of_bind h
  obtain ⟨pmIds, hpms, h⟩ := of_bind h
  obtain ⟨analyticsIds, hanalytics, h⟩ := of_bind h
  cases h
  obtain ⟨horgs, horgsP⟩ := of_scan (fun _ _ => of_migrateOrganization) horgs
  obtain ⟨husers, husersP⟩ := of_scan (fun _ _ => of_migrateUser) husers
  obtain ⟨hkeys, hkeysP⟩ := of_scan (fun _ _ => of_migrateApiKey) hkeys
  obtain ⟨haudits, hauditsP⟩ := of_scan (fun _ _ => of_migrateAuditLog) haudits
  obtain ⟨hinvs, hinvsP⟩ := of_scan (fun _ _ => of_migrateInvestigation) hinvs
  obtain ⟨hpms, hpmsP⟩ := of_scan (fun _ _ => of_migratePlannerMetric) hpms
  obtain ⟨hanalytics, hanalyticsP⟩ := of_scan (fun _ _ => of_migrateAnalytics) hanalytics
  constructor
  case ids_eq =>
    intro t
    cases t <;> simp only [SqliteDb.tables, List.filterMap_map] <;> assumption
  case leads =>
    intro t r hr
    cases t with
    | organizations => cases hr
    | users =>
      obtain ⟨row, hrow, rfl⟩ := List.mem_map.1 hr
      exact (husersP row hrow).2
    | apiKeys =>
      obtain ⟨row, hrow, rfl⟩ := List.mem_map.1 hr
      exact hkeysP row hrow
    | auditLogs =>
      obtain ⟨row, hrow, hr⟩ := List.mem_flatMap.1 hr
      rcases List.mem_pair.1 hr with rfl | rfl
      · exact (hauditsP row hrow).1
      · exact (hauditsP row hrow).2
    | investigations =>
      obtain ⟨row, hrow, rfl⟩ := List.mem_map.1 hr
      exact (hinvsP row hrow).2
    | plannerMetrics =>
      obtain ⟨row, hrow, hr⟩ := List.mem_flatMap.1 hr
      rcases List.mem_pair.1 hr with rfl | rfl
      · exact (hpmsP row hrow).1
      · exact (hpmsP row hrow).2
    | analytics =>
      obtain ⟨row, hrow, rfl⟩ := List.mem_map.1 hr
      exact hanalyticsP row hrow
  case required =>
    intro t ht k hk
    rw [← toUuid_ne_none_iff py]
    simp only [List.mem_cons, List.not_mem_nil, or_false] at ht
    rcases ht with rfl | rfl | rfl
    · obtain ⟨row, hrow, rfl⟩ := List.mem_map.1 hk
      exact horgsP row hrow
    · obtain ⟨row, hrow, rfl⟩ := List.mem_map.1 hk
      exact (husersP row hrow).1
    · obtain ⟨row, hrow, rfl⟩ := List.mem_map.1 hk
      exact (hinvsP row hrow).1

end

/-! ## Loss -/

/-- What a row of the database has as its identifier. -/
def SqliteDb.Uses (db : SqliteDb) (c : Uuid ⊕ String) : Prop :=
  ∃ t, ∃ k ∈ db.tables.keys t, canonical? k = some c

/-- `uuid5` confuses no two texts in use, and gives out no identifier in use. -/
structure Uuid5Sound (py : Library) (db : SqliteDb) : Prop where
  injective : ∀ l l', db.Uses (.inr l) → db.Uses (.inr l') →
    py.uuid5 namespaceScamon l = py.uuid5 namespaceScamon l' → l = l'
  fresh : ∀ l u, db.Uses (.inr l) → db.Uses (.inl u) → py.uuid5 namespaceScamon l ≠ u

theorem Uuid5Sound.target_inj {py : Library} {db : SqliteDb} (hpy : Uuid5Sound py db)
    {c c' : Uuid ⊕ String} (hc : db.Uses c) (hc' : db.Uses c') (h : target py c = target py c') :
    c = c' := by
  cases c with
  | inl u =>
    cases c' with
    | inl u' => exact congrArg Sum.inl (Uuid.str_injective h)
    | inr l' => exact absurd (Uuid.str_injective h).symm (hpy.fresh l' u hc' hc)
  | inr l =>
    cases c' with
    | inl u' => exact absurd (Uuid.str_injective h) (hpy.fresh l u' hc hc')
    | inr l' => exact congrArg Sum.inr (hpy.injective l l' hc hc' (Uuid.str_injective h))

/-- Nothing is lost, merged or orphaned: every row is counted and handed over once under its new
identifier, different identifiers stay different, and references lead to rows. -/
structure Lossless (py : Library) (db : SqliteDb) (before after : PostgresClient)
    (results : Table → ℕ) : Prop where
  counted : ∀ t, results t = (db.tables.keys t).length
  handed : ∃ received, after.received = before.received ++ received ∧
    db.tables.Transferred (toUuid py) received
  separated : db.tables.Separated (toUuid py)
  resolved : db.tables.Resolved (toUuid py)

/-- The tables whose rows may be without an identifier. -/
def lenientTables : List Table := [.apiKeys, .auditLogs, .plannerMetrics, .analytics]

section

variable {py : Library} {db : SqliteDb} {before after : PostgresClient} {results : Table → ℕ}

theorem of_migrateAllTables (h : migrateAllTables py before db = .ok (results, after)) :
    ∃ ids, Sound py db ids ∧ results = (fun t => (ids t).length) ∧ after = before := by
  unfold migrateAllTables at h
  cases hids : migrateTables py db with
  | error exc =>
    rw [hids] at h
    cases h
  | ok ids =>
    rw [hids] at h
    cases h
    exact ⟨ids, of_migrateTables hids, rfl, rfl⟩

theorem Sound.resolved {ids : Table → List String} (h : Sound py db ids) :
    db.tables.Resolved (toUuid py) := by
  intro t r hr id hid
  have hmem := h.leads t r hr id hid
  rw [h.ids_eq] at hmem
  exact List.mem_filterMap.1 hmem

theorem Sound.total_iff {ids : Table → List String} (h : Sound py db ids) :
    db.tables.Total (toUuid py) ↔ ∀ t ∈ lenientTables, ∀ k ∈ db.tables.keys t, ¬Blank k := by
  simp only [KeyedTables.Total, toUuid_ne_none_iff]
  constructor
  · exact fun htotal t _ => htotal t
  · intro hlenient t k hk
    cases t with
    | organizations => exact h.required _ (by simp) k hk
    | users => exact h.required _ (by simp) k hk
    | investigations => exact h.required _ (by simp) k hk
    | apiKeys => exact hlenient _ (by simp [lenientTables]) k hk
    | auditLogs => exact hlenient _ (by simp [lenientTables]) k hk
    | plannerMetrics => exact hlenient _ (by simp [lenientTables]) k hk
    | analytics => exact hlenient _ (by simp [lenientTables]) k hk

/-- **A migration loses nothing if and only if the tables are empty**: nothing is handed over.
What it counts is complete, with different identifiers and references that lead to rows, if and
only if no row of the lenient tables has a blank identifier and different texts in one table
identify different things. -/
theorem migrateAllTables_lossless_iff (hpy : Uuid5Sound py db)
    (h : migrateAllTables py before db = .ok (results, after)) :
    (Lossless py db before after results ↔ db.tables.IsEmpty) ∧
      ((∀ t, results t = (db.tables.keys t).length) ∧ db.tables.Separated (toUuid py) ∧
          db.tables.Resolved (toUuid py) ↔
        (∀ t ∈ lenientTables, ∀ k ∈ db.tables.keys t, ¬Blank k) ∧
          db.tables.Separated canonical?) := by
  obtain ⟨ids, hsound, rfl, rfl⟩ := of_migrateAllTables h
  have hcounted : (∀ t, (ids t).length = (db.tables.keys t).length) ↔
      db.tables.Total (toUuid py) := by
    simp only [hsound.ids_eq]
    exact length_filterMap_iff
  have hseparated : db.tables.Separated (toUuid py) ↔ db.tables.Separated canonical? := by
    rw [funext (toUuid_eq py)]
    refine separated_map_iff fun t k hk k' hk' c c' hc hc' heq => ?_
    exact hpy.target_inj ⟨t, k, hk, hc⟩ ⟨t, k', hk', hc'⟩ heq
  constructor
  · constructor
    · intro hlossless
      -- The client has received nothing, so there was nothing to hand over.
      obtain ⟨received, happend, htransferred⟩ := hlossless.handed
      rw [List.self_eq_append_right.1 happend] at htransferred
      exact transferred_nil_iff.1 htransferred
    · intro hempty
      refine ⟨?_, ⟨[], (List.append_nil _).symm, transferred_nil_iff.2 hempty⟩, ?_,
        hsound.resolved⟩
      · rw [hcounted]
        intro t k hk
        rw [hempty t] at hk
        cases hk
      · intro t k hk
        rw [hempty t] at hk
        cases hk
  · rw [hcounted, hseparated, hsound.total_iff]
    exact and_congr_right fun _ => and_iff_left hsound.resolved

theorem exists_run (before : PostgresClient) (h : (migrateTables py db).toBool = true) :
    ∃ results, migrateAllTables py before db = .ok (results, before) := by
  unfold migrateAllTables
  cases hids : migrateTables py db with
  | error exc =>
    rw [hids] at h
    cases h
  | ok ids => exact ⟨_, rfl⟩

/-- Where all identifiers are UUIDs, `uuid5` is not asked. -/
theorem Uuid5Sound.of_uuids
    (h : ∀ t, ∀ k ∈ db.tables.keys t, ∀ l, canonical? k ≠ some (.inr l)) : Uuid5Sound py db := by
  constructor
  · rintro l - ⟨t, k, hk, hl⟩ -
    exact absurd hl (h t k hk l)
  · rintro l - ⟨t, k, hk, hl⟩ -
    exact absurd hl (h t k hk l)

end

/-! ## A migration that loses rows -/

/-- A library for one time and one empty list, which is asked for no legacy identifier. -/
def sampleLibrary : Library where
  uuid5 := fun ns _ => ns
  reserialize := fun text =>
    if text = "[]" then .ok text else .error "Expecting value: line 1 column 1 (char 0)"
  dumps := fun _ => "[]"
  isoDate := fun text =>
    if text = "2026-01-01" then .ok "2026-01-01T00:00:00"
    else .error ("Invalid isoformat string: '" ++ text ++ "'")

/-- A user of an organization, with an investigation and what is recorded of it. -/
def oneUser : SqliteDb where
  organizations := [⟨some (Uuid.ofNat 1).str, some "2026-01-01"⟩]
  users := [⟨some (Uuid.ofNat 2).str, some (Uuid.ofNat 1).str, none, some "[]", .int 1,
    some "2026-01-01"⟩]
  apiKeys := none
  auditLogs := [⟨some (Uuid.ofNat 3).str, some (Uuid.ofNat 1).str, none, none, some "2026-01-01"⟩]
  investigations := [⟨some (Uuid.ofNat 4).str, some (Uuid.ofNat 1).str, some "2026-01-01"⟩]
  plannerMetrics := some [⟨some (Uuid.ofNat 5).str, some (Uuid.ofNat 1).str,
    some (Uuid.ofNat 4).str, some "2026-01-01"⟩]
  analytics := some []

theorem oneUser_uuids {py : Library} : Uuid5Sound py oneUser := by
  refine .of_uuids fun t k hk l hl => ?_
  have hstr : ∃ u : Uuid, k = some u.str := by
    cases t <;> simp only [SqliteDb.tables, oneUser, Option.getD, List.map_cons, List.map_nil,
      List.mem_singleton, List.not_mem_nil] at hk
    all_goals exact ⟨_, hk⟩
  obtain ⟨u, rfl⟩ := hstr
  rw [canonical?_str] at hl
  cases hl

theorem oneUser_runs : (migrateTables sampleLibrary oneUser).toBool = true := by
  decide +kernel

theorem migrateAllTables_lossless_iff_oneUser :
    ∃ results, (Lossless sampleLibrary oneUser ⟨[]⟩ ⟨[]⟩ results ↔ oneUser.tables.IsEmpty) ∧
      ((∀ t, results t = (oneUser.tables.keys t).length) ∧
          oneUser.tables.Separated (toUuid sampleLibrary) ∧
          oneUser.tables.Resolved (toUuid sampleLibrary) ↔
        (∀ t ∈ lenientTables, ∀ k ∈ oneUser.tables.keys t, ¬Blank k) ∧
          oneUser.tables.Separated canonical?) := by
  obtain ⟨results, hrun⟩ := exists_run ⟨[]⟩ oneUser_runs
  exact ⟨results, migrateAllTables_lossless_iff oneUser_uuids hrun⟩

/-- One organization under two spellings of its identifier, and an API key without one. -/
def twoSpellings : SqliteDb where
  organizations := [⟨some (Uuid.ofNat 1).str, some "2026-01-01"⟩,
    ⟨some ("\x7b" ++ (Uuid.ofNat 1).str ++ "\x7d"), some "2026-01-01"⟩]
  users := []
  apiKeys := some [⟨some "", some (Uuid.ofNat 1).str, .int 1, some "2026-01-01"⟩]
  auditLogs := []
  investigations := []
  plannerMetrics := none
  analytics := none

theorem twoSpellings_runs : (migrateTables sampleLibrary twoSpellings).toBool = true := by
  decide +kernel

theorem canonical?_braces :
    canonical? (some ("\x7b" ++ (Uuid.ofNat 1).str ++ "\x7d")) = some (.inl (Uuid.ofNat 1)) := by
  decide +kernel

theorem twoSpellings_uuids {py : Library} : Uuid5Sound py twoSpellings := by
  refine .of_uuids fun t k hk l hl => ?_
  cases t <;> simp only [SqliteDb.tables, twoSpellings, Option.getD, List.map_cons, List.map_nil,
    List.mem_cons, List.not_mem_nil, or_false] at hk
  · rcases hk with rfl | rfl
    · rw [canonical?_str] at hl
      cases hl
    · rw [canonical?_braces] at hl
      cases hl
  · subst hk
    cases hl

/-- The run counts the organization twice under one identifier, does not count the key, and hands
nothing over. -/
theorem migration_loses : ∃ results,
    migrateAllTables sampleLibrary ⟨[]⟩ twoSpellings = .ok (results, ⟨[]⟩) ∧
      Uuid5Sound sampleLibrary twoSpellings ∧ results .organizations = 2 ∧ results .apiKeys = 0 ∧
      ¬Lossless sampleLibrary twoSpellings ⟨[]⟩ ⟨[]⟩ results := by
  obtain ⟨results, hrun⟩ := exists_run ⟨[]⟩ twoSpellings_runs
  obtain ⟨ids, hsound, rfl, -⟩ := of_migrateAllTables hrun
  have horgs : (ids .organizations).length = 2 := by
    simp [hsound.ids_eq, SqliteDb.tables, twoSpellings, toUuid_eq, canonical?_str,
      canonical?_braces]
  have hkeys : (ids .apiKeys).length = 0 := by
    rw [hsound.ids_eq]
    rfl
  refine ⟨_, hrun, twoSpellings_uuids, horgs, hkeys, fun hlossless => ?_⟩
  have hcount : 0 = 1 := hkeys.symm.trans (hlossless.counted .apiKeys)
  cases hcount

end ScamOn.Ops
