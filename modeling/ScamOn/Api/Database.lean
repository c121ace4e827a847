import Mathlib.Algebra.Order.Field.Rat
import ScamOn.Lib.JsonValue
import ScamOn.Lib.UniqueTable

/-!
# The relational store of the REST API

The tables that `DatabaseClient` creates, with their unique columns and foreign keys, and the
repositories over them.  Connections have `PRAGMA foreign_keys = ON`, and every call is a transaction
of its own.

* `Database` carries the constraints, so that a row that breaks one cannot be stored.
* `Database.createUser`, `log`, `saveInvestigation` and the others are the methods of the
  repositories.  Times are in seconds; the texts that the source compares are in the order of their
  times.
* `createUser_eq_ok`, `log_eq_ok` and their like say what a write leaves.
-/

namespace ScamOn.Api

/-! ## Rows -/

/-- A row of `organizations`. -/
structure Organization where
  id : String
  name : String
  createdAt : ℚ
  deriving DecidableEq

/-- A row of `users`. -/
structure User where
  id : String
  orgId : String
  username : String
  passwordHash : String
  roles : List String
  isActive : Bool
  failedLoginAttempts : ℤ
  lockoutUntil : Option ℚ
  createdAt : ℚ
  deriving DecidableEq

/-- A row of `api_keys`. -/
structure APIKey where
  id : String
  orgId : String
  name : String
  keyHash : String
  role : String
  isActive : Bool
  createdAt : ℚ
  deriving DecidableEq

/-- A row of `audit_logs`. -/
structure AuditLog where
  id : String
  orgId : Option String
  userId : Option String
  action : String
  details : Option (JsonValue ℚ)
  timestamp : ℚ

/-- A row of `investigations`. -/
structure Investigation where
  id : String
  orgId : String
  emailId : String
  subject : String
  sender : String
  verdict : String
  confidence : ℚ
  riskLevel : String
  durationMs : ℤ
  createdAt : ℚ
  deriving DecidableEq

/-- A row of `planner_metrics`. -/
structure PlannerMetric where
  id : String
  orgId : String
  investigationId : String
  strategy : String
  stepCount : ℤ
  latencyMs : ℤ
  createdAt : ℚ
  deriving DecidableEq

/-! ## The schema -/

/-- The tables, with their `UNIQUE`, `PRIMARY KEY` and `FOREIGN KEY` constraints. -/
structure Database where
  organizations : UniqueTable Organization [Organization.id, Organization.name]
  users : UniqueTable User [User.id, User.username]
  apiKeys : UniqueTable APIKey [APIKey.id, APIKey.keyHash]
  auditLogs : UniqueTable AuditLog [AuditLog.id]
  investigations : UniqueTable Investigation [Investigation.id]
  plannerMetrics : UniqueTable PlannerMetric [PlannerMetric.id]
  userOrg : Refers (users.rows.map User.orgId) (organizations.rows.map Organization.id)
  keyOrg : Refers (apiKeys.rows.map APIKey.orgId) (organizations.rows.map Organization.id)
  logOrg : Refers (auditLogs.rows.filterMap AuditLog.orgId) (organizations.rows.map Organization.id)
  logUser : Refers (auditLogs.rows.filterMap AuditLog.userId) (users.rows.map User.id)
  investigationOrg : Refers (investigations.rows.map Investigation.orgId)
    (organizations.rows.map Organization.id)
  metricOrg : Refers (plannerMetrics.rows.map PlannerMetric.orgId)
    (organizations.rows.map Organization.id)
  metricInvestigation : Refers (plannerMetrics.rows.map PlannerMetric.investigationId)
    (investigations.rows.map Investigation.id)

/-- `sqlite3.IntegrityError`. -/
inductive IntegrityError
  | unique
  | foreignKey
  deriving DecidableEq, Repr

section Constraints

variable {ρ : Type} {columns : List (ρ → String)} {t t' : UniqueTable ρ columns} {r : ρ}
  {references keys : List String}

/-- A row more in the table that is referred to. -/
theorem refers_insert_keys (h : t.insert? r = some t') {c : ρ → String}
    (hrefers : Refers references (t.rows.map c)) : Refers references (t'.rows.map c) := by
  rw [UniqueTable.insert?_eq_some h, List.map_append]
  exact hrefers.append_keys _

/-- A row more that refers to another table. -/
theorem refers_insert (h : t.insert? r = some t') {c : ρ → String}
    (hrefers : Refers (t.rows.map c) keys) (hr : c r ∈ keys) : Refers (t'.rows.map c) keys := by
  rw [UniqueTable.insert?_eq_some h, List.map_append]
  refine hrefers.append_references fun v hv => ?_
  rw [List.mem_singleton.1 hv]
  exact hr

/-- The same for a column that may be `NULL`. -/
theorem refers_insert_null (h : t.insert? r = some t') {c : ρ → Option String}
    (hrefers : Refers (t.rows.filterMap c) keys) (hr : Refers (c r).toList keys) :
    Refers (t'.rows.filterMap c) keys := by
  rw [UniqueTable.insert?_eq_some h, List.filterMap_append]
  refine hrefers.append_references fun v hv => hr ?_
  obtain ⟨x, hx, hcx⟩ := List.mem_filterMap.1 hv
  rw [List.mem_singleton.1 hx] at hcx
  rw [hcx]
  exact List.mem_singleton_self v

end Constraints

namespace Database

/-- The tables when they have been created. -/
def empty : Database where
  organizations := .empty
  users := .empty
  apiKeys := .empty
  auditLogs := .empty
  investigations := .empty
  plannerMetrics := .empty
  userOrg := .nil
  keyOrg := .nil
  logOrg := .nil
  logUser := .nil
  investigationOrg := .nil
  metricOrg := .nil
  metricInvestigation := .nil

/-! ## The repositories -/

/-- `OrganizationRepository.get`. -/
def getOrganization (db : Database) (orgId : String) : Option Organization :=
  db.organizations.rows.find? fun o => o.id = orgId

/-- `OrganizationRepository.create`. -/
def createOrganization (db : Database) (row : Organization) : Except IntegrityError Database :=
  match h : db.organizations.insert? row with
  | none => .error .unique
  | some t =>
    .ok
      { db with
        organizations := t
        userOrg := refers_insert_keys h db.userOrg
        keyOrg := refers_insert_keys h db.keyOrg
        logOrg := refers_insert_keys h db.logOrg
        investigationOrg := refers_insert_keys h db.investigationOrg
        metricOrg := refers_insert_keys h db.metricOrg }

/-- `LegacyUserRepository.get_by_username`. -/
def getByUsername (db : Database) (username : String) : Option User :=
  db.users.rows.find? fun u => u.username = username

/-- `LegacyUserRepository.create`. -/
def createUser (db : Database) (row : User) : Except IntegrityError Database :=
  match h : db.users.insert? row with
  | none => .error .unique
  | some t =>
    if hfk : row.orgId ∈ db.organizations.rows.map Organization.id then
      .ok
        { db with
          users := t
          userOrg := refers_insert h db.userOrg hfk
          logUser := refers_insert_keys h db.logUser }
    else .error .foreignKey

/-- The row of `users` with other login counters. -/
def withLogin (userId : String) (failed : ℤ) (lockout : Option ℚ) (u : User) : User :=
  if u.id = userId then { u with failedLoginAttempts := failed, lockoutUntil := lockout } else u

theorem withLogin_of_field {α : Type} {field : User → α}
    (h : ∀ u failed lockout,
      field { u with failedLoginAttempts := failed, lockoutUntil := lockout } = field u)
    (userId : String) (failed : ℤ) (lockout : Option ℚ) (u : User) :
    field (withLogin userId failed lockout u) = field u := by
  unfold withLogin
  split_ifs
  · exact h u failed lockout
  · rfl

theorem withLogin_unique (userId : String) (failed : ℤ) (lockout : Option ℚ) :
    ∀ c ∈ [User.id, User.username], ∀ u, c (withLogin userId failed lockout u) = c u := by
  intro c hc u
  rcases List.mem_pair.1 hc with rfl | rfl
  · exact withLogin_of_field (fun _ _ _ => rfl) ..
  · exact withLogin_of_field (fun _ _ _ => rfl) ..

theorem map_withLogin {field : User → String}
    (h : ∀ u failed lockout,
      field { u with failedLoginAttempts := failed, lockoutUntil := lockout } = field u)
    (users : List User) (userId : String) (failed : ℤ) (lockout : Option ℚ) :
    (users.map (withLogin userId failed lockout)).map field = users.map field := by
  rw [List.map_map]
  exact List.map_congr_left fun u _ => withLogin_of_field h ..

theorem userOrg_withLogin (db : Database) (userId : String) (failed : ℤ) (lockout : Option ℚ) :
    Refers ((db.users.rows.map (withLogin userId failed lockout)).map User.orgId)
      (db.organizations.rows.map Organization.id) := by
  rw [map_withLogin fun _ _ _ => rfl]
  exact db.userOrg

theorem logUser_withLogin (db : Database) (userId : String) (failed : ℤ) (lockout : Option ℚ) :
    Refers (db.auditLogs.rows.filterMap AuditLog.userId)
      ((db.users.rows.map (withLogin userId failed lockout)).map User.id) := by
  rw [map_withLogin fun _ _ _ => rfl]
  exact db.logUser

/-- `LegacyUserRepository.update`, of the two columns that a login changes. -/
def updateLogin (db : Database) (userId : String) (failed : ℤ) (lockout : Option ℚ) : Database :=
  { db with
    users :=
      db.users.update (withLogin userId failed lockout) (withLogin_unique userId failed lockout)
    userOrg := userOrg_withLogin db userId failed lockout
    logUser := logUser_withLogin db userId failed lockout }

/-- `APIKeyRepository.get_by_hash`. -/
def getByHash (db : Database) (keyHash : String) : Option APIKey :=
  db.apiKeys.rows.find? fun k => k.keyHash = keyHash ∧ k.isActive = true

/-- `AuditLogRepository.log`. -/
def log (db : Database) (row : AuditLog) : Except IntegrityError Database :=
  match h : db.auditLogs.insert? row with
  | none => .error .unique
  | some t =>
    if hfk : Refers row.orgId.toList (db.organizations.rows.map Organization.id) ∧
        Refers row.userId.toList (db.users.rows.map User.id) then
      .ok
        { db with
          auditLogs := t
          logOrg := refers_insert_null h db.logOrg hfk.1
          logUser := refers_insert_null h db.logUser hfk.2 }
    else .error .foreignKey

/-- `InvestigationMetadataRepository.save`. -/
def saveInvestigation (db : Database) (row : Investigation) : Except IntegrityError Database :=
  match h : db.investigations.insert? row with
  | none => .error .unique
  | some t =>
    if hfk : row.orgId ∈ db.organizations.rows.map Organization.id then
      .ok
        { db with
          investigations := t
          investigationOrg := refers_insert h db.investigationOrg hfk
          metricInvestigation := refers_insert_keys h db.metricInvestigation }
    else .error .foreignKey

/-- `InvestigationMetadataRepository.get`. -/
def getInvestigation (db : Database) (investigationId : String) : Option Investigation :=
  db.investigations.rows.find? fun i => i.id = investigationId

/-- `InvestigationMetadataRepository.get_history`. -/
def getHistory (db : Database) (orgId : String) (limit : ℕ) : List Investigation :=
  ((db.investigations.rows.filter fun i => i.orgId = orgId).mergeSort
    fun i j => j.createdAt ≤ i.createdAt).take limit

/-- `PlannerMetricsRepository.save`. -/
def saveMetric (db : Database) (row : PlannerMetric) : Except IntegrityError Database :=
  match h : db.plannerMetrics.insert? row with
  | none => .error .unique
  | some t =>
    if hfk : row.orgId ∈ db.organizations.rows.map Organization.id ∧
        row.investigationId ∈ db.investigations.rows.map Investigation.id then
      .ok
        { db with
          plannerMetrics := t
          metricOrg := refers_insert h db.metricOrg hfk.1
          metricInvestigation := refers_insert h db.metricInvestigation hfk.2 }
    else .error .foreignKey

/-! ## What a write leaves -/

variable {db db' : Database}

theorem createOrganization_eq_ok {row : Organization} (h : db.createOrganization row = .ok db') :
    db'.organizations.rows = db.organizations.rows ++ [row] ∧ db'.users = db.users ∧
      db'.apiKeys = db.apiKeys ∧ db'.auditLogs = db.auditLogs ∧
      db'.investigations = db.investigations := by
  unfold createOrganization at h
  split at h
  · cases h
  · rename_i hinsert
    cases h
    exact ⟨UniqueTable.insert?_eq_some hinsert, rfl, rfl, rfl, rfl⟩

theorem createUser_eq_ok {row : User} (h : db.createUser row = .ok db') :
    db'.users.rows = db.users.rows ++ [row] ∧ db'.organizations = db.organizations ∧
      db'.apiKeys = db.apiKeys ∧ db'.auditLogs = db.auditLogs ∧
      db'.investigations = db.investigations := by
  unfold createUser at h
  split at h
  · cases h
  · rename_i hinsert
    split_ifs at h
    cases h
    exact ⟨UniqueTable.insert?_eq_some hinsert, rfl, rfl, rfl, rfl⟩

/-- A log entry is stored only for an organization and a user that are there. -/
theorem log_eq_ok {row : AuditLog} (h : db.log row = .ok db') :
    (Refers row.orgId.toList (db.organizations.rows.map Organization.id) ∧
        Refers row.userId.toList (db.users.rows.map User.id)) ∧
      db'.auditLogs.rows = db.auditLogs.rows ++ [row] ∧ db'.organizations = db.organizations ∧
      db'.users = db.users ∧ db'.apiKeys = db.apiKeys ∧ db'.investigations = db.investigations := by
  unfold log at h
  split at h
  · cases h
  · rename_i hinsert
    split_ifs at h with hfk
    cases h
    exact ⟨hfk, UniqueTable.insert?_eq_some hinsert, rfl, rfl, rfl, rfl⟩

theorem saveInvestigation_eq_ok {row : Investigation} (h : db.saveInvestigation row = .ok db') :
    db'.investigations.rows = db.investigations.rows ++ [row] ∧
      db'.organizations = db.organizations ∧ db'.users = db.users ∧ db'.apiKeys = db.apiKeys ∧
      db'.auditLogs = db.auditLogs := by
  unfold saveInvestigation at h
  split at h
  · cases h
  · rename_i hinsert
    split_ifs at h
    cases h
    exact ⟨UniqueTable.insert?_eq_some hinsert, rfl, rfl, rfl, rfl⟩

/-- An organization with a free identifier and a free name is stored. -/
theorem createOrganization_of_free (row : Organization)
    (hfree : ∀ o ∈ db.organizations.rows, o.id ≠ row.id ∧ o.name ≠ row.name) :
    ∃ db', db.createOrganization row = .ok db' := by
  have hcolumns : ∀ c ∈ [Organization.id, Organization.name],
      c row ∉ db.organizations.rows.map c := by
    intro c hc hmem
    obtain ⟨o, ho, heq⟩ := List.mem_map.1 hmem
    rcases List.mem_pair.1 hc with rfl | rfl
    · exact (hfree o ho).1 heq
    · exact (hfree o ho).2 heq
  obtain ⟨t, hinsert⟩ := UniqueTable.insert?_isSome_iff.2 hcolumns
  unfold createOrganization
  split
  · rename_i hnone
    rw [hinsert] at hnone
    cases hnone
  · exact ⟨_, rfl⟩

/-- A user with a free identifier and a free name is stored. -/
theorem createUser_of_free (row : User)
    (hfree : ∀ u ∈ db.users.rows, u.id ≠ row.id ∧ u.username ≠ row.username)
    (horg : row.orgId ∈ db.organizations.rows.map Organization.id) :
    ∃ db', db.createUser row = .ok db' := by
  have hcolumns : ∀ c ∈ [User.id, User.username], c row ∉ db.users.rows.map c := by
    intro c hc hmem
    obtain ⟨u, hu, heq⟩ := List.mem_map.1 hmem
    rcases List.mem_pair.1 hc with rfl | rfl
    · exact (hfree u hu).1 heq
    · exact (hfree u hu).2 heq
  obtain ⟨t, hinsert⟩ := UniqueTable.insert?_isSome_iff.2 hcolumns
  unfold createUser
  split
  · rename_i hnone
    rw [hinsert] at hnone
    cases hnone
  · exact ⟨_, dif_pos horg⟩

/-- An investigation with a free identifier is stored. -/
theorem saveInvestigation_of_free {row : Investigation}
    (hfree : ∀ i ∈ db.investigations.rows, i.id ≠ row.id)
    (horg : row.orgId ∈ db.organizations.rows.map Organization.id) :
    ∃ db', db.saveInvestigation row = .ok db' := by
  have hcolumns : ∀ c ∈ [Investigation.id], c row ∉ db.investigations.rows.map c := by
    intro c hc hmem
    obtain ⟨i, hi, heq⟩ := List.mem_map.1 hmem
    rw [List.mem_singleton.1 hc] at heq
    exact hfree i hi heq
  obtain ⟨t, hinsert⟩ := UniqueTable.insert?_isSome_iff.2 hcolumns
  unfold saveInvestigation
  split
  · rename_i hnone
    rw [hinsert] at hnone
    cases hnone
  · exact ⟨_, dif_pos horg⟩

theorem saveMetric_eq_ok {row : PlannerMetric} (h : db.saveMetric row = .ok db') :
    db'.organizations = db.organizations ∧ db'.users = db.users ∧ db'.apiKeys = db.apiKeys ∧
      db'.auditLogs = db.auditLogs ∧ db'.investigations = db.investigations := by
  unfold saveMetric at h
  split at h
  · cases h
  · split_ifs at h
    cases h
    exact ⟨rfl, rfl, rfl, rfl, rfl⟩

end Database

end ScamOn.Api
