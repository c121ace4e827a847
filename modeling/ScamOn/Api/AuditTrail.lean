import ScamOn.Api.Isolation

/-!
# The audit trail of the REST API

The routes that write end with an entry in `audit_logs`.  The column `user_id` of an entry refers to
`users`, and the routes give it the identity of the caller; an API key is no user.

* `Unlogged` is what the routes do before they log, and `Logs` is how they end.
* `Named` stores give users and API keys the names that the repositories draw; every request keeps
  that.
* `audit_trail`: the log grows by one entry for each answered write, in their order, and each names the
  user who made it.
* `unlogged_writes`: the holder of an API key is never answered, and what they have written is stored
  all the same, without an entry.
-/

namespace ScamOn.Api

variable {τ : Type} {cfg : Deployment τ}

/-- The action under which the writes are logged. -/
def Request.action : Request τ → Option String
  | .runInvestigation _ _ _ _ => some "investigation_completed"
  | .createUser _ _ _ _ => some "user_created"
  | .updateSystemConfig _ _ => some "config_updated"
  | _ => none

/-- The request is a write, and was answered. -/
def answeredWrite (c : Call τ) (answer : Except ApiError (Reply τ)) : Bool :=
  c.request.action.isSome && answer.isOk

/-- The writes of a run that were answered, and the servers that they met. -/
def answeredWrites (cfg : Deployment τ) : Server → List (Call τ) → List (Server × Call τ)
  | _, [] => []
  | s, c :: calls =>
    let rest := answeredWrites cfg (step cfg s c).1 calls
    if answeredWrite c (step cfg s c).2 then (s, c) :: rest else rest

/-- The entry says who the caller is, what they did and when. -/
def Stated (cfg : Deployment τ) (s : Server) (c : Call τ) (ctx : AuthContext) (row : AuditLog) :
    Prop :=
  (∃ auth, c.request.credentials = some auth ∧ getAuthContext cfg s c.now auth = .ok ctx) ∧
    row.orgId = some ctx.orgId ∧ row.userId = some ctx.identityId ∧
    c.request.action = some row.action ∧ row.timestamp = c.now

/-! ## What is done before the entry -/

/-- The log and the keys stay, and new users have the identifiers that are drawn for them. -/
structure Unlogged (db db' : Database) : Prop where
  auditLogs : db'.auditLogs = db.auditLogs
  apiKeys : db'.apiKeys = db.apiKeys
  users : ∀ u' ∈ db'.users.rows,
    (∃ u ∈ db.users.rows, u'.id = u.id) ∨ ∃ text, u'.id = "user_" ++ text

namespace Unlogged

variable {db db' db'' : Database}

theorem refl (db : Database) : Unlogged db db :=
  ⟨rfl, rfl, fun u hu => .inl ⟨u, hu, rfl⟩⟩

theorem trans (h : Unlogged db db') (h' : Unlogged db' db'') : Unlogged db db'' := by
  refine ⟨h'.auditLogs.trans h.auditLogs, h'.apiKeys.trans h.apiKeys, fun u'' hu'' => ?_⟩
  rcases h'.users u'' hu'' with ⟨u', hu', hid⟩ | hnew
  · rw [hid]
    exact h.users u' hu'
  · exact .inr hnew

theorem of_users_eq (hlogs : db'.auditLogs = db.auditLogs) (hkeys : db'.apiKeys = db.apiKeys)
    (husers : db'.users = db.users) : Unlogged db db' := by
  refine ⟨hlogs, hkeys, fun u hu => .inl ⟨u, ?_, rfl⟩⟩
  rwa [husers] at hu

theorem createOrganization {row : Organization} (h : db.createOrganization row = .ok db') :
    Unlogged db db' := by
  obtain ⟨-, husers, hkeys, hlogs, -⟩ := Database.createOrganization_eq_ok h
  exact of_users_eq hlogs hkeys husers

theorem createUser {row : User} (h : db.createUser row = .ok db')
    (hid : ∃ text, row.id = "user_" ++ text) : Unlogged db db' := by
  obtain ⟨husers, -, hkeys, hlogs, -⟩ := Database.createUser_eq_ok h
  refine ⟨hlogs, hkeys, fun u hu => ?_⟩
  rw [husers] at hu
  rcases List.mem_append.1 hu with hold | hnew
  · exact .inl ⟨u, hold, rfl⟩
  · rw [List.mem_singleton.1 hnew]
    exact .inr hid

theorem saveInvestigation {row : Investigation} (h : db.saveInvestigation row = .ok db') :
    Unlogged db db' := by
  obtain ⟨-, -, husers, hkeys, hlogs⟩ := Database.saveInvestigation_eq_ok h
  exact of_users_eq hlogs hkeys husers

theorem saveMetric {row : PlannerMetric} (h : db.saveMetric row = .ok db') : Unlogged db db' := by
  obtain ⟨-, husers, hkeys, hlogs, -⟩ := Database.saveMetric_eq_ok h
  exact of_users_eq hlogs hkeys husers

theorem updateLogin (db : Database) (userId : String) (failed : ℤ) (lockout : Option ℚ) :
    Unlogged db (db.updateLogin userId failed lockout) := by
  refine ⟨rfl, rfl, fun u' hu' => ?_⟩
  obtain ⟨u, hu, rfl⟩ := List.mem_map.1 hu'
  exact .inl ⟨u, hu, Database.withLogin_of_field (fun _ _ _ => rfl) ..⟩

end Unlogged

/-- How a request ends: it has logged nothing and is no write that was answered, or it has logged one
entry last and is one. -/
def Logs (cfg : Deployment τ) (s : Server) (c : Call τ)
    (result : Server × Except ApiError (Reply τ)) : Prop :=
  ∃ db, Unlogged s.db db ∧
    ((result.1.db = db ∧ answeredWrite c result.2 = false) ∨
      ∃ ctx row, Stated cfg s c ctx row ∧ db.log row = .ok result.1.db ∧
        answeredWrite c result.2 = true)

namespace Logs

variable {s s' : Server} {c : Call τ}

theorem of_error (h : Unlogged s.db s'.db) (e : ApiError) : Logs cfg s c (s', .error e) :=
  ⟨s'.db, h, .inl ⟨rfl, Bool.and_false _⟩⟩

theorem of_no_action (h : Unlogged s.db s'.db) (haction : c.request.action = none)
    (answer : Except ApiError (Reply τ)) : Logs cfg s c (s', answer) := by
  refine ⟨s'.db, h, .inl ⟨rfl, ?_⟩⟩
  rw [answeredWrite, haction]
  rfl

theorem of_logged (ctx : AuthContext) {row : AuditLog} (h : Unlogged s.db s'.db)
    (hrow : Stated cfg s c ctx row) (reply : Reply τ) : Logs cfg s c (logged s' row reply) := by
  rcases logged_cases s' row reply with ⟨e, heq⟩ | ⟨db, hlog, heq⟩
  · rw [heq]
    exact of_error h _
  · rw [heq]
    refine ⟨s'.db, h, .inr ⟨ctx, row, hrow, hlog, ?_⟩⟩
    rw [answeredWrite, hrow.2.2.2.1]
    rfl

end Logs

section Routes

variable {s : Server} {c : Call τ}

/-- The entry that the routes make. -/
theorem stated_of_permitted {auth : Credentials τ} {permission action : String} {ctx : AuthContext}
    (hctx : requirePermission cfg s c.now auth permission = .ok ctx)
    (hauth : c.request.credentials = some auth) (haction : c.request.action = some action)
    (id : String) (details : Option (JsonValue ℚ)) :
    Stated cfg s c ctx ⟨id, some ctx.orgId, some ctx.identityId, action, details, c.now⟩ :=
  ⟨⟨auth, hauth, getAuthContext_of_requirePermission hctx⟩, rfl, rfl, haction, rfl⟩

theorem demoOrganization_unlogged {db db' : Database} {now : ℚ} {org : Organization}
    (h : demoOrganization db now = .ok (db', org)) : Unlogged db db' := by
  rcases demoOrganization_cases h with rfl | hcreate
  · exact .refl _
  · exact .createOrganization hcreate

theorem demoUser_unlogged {db db' : Database} {org : Organization} {user : User}
    (h : demoUser cfg db c org = .ok (db', user)) : Unlogged db db' := by
  obtain ⟨-, ⟨rfl, -⟩ | ⟨hcreate, hid, -⟩⟩ := demoUser_cases h
  · exact .refl _
  · exact .createUser hcreate ⟨"analyst_demo", hid⟩

theorem demoToken_unlogged (cfg : Deployment τ) (s : Server) (c : Call τ) :
    Unlogged s.db (demoToken cfg s c).1.db := by
  unfold demoToken
  split
  · exact .refl _
  · rename_i horg
    dsimp only
    split
    · exact demoOrganization_unlogged horg
    · rename_i huser
      have hboth := (demoOrganization_unlogged horg).trans (demoUser_unlogged huser)
      split
      · exact hboth
      · split
        · exact hboth
        · exact hboth

theorem runInvestigation_logs {auth : Credentials τ} {subject sender : String}
    {outcome : PipelineOutcome}
    (hrequest : c.request = .runInvestigation auth subject sender outcome) :
    Logs cfg s c (runInvestigation cfg s c auth subject sender outcome) := by
  unfold runInvestigation
  cases hctx : requirePermission cfg s c.now auth "investigation:create" with
  | error e => exact .of_error (.refl _) _
  | ok ctx =>
    cases outcome with
    | failed message errorCode => exact .of_error (.refl _) _
    | finished emailId verdict confidence riskLevel iterations durationMs =>
      dsimp only
      split
      · exact .of_error (.refl _) _
      · rename_i hsave
        split
        · exact .of_error (.saveInvestigation hsave) _
        · rename_i hmetric
          exact .of_logged ctx ((Unlogged.saveInvestigation hsave).trans (.saveMetric hmetric))
            (stated_of_permitted hctx (congrArg Request.credentials hrequest)
              (congrArg Request.action hrequest) _ _) _

theorem createUser_logs {auth : Credentials τ} {username password : String} {roles : List String}
    (hrequest : c.request = .createUser auth username password roles) :
    Logs cfg s c (createUser cfg s c auth username password roles) := by
  unfold createUser
  cases hctx : requirePermission cfg s c.now auth "user:write" with
  | error e => exact .of_error (.refl _) _
  | ok ctx =>
    dsimp only
    split
    · exact .of_error (.refl _) _
    · split
      · exact .of_error (.refl _) _
      · rename_i hcreate
        exact .of_logged ctx (.createUser hcreate ⟨c.userId, rfl⟩)
          (stated_of_permitted hctx (congrArg Request.credentials hrequest)
            (congrArg Request.action hrequest) _ _) _

theorem updateSystemConfig_logs {auth : Credentials τ} {updates : List (String × JsonValue ℚ)}
    (hrequest : c.request = .updateSystemConfig auth updates) :
    Logs cfg s c (updateSystemConfig cfg s c auth updates) := by
  unfold updateSystemConfig
  cases hctx : requirePermission cfg s c.now auth "config:write" with
  | error e => exact .of_error (.refl _) _
  | ok ctx =>
    have hsame : Unlogged s.db
        (⟨s.db, setOverrides s.overrides updates⟩ : Server).db := .refl _
    exact .of_logged ctx hsame
      (stated_of_permitted hctx (congrArg Request.credentials hrequest)
        (congrArg Request.action hrequest) _ _) _

/-- **How every request ends.** -/
theorem step_logs (cfg : Deployment τ) (s : Server) (c : Call τ) : Logs cfg s c (step cfg s c) := by
  unfold step
  cases hrequest : c.request with
  | login username password =>
    dsimp only
    rcases login_cases cfg s c username password with
      ⟨e, -, heq⟩ | ⟨user, -, -, -, ⟨-, heq⟩ | ⟨-, heq⟩⟩
    · rw [heq]
      exact .of_error (.refl _) _
    · rw [heq]
      exact .of_error (.updateLogin ..) _
    · rw [heq]
      exact .of_error (.updateLogin ..) _
  | demoToken =>
    exact .of_no_action (demoToken_unlogged cfg s c) (congrArg Request.action hrequest) _
  | runInvestigation auth subject sender outcome => exact runInvestigation_logs hrequest
  | getHistory auth => exact .of_no_action (.refl _) (congrArg Request.action hrequest) _
  | getInvestigation auth id => exact .of_no_action (.refl _) (congrArg Request.action hrequest) _
  | createUser auth username password roles => exact createUser_logs hrequest
  | updateSystemConfig auth updates => exact updateSystemConfig_logs hrequest

end Routes

/-! ## Names -/

/-- The identifiers of users and of keys are such as the repositories draw. -/
structure Named (db : Database) : Prop where
  users : ∀ u ∈ db.users.rows, ∃ text, u.id = "user_" ++ text
  apiKeys : ∀ k ∈ db.apiKeys.rows, ∃ text, k.id = "key_" ++ text

theorem Named.of_unlogged {db db' : Database} (h : Named db) (h' : Unlogged db db') : Named db' := by
  constructor
  · intro u' hu'
    rcases h'.users u' hu' with ⟨u, hu, hid⟩ | hnew
    · rw [hid]
      exact h.users u hu
    · exact hnew
  · rw [h'.apiKeys]
    exact h.apiKeys

theorem Named.of_log {db db' : Database} (h : Named db) {row : AuditLog} (hlog : db.log row = .ok db') :
    Named db' := by
  obtain ⟨-, -, -, husers, hkeys, -⟩ := Database.log_eq_ok hlog
  constructor
  · rw [husers]
    exact h.users
  · rw [hkeys]
    exact h.apiKeys

theorem named_step (cfg : Deployment τ) {s : Server} (h : Named s.db) (c : Call τ) :
    Named (step cfg s c).1.db := by
  obtain ⟨db, hunlogged, ⟨hsame, -⟩ | ⟨ctx, row, -, hlog, -⟩⟩ := step_logs cfg s c
  · rw [hsame]
    exact h.of_unlogged hunlogged
  · exact (h.of_unlogged hunlogged).of_log hlog

theorem named_acme : Named acmeServer.db := by
  constructor
  · intro u hu
    exact absurd hu List.not_mem_nil
  · intro k hk
    obtain rfl := List.mem_singleton.1 hk
    exact ⟨"acme", rfl⟩

/-- No user is called like a key. -/
theorem user_ne_key (text text' : String) : "user_" ++ text ≠ "key_" ++ text' := by
  intro h
  have hlist := congrArg String.toList h
  rw [String.toList_append, String.toList_append] at hlist
  simp at hlist

/-- The caller with a key has its identifier. -/
theorem apiKey_of_getAuthContext {s : Server} {now : ℚ} {auth : Credentials τ} {ctx : AuthContext}
    (h : getAuthContext cfg s now auth = .ok ctx) (hmethod : ctx.authMethod = .apiKey) :
    ∃ key ∈ s.db.apiKeys.rows, ctx = ⟨key.id, key.orgId, [key.role], .apiKey⟩ := by
  unfold getAuthContext at h
  split at h
  · split at h
    · cases h
    · rename_i key hget
      cases h
      exact ⟨key, List.mem_of_find?_eq_some hget, rfl⟩
  · split at h
    · cases h
    · split at h
      · cases h
      · cases h
        cases hmethod

/-- An entry that is stored was made by a user. -/
theorem authMethod_of_log {s : Server} {db db' : Database} {c : Call τ} {ctx : AuthContext}
    {row : AuditLog} (hnamed : Named s.db) (hunlogged : Unlogged s.db db)
    (hrow : Stated cfg s c ctx row) (hlog : db.log row = .ok db') : ctx.authMethod = .jwt := by
  obtain ⟨⟨auth, -, hctx⟩, -, huser, -⟩ := hrow
  cases hmethod : ctx.authMethod with
  | jwt => rfl
  | apiKey =>
    obtain ⟨key, hkey, rfl⟩ := apiKey_of_getAuthContext hctx hmethod
    obtain ⟨⟨-, hrefers⟩, -⟩ := Database.log_eq_ok hlog
    rw [huser] at hrefers
    obtain ⟨u, hu, hid⟩ := List.mem_map.1 (hrefers (List.mem_singleton_self _))
    obtain ⟨text, htext⟩ := (hnamed.of_unlogged hunlogged).users u hu
    obtain ⟨text', htext'⟩ := hnamed.apiKeys key hkey
    exact absurd (htext.symm.trans (hid.trans htext')) (user_ne_key text text')

/-! ## Runs -/

/-- The entry documents the write: it says who the caller is, what they did and when, and the caller is
a user. -/
def Documents (cfg : Deployment τ) (write : Server × Call τ) (row : AuditLog) : Prop :=
  ∃ ctx, Stated cfg write.1 write.2 ctx row ∧ ctx.authMethod = .jwt

/-- **The log is exact.**  In every run, from any store whose users and keys have such identifiers as
the repositories draw, the log grows by one entry for each write that is answered, in their order:
nothing else is entered, nothing is removed, and no write of the holder of an API key is among them. -/
theorem audit_trail (cfg : Deployment τ) {s : Server} (hnamed : Named s.db) (calls : List (Call τ)) :
    ∃ rows, (Machine.run (step cfg) s calls).db.auditLogs.rows = s.db.auditLogs.rows ++ rows ∧
      List.Forall₂ (Documents cfg) (answeredWrites cfg s calls) rows := by
  induction calls generalizing s with
  | nil => exact ⟨[], (List.append_nil _).symm, .nil⟩
  | cons c calls ih =>
    obtain ⟨rows, hrun, hrows⟩ := ih (named_step cfg hnamed c)
    rw [Machine.run_cons, hrun, answeredWrites]
    obtain ⟨db, hunlogged, ⟨hsame, hanswer⟩ | ⟨ctx, row, hrow, hlog, hanswer⟩⟩ := step_logs cfg s c
    · rw [hanswer, if_neg Bool.false_ne_true, hsame, hunlogged.auditLogs]
      exact ⟨rows, rfl, hrows⟩
    · obtain ⟨-, hstored, -⟩ := Database.log_eq_ok hlog
      rw [hanswer, if_pos rfl, hstored, hunlogged.auditLogs, List.append_assoc]
      have hmethod := authMethod_of_log hnamed hunlogged hrow hlog
      exact ⟨row :: rows, rfl, .cons ⟨ctx, hrow, hmethod⟩ hrows⟩

/-- The demo's user sets a feature, and the holder of a key has a mail investigated. -/
def acmeWrites : List (Call (String × Claims)) :=
  [requestAt 0 .demoToken,
    requestAt 60 (.updateSystemConfig ⟨none, some ("prod-secret", demoClaims)⟩ [("mfa", .null)]),
    requestAt 90 (.runInvestigation ⟨some "raw-key", none⟩ "Invoice" "a@b.com"
      (.finished "<m-2>" "phishing" 1 "high" 2 30))]

/-- They leave one entry. -/
theorem audit_trail_acme :
    ∃ rows, (Machine.run (step plainDeployment) acmeServer acmeWrites).db.auditLogs.rows =
        acmeServer.db.auditLogs.rows ++ rows ∧
      List.Forall₂ (Documents plainDeployment) (answeredWrites plainDeployment acmeServer
        acmeWrites) rows :=
  audit_trail plainDeployment named_acme _

/-! ## Writes without an entry -/

/-- What the request is for is stored, if the caller may ask for it and the identifiers are free. -/
def CarriedOut (cfg : Deployment τ) (s s' : Server) (c : Call τ) (ctx : AuthContext) : Prop :=
  match c.request with
  | .runInvestigation _ subject sender
      (.finished emailId verdict confidence riskLevel _ durationMs) =>
    verifyRbacPermission cfg ctx.roles "investigation:create" = true →
      (∀ i ∈ s.db.investigations.rows, i.id ≠ "inv_" ++ c.investigationId) →
        ⟨"inv_" ++ c.investigationId, ctx.orgId, emailId, subject, sender, verdict, confidence,
          riskLevel, durationMs, c.now⟩ ∈ s'.db.investigations.rows
  | .createUser _ username password roles =>
    verifyRbacPermission cfg ctx.roles "user:write" = true →
      (∀ u ∈ s.db.users.rows, u.id ≠ "user_" ++ c.userId ∧ u.username ≠ username) →
        ∀ hashed, hashPassword cfg c.salt password = some hashed →
          ⟨"user_" ++ c.userId, ctx.orgId, username, hashed, roles, true, 0, none, c.now⟩ ∈
            s'.db.users.rows
  | .updateSystemConfig _ updates =>
    verifyRbacPermission cfg ctx.roles "config:write" = true →
      s'.overrides = setOverrides s.overrides updates
  | _ => True

/-- A write of the holder of an API key: it is not answered and not logged, and it is carried out. -/
def Unaudited (cfg : Deployment τ) (s : Server) (c : Call τ) : Prop :=
  ∀ auth ctx, c.request.credentials = some auth → getAuthContext cfg s c.now auth = .ok ctx →
    ctx.authMethod = .apiKey → c.request.action ≠ none →
      (∀ reply, (step cfg s c).2 ≠ .ok reply) ∧
        (step cfg s c).1.db.auditLogs = s.db.auditLogs ∧ CarriedOut cfg s (step cfg s c).1 c ctx

theorem requirePermission_of_verify {s : Server} {now : ℚ} {auth : Credentials τ}
    {ctx : AuthContext} {permission : String} (hctx : getAuthContext cfg s now auth = .ok ctx)
    (h : verifyRbacPermission cfg ctx.roles permission = true) :
    requirePermission cfg s now auth permission = .ok ctx := by
  unfold requirePermission
  rw [hctx]
  exact if_pos h

/-- The organization of a caller with a key is there. -/
theorem org_of_apiKey {s : Server} {now : ℚ} {auth : Credentials τ} {ctx : AuthContext}
    (h : getAuthContext cfg s now auth = .ok ctx) (hmethod : ctx.authMethod = .apiKey) :
    ctx.orgId ∈ s.db.organizations.rows.map Organization.id := by
  obtain ⟨key, hkey, rfl⟩ := apiKey_of_getAuthContext h hmethod
  exact s.db.keyOrg (List.mem_map_of_mem hkey)

theorem carriedOut_of_apiKey {s : Server} {c : Call τ} {auth : Credentials τ} {ctx : AuthContext}
    (hauth : c.request.credentials = some auth)
    (hctx : getAuthContext cfg s c.now auth = .ok ctx) (hmethod : ctx.authMethod = .apiKey) :
    CarriedOut cfg s (step cfg s c).1 c ctx := by
  have horg := org_of_apiKey hctx hmethod
  unfold CarriedOut step
  cases hrequest : c.request with
  | login username password => trivial
  | demoToken => trivial
  | getHistory auth' => trivial
  | getInvestigation auth' id => trivial
  | runInvestigation auth' subject sender outcome =>
    rw [hrequest] at hauth
    cases hauth
    cases outcome with
    | failed message errorCode => trivial
    | finished emailId verdict confidence riskLevel iterations durationMs =>
      intro hallowed hfree
      have hsave : ∃ db, s.db.saveInvestigation ⟨"inv_" ++ c.investigationId, ctx.orgId, emailId,
          subject, sender, verdict, confidence, riskLevel, durationMs, c.now⟩ = .ok db :=
        Database.saveInvestigation_of_free hfree horg
      obtain ⟨db, hsave⟩ := hsave
      have hrows := (Database.saveInvestigation_eq_ok hsave).1
      dsimp only
      unfold runInvestigation
      rw [requirePermission_of_verify hctx hallowed]
      dsimp only
      rw [hsave]
      dsimp only
      split
      · rw [hrows]
        exact List.mem_append_right _ (List.mem_singleton_self _)
      · rename_i hmetric
        apply (logged_kept _ _ _).1.investigations
        apply (Kept.saveMetric hmetric).investigations
        rw [hrows]
        exact List.mem_append_right _ (List.mem_singleton_self _)
  | createUser auth' username password roles =>
    rw [hrequest] at hauth
    cases hauth
    intro hallowed hfree hashed hhash
    have hcreate : ∃ db, s.db.createUser ⟨"user_" ++ c.userId, ctx.orgId, username, hashed, roles,
        true, 0, none, c.now⟩ = .ok db := Database.createUser_of_free _ hfree horg
    obtain ⟨db, hcreate⟩ := hcreate
    dsimp only
    unfold createUser
    rw [requirePermission_of_verify hctx hallowed]
    dsimp only
    rw [hhash]
    dsimp only
    rw [hcreate]
    apply (logged_kept _ _ _).1.users
    rw [(Database.createUser_eq_ok hcreate).1]
    exact List.mem_append_right _ (List.mem_singleton_self _)
  | updateSystemConfig auth' updates =>
    rw [hrequest] at hauth
    cases hauth
    intro hallowed
    dsimp only
    unfold updateSystemConfig
    rw [requirePermission_of_verify hctx hallowed]
    exact (logged_kept _ _ _).2

/-- **Writes without an entry.**  In every run, from any store whose users and keys have such identifiers
as the repositories draw, no write of the holder of an API key is answered or logged, and each that
they may make is carried out all the same. -/
theorem unlogged_writes (cfg : Deployment τ) {s : Server} (hnamed : Named s.db)
    (calls : List (Call τ)) : Machine.Always (step cfg) (Unaudited cfg) s calls := by
  refine Machine.always_of_inv (I := fun s => Named s.db) (C := fun _ _ => True)
    (fun s c h _ => named_step cfg h c) (fun s c h _ => ?_) hnamed
    (Machine.always_of_forall (fun _ _ => trivial) s calls)
  intro auth ctx hauth hctx hmethod haction
  obtain ⟨db, hunlogged, ⟨hsame, hanswer⟩ | ⟨ctx', row, hrow, hlog, -⟩⟩ := step_logs cfg s c
  · refine ⟨fun reply hreply => ?_, hsame ▸ hunlogged.auditLogs,
      carriedOut_of_apiKey hauth hctx hmethod⟩
    -- a write that is answered is logged
    obtain ⟨action, hsome⟩ := Option.ne_none_iff_exists'.1 haction
    rw [answeredWrite, hreply, hsome] at hanswer
    cases hanswer
  · -- the entry would name a user
    have hjwt := authMethod_of_log h hunlogged hrow hlog
    obtain ⟨⟨auth', hauth', hctx'⟩, -⟩ := hrow
    obtain rfl := Option.some.inj (hauth.symm.trans hauth')
    obtain rfl := Except.ok.inj (hctx.symm.trans hctx')
    rw [hmethod] at hjwt
    cases hjwt

/-- The holder of the key has a mail investigated. -/
theorem unlogged_writes_acme : Machine.Always (step plainDeployment) (Unaudited plainDeployment)
    acmeServer [requestAt 90 (.runInvestigation ⟨some "raw-key", none⟩ "Invoice" "a@b.com"
      (.finished "<m-2>" "phishing" 1 "high" 2 30))] :=
  unlogged_writes plainDeployment named_acme _

end ScamOn.Api
