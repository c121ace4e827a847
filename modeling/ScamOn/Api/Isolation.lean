import ScamOn.Api.Server
import ScamOn.Lib.Hex

/-!
# Tenant isolation of the REST API

Who the callers of the API are, and what they can read.

* `KeptUsers` is what a request leaves alone: the API keys, and of the users everything but their
  login counters.  `step_kept` says that every request does.
* `Known` callers are the holder of an active API key and the one user of the demo.  A login never
  answers with a token, whatever the password, so the demo is where all tokens come from
  (`tokens_step`).
* `tenant_isolation`: in every run in which the presented tokens were issued in it and nobody sets the
  secret, all callers are known ones, and what they read belongs to their organization.
* `demoToken_answers` says when the demo answers.  `takeover`: with that answer and a token that they
  have signed themselves, anyone reads any investigation of any organization.
-/

namespace ScamOn.Api

variable {τ : Type} {cfg : Deployment τ}

/-! ## What a request leaves alone -/

/-- The columns of a user that no request writes. -/
structure SameUser (u u' : User) : Prop where
  id : u'.id = u.id
  orgId : u'.orgId = u.orgId
  username : u'.username = u.username
  roles : u'.roles = u.roles

theorem SameUser.refl (u : User) : SameUser u u := ⟨rfl, rfl, rfl, rfl⟩

/-- API keys, users and investigations stay. -/
structure Kept (db db' : Database) : Prop where
  apiKeys : db'.apiKeys = db.apiKeys
  users : db.users.rows ⊆ db'.users.rows
  investigations : db.investigations.rows ⊆ db'.investigations.rows

/-- The same, up to the login counters of the users. -/
structure KeptUsers (db db' : Database) : Prop where
  apiKeys : db'.apiKeys = db.apiKeys
  users : ∀ u ∈ db.users.rows, ∃ u' ∈ db'.users.rows, SameUser u u'
  investigations : db.investigations.rows ⊆ db'.investigations.rows

namespace Kept

theorem refl (db : Database) : Kept db db :=
  ⟨rfl, List.Subset.refl _, List.Subset.refl _⟩

theorem trans {db db' db'' : Database} (h : Kept db db') (h' : Kept db' db'') : Kept db db'' :=
  ⟨h'.apiKeys.trans h.apiKeys, List.Subset.trans h.users h'.users,
    List.Subset.trans h.investigations h'.investigations⟩

theorem keptUsers {db db' : Database} (h : Kept db db') : KeptUsers db db' :=
  ⟨h.apiKeys, fun u hu => ⟨u, h.users hu, .refl u⟩, h.investigations⟩

theorem of_eq {db db' : Database} (hkeys : db'.apiKeys = db.apiKeys)
    (husers : db'.users = db.users) (hrows : db.investigations.rows ⊆ db'.investigations.rows) :
    Kept db db' := by
  refine ⟨hkeys, ?_, hrows⟩
  rw [husers]
  exact List.Subset.refl _

theorem createOrganization {db db' : Database} {row : Organization}
    (h : db.createOrganization row = .ok db') : Kept db db' := by
  obtain ⟨-, husers, hkeys, -, hrows⟩ := Database.createOrganization_eq_ok h
  exact of_eq hkeys husers (hrows ▸ List.Subset.refl _)

theorem createUser {db db' : Database} {row : User} (h : db.createUser row = .ok db') :
    Kept db db' := by
  obtain ⟨husers, -, hkeys, -, hrows⟩ := Database.createUser_eq_ok h
  refine ⟨hkeys, ?_, hrows ▸ List.Subset.refl _⟩
  rw [husers]
  exact List.subset_append_left _ _

theorem log {db db' : Database} {row : AuditLog} (h : db.log row = .ok db') : Kept db db' := by
  obtain ⟨-, -, -, husers, hkeys, hrows⟩ := Database.log_eq_ok h
  exact of_eq hkeys husers (hrows ▸ List.Subset.refl _)

theorem saveInvestigation {db db' : Database} {row : Investigation}
    (h : db.saveInvestigation row = .ok db') : Kept db db' := by
  obtain ⟨hrows, -, husers, hkeys, -⟩ := Database.saveInvestigation_eq_ok h
  refine of_eq hkeys husers ?_
  rw [hrows]
  exact List.subset_append_left _ _

theorem saveMetric {db db' : Database} {row : PlannerMetric} (h : db.saveMetric row = .ok db') :
    Kept db db' := by
  obtain ⟨-, husers, hkeys, -, hrows⟩ := Database.saveMetric_eq_ok h
  exact of_eq hkeys husers (hrows ▸ List.Subset.refl _)

end Kept

theorem keptUsers_updateLogin (db : Database) (userId : String) (failed : ℤ) (lockout : Option ℚ) :
    KeptUsers db (db.updateLogin userId failed lockout) := by
  refine ⟨rfl, fun u hu => ⟨_, List.mem_map_of_mem hu, ?_, ?_, ?_, ?_⟩, List.Subset.refl _⟩
  · exact Database.withLogin_of_field (fun _ _ _ => rfl) ..
  · exact Database.withLogin_of_field (fun _ _ _ => rfl) ..
  · exact Database.withLogin_of_field (fun _ _ _ => rfl) ..
  · exact Database.withLogin_of_field (fun _ _ _ => rfl) ..

/-- How a route ends that writes to the audit log last. -/
theorem logged_cases (s : Server) (row : AuditLog) (reply : Reply τ) :
    (∃ e, logged s row reply = (s, .error (.integrity e))) ∨
      ∃ db, s.db.log row = .ok db ∧ logged s row reply = ({ s with db := db }, .ok reply) := by
  unfold logged
  cases s.db.log row with
  | error e => exact .inl ⟨e, rfl⟩
  | ok db => exact .inr ⟨db, rfl, rfl⟩

theorem logged_kept (s : Server) (row : AuditLog) (reply : Reply τ) :
    Kept s.db (logged s row reply).1.db ∧ (logged s row reply).1.overrides = s.overrides := by
  rcases logged_cases s row reply with ⟨e, heq⟩ | ⟨db, hlog, heq⟩
  · rw [heq]
    exact ⟨.refl _, rfl⟩
  · rw [heq]
    exact ⟨.log hlog, rfl⟩

theorem logged_reply {s : Server} {row : AuditLog} {reply reply' : Reply τ}
    (h : (logged s row reply).2 = .ok reply') : reply' = reply := by
  rcases logged_cases s row reply with ⟨e, heq⟩ | ⟨db, -, heq⟩
  · rw [heq] at h
    cases h
  · rw [heq] at h
    cases h
    rfl

section Routes

variable {s : Server} {c : Call τ}

theorem login_kept (cfg : Deployment τ) (username password : String) :
    KeptUsers s.db (login cfg s c username password).1.db ∧
      (login cfg s c username password).1.overrides = s.overrides := by
  rcases login_cases cfg s c username password with
    ⟨e, -, heq⟩ | ⟨user, -, -, -, ⟨-, heq⟩ | ⟨-, heq⟩⟩
  · rw [heq]
    exact ⟨(Kept.refl _).keptUsers, rfl⟩
  · rw [heq]
    exact ⟨keptUsers_updateLogin .., rfl⟩
  · rw [heq]
    exact ⟨keptUsers_updateLogin .., rfl⟩

/-- The organization of the demo was there, or it is created. -/
theorem demoOrganization_cases {db db' : Database} {now : ℚ} {org : Organization}
    (h : demoOrganization db now = .ok (db', org)) :
    db' = db ∨ db.createOrganization org = .ok db' := by
  unfold demoOrganization at h
  cases hget : db.getOrganization demoOrgId with
  | some org =>
    rw [hget] at h
    cases h
    exact .inl rfl
  | none =>
    rw [hget] at h
    dsimp only at h
    cases hcreate : db.createOrganization ⟨demoOrgId, "ScamShield Demo Tenant", now⟩ with
    | error e =>
      rw [hcreate] at h
      cases h
    | ok db'' =>
      rw [hcreate] at h
      cases h
      exact .inr hcreate

theorem demoOrganization_spec {db db' : Database} {now : ℚ} {org : Organization}
    (h : demoOrganization db now = .ok (db', org)) : Kept db db' ∧ db'.users = db.users := by
  rcases demoOrganization_cases h with rfl | hcreate
  · exact ⟨.refl _, rfl⟩
  · exact ⟨.createOrganization hcreate, (Database.createOrganization_eq_ok hcreate).2.1⟩

/-- The user of the demo was there, or is created with the roles that the demo gives. -/
theorem demoUser_cases {db db' : Database} {org : Organization} {user : User}
    (h : demoUser cfg db c org = .ok (db', user)) :
    user.username = demoUsername ∧ ((db' = db ∧ user ∈ db.users.rows) ∨
      (db.createUser user = .ok db' ∧ user.id = "user_analyst_demo" ∧
        user.roles = ["admin", "analyst"])) := by
  unfold demoUser at h
  cases hget : db.getByUsername demoUsername with
  | some found =>
    rw [hget] at h
    cases h
    obtain ⟨hmem, hname⟩ := (UniqueTable.find?_eq_some_iff (by simp)).1 hget
    exact ⟨hname, .inl ⟨rfl, hmem⟩⟩
  | none =>
    rw [hget] at h
    dsimp only at h
    cases hhash : hashPassword cfg c.salt "demopassword123" with
    | none =>
      rw [hhash] at h
      cases h
    | some hashed =>
      rw [hhash] at h
      dsimp only at h
      split at h
      · cases h
      · rename_i hcreate
        cases h
        exact ⟨rfl, .inr ⟨hcreate, rfl, rfl⟩⟩

/-- The user of the demo is there afterwards, as they were or with the roles that the demo gives. -/
theorem demoUser_spec {db db' : Database} {org : Organization} {user : User}
    (h : demoUser cfg db c org = .ok (db', user)) :
    Kept db db' ∧ user ∈ db'.users.rows ∧ user.username = demoUsername ∧
      (user ∈ db.users.rows ∨ user.roles = ["admin", "analyst"]) := by
  obtain ⟨hname, ⟨rfl, hmem⟩ | ⟨hcreate, -, hroles⟩⟩ := demoUser_cases h
  · exact ⟨.refl _, hmem, hname, .inl hmem⟩
  · refine ⟨.createUser hcreate, ?_, hname, .inr hroles⟩
    rw [(Database.createUser_eq_ok hcreate).1]
    exact List.mem_append_right _ (List.mem_singleton_self _)

/-- The token was signed at `now` for the user, with the secret that the server has. -/
def SignedFor (cfg : Deployment τ) (s : Server) (now : ℚ) (user : User) (token : τ) : Prop :=
  ∃ key, keyText (secretKey cfg s.overrides) = some key ∧
    cfg.jwt.encode key (issuedClaims cfg now user) = some token

/-- The token was signed for the user of the demo. -/
def Genuine (cfg : Deployment τ) (s : Server) (token : τ) : Prop :=
  ∃ user ∈ s.db.users.rows, user.username = demoUsername ∧ ∃ now, SignedFor cfg s now user token

/-- **What the demo does**: the tokens that it answers with are signed for its user. -/
theorem demoToken_spec (cfg : Deployment τ) :
    Kept s.db (demoToken cfg s c).1.db ∧ (demoToken cfg s c).1.overrides = s.overrides ∧
      ∀ reply, (demoToken cfg s c).2 = .ok reply → ∃ token user, reply = .tokens token token ∧
        user ∈ (demoToken cfg s c).1.db.users.rows ∧ user.username = demoUsername ∧
        (user ∈ s.db.users.rows ∨ user.roles = ["admin", "analyst"]) ∧
        SignedFor cfg (demoToken cfg s c).1 c.now user token := by
  unfold demoToken
  cases horg : demoOrganization s.db c.now with
  | error e => exact ⟨.refl _, rfl, fun reply h => by cases h⟩
  | ok found =>
    obtain ⟨db, org⟩ := found
    obtain ⟨hkept, husers⟩ := demoOrganization_spec horg
    dsimp only
    cases huser : demoUser cfg db c org with
    | error e => exact ⟨hkept, rfl, fun reply h => by cases h⟩
    | ok found =>
      obtain ⟨db', user⟩ := found
      obtain ⟨hkept', hmem, hname, hroles⟩ := demoUser_spec huser
      rw [husers] at hroles
      dsimp only
      rcases createJwtToken_none cfg s.overrides c.now user with
        herror | ⟨key, token, hkey, htoken, hok⟩
      · rw [herror]
        exact ⟨hkept.trans hkept', rfl, fun reply h => by cases h⟩
      · rw [hok]
        refine ⟨hkept.trans hkept', rfl, fun reply h => ?_⟩
        cases h
        exact ⟨token, user, rfl, hmem, hname, hroles, key, hkey, htoken⟩

theorem runInvestigation_kept (cfg : Deployment τ) (auth : Credentials τ)
    (subject sender : String) (outcome : PipelineOutcome) :
    Kept s.db (runInvestigation cfg s c auth subject sender outcome).1.db ∧
      (runInvestigation cfg s c auth subject sender outcome).1.overrides = s.overrides := by
  unfold runInvestigation
  cases requirePermission cfg s c.now auth "investigation:create" with
  | error e => exact ⟨.refl _, rfl⟩
  | ok ctx =>
    cases outcome with
    | failed message errorCode => exact ⟨.refl _, rfl⟩
    | finished emailId verdict confidence riskLevel iterations durationMs =>
      dsimp only
      split
      · exact ⟨.refl _, rfl⟩
      · rename_i db hsave
        split
        · exact ⟨.saveInvestigation hsave, rfl⟩
        · rename_i db' hmetric
          obtain ⟨hlog, hoverrides⟩ := logged_kept (τ := τ) { s with db := db' }
            ⟨"log_" ++ c.logId, some ctx.orgId, some ctx.identityId, "investigation_completed",
              some (.obj [("investigation_id", .str ("inv_" ++ c.investigationId)),
                ("verdict", .str verdict)]), c.now⟩
            (.completed ("inv_" ++ c.investigationId) verdict confidence riskLevel)
          exact ⟨((Kept.saveInvestigation hsave).trans (.saveMetric hmetric)).trans hlog, hoverrides⟩

theorem createUser_kept (cfg : Deployment τ) (auth : Credentials τ) (username password : String)
    (roles : List String) :
    Kept s.db (createUser cfg s c auth username password roles).1.db ∧
      (createUser cfg s c auth username password roles).1.overrides = s.overrides := by
  unfold createUser
  cases requirePermission cfg s c.now auth "user:write" with
  | error e => exact ⟨.refl _, rfl⟩
  | ok ctx =>
    dsimp only
    cases hashPassword cfg c.salt password with
    | none => exact ⟨.refl _, rfl⟩
    | some hashed =>
      dsimp only
      split
      · exact ⟨.refl _, rfl⟩
      · rename_i db hcreate
        obtain ⟨hlog, hoverrides⟩ := logged_kept (τ := τ) { s with db := db } _ _
        exact ⟨(Kept.createUser hcreate).trans hlog, hoverrides⟩

theorem updateSystemConfig_kept (cfg : Deployment τ) (auth : Credentials τ)
    (updates : List (String × JsonValue ℚ)) :
    Kept s.db (updateSystemConfig cfg s c auth updates).1.db ∧
      ((updateSystemConfig cfg s c auth updates).1.overrides = s.overrides ∨
        (updateSystemConfig cfg s c auth updates).1.overrides =
          setOverrides s.overrides updates) := by
  unfold updateSystemConfig
  cases requirePermission cfg s c.now auth "config:write" with
  | error e => exact ⟨.refl _, .inl rfl⟩
  | ok ctx =>
    obtain ⟨hlog, hoverrides⟩ :=
      logged_kept (τ := τ) { s with overrides := setOverrides s.overrides updates } _ _
    exact ⟨hlog, .inr hoverrides⟩

/-! ## Steps -/

/-- The request sets the secret. -/
def SetsSecret (c : Call τ) : Prop :=
  ∃ auth updates, c.request = .updateSystemConfig auth updates ∧ "SECRET_KEY" ∈ updates.map Prod.fst

theorem get?_setOverrides {key : String} {updates : List (String × JsonValue ℚ)}
    (h : key ∉ updates.map Prod.fst) (overrides : Dict String (JsonValue ℚ)) :
    (setOverrides overrides updates).get? key = overrides.get? key := by
  induction updates generalizing overrides with
  | nil => rfl
  | cons u updates ih =>
    rw [List.map_cons, List.mem_cons, not_or] at h
    exact (ih h.2 _).trans (Dict.get?_set_of_ne _ _ h.1)

/-- **What every request but a login leaves alone.** -/
theorem step_kept_of_not_login (cfg : Deployment τ) (s : Server) (c : Call τ)
    (h : ∀ username password, c.request ≠ .login username password) :
    Kept s.db (step cfg s c).1.db ∧ (¬SetsSecret c →
      secretKey cfg (step cfg s c).1.overrides = secretKey cfg s.overrides) := by
  unfold step
  cases hrequest : c.request with
  | login username password => exact absurd hrequest (h username password)
  | demoToken =>
    obtain ⟨hkept, hoverrides, -⟩ := demoToken_spec cfg (s := s) (c := c)
    exact ⟨hkept, fun _ => congrArg _ hoverrides⟩
  | runInvestigation auth subject sender outcome =>
    obtain ⟨hkept, hoverrides⟩ :=
      runInvestigation_kept cfg (s := s) (c := c) auth subject sender outcome
    exact ⟨hkept, fun _ => congrArg _ hoverrides⟩
  | getHistory auth => exact ⟨.refl _, fun _ => rfl⟩
  | getInvestigation auth id => exact ⟨.refl _, fun _ => rfl⟩
  | createUser auth username password roles =>
    obtain ⟨hkept, hoverrides⟩ :=
      createUser_kept cfg (s := s) (c := c) auth username password roles
    exact ⟨hkept, fun _ => congrArg _ hoverrides⟩
  | updateSystemConfig auth updates =>
    obtain ⟨hkept, hoverrides⟩ :=
      updateSystemConfig_kept cfg (s := s) (c := c) auth updates
    refine ⟨hkept, fun hnot => ?_⟩
    rcases hoverrides with hsame | hset
    · exact congrArg _ hsame
    · have hfree : "SECRET_KEY" ∉ updates.map Prod.fst := fun hmem =>
        hnot ⟨auth, updates, hrequest, hmem⟩
      dsimp only
      rw [hset, secretKey, get?_setOverrides hfree, ← secretKey]

/-- **What every request leaves alone.** -/
theorem step_kept (cfg : Deployment τ) (s : Server) (c : Call τ) :
    KeptUsers s.db (step cfg s c).1.db ∧ (¬SetsSecret c →
      secretKey cfg (step cfg s c).1.overrides = secretKey cfg s.overrides) := by
  by_cases hlogin : ∃ username password, c.request = .login username password
  · obtain ⟨username, password, hrequest⟩ := hlogin
    obtain ⟨hkept, hoverrides⟩ := login_kept cfg (s := s) (c := c) username password
    rw [step, hrequest]
    exact ⟨hkept, fun _ => congrArg _ hoverrides⟩
  · obtain ⟨hkept, hsecret⟩ := step_kept_of_not_login cfg s c fun username password h =>
      hlogin ⟨username, password, h⟩
    exact ⟨hkept.keptUsers, hsecret⟩

theorem login_not_ok (username password : String) (reply : Reply τ) :
    (login cfg s c username password).2 ≠ .ok reply := by
  intro h
  rcases login_cases cfg s c username password with
    ⟨e, -, heq⟩ | ⟨user, -, -, -, ⟨-, heq⟩ | ⟨-, heq⟩⟩
  · rw [heq] at h
    cases h
  · rw [heq] at h
    cases h
  · rw [heq] at h
    cases h

theorem runInvestigation_reply {auth : Credentials τ} {subject sender : String}
    {outcome : PipelineOutcome} {reply : Reply τ}
    (h : (runInvestigation cfg s c auth subject sender outcome).2 = .ok reply) :
    ∃ id verdict confidence riskLevel, reply = .completed id verdict confidence riskLevel := by
  unfold runInvestigation at h
  cases hctx : requirePermission cfg s c.now auth "investigation:create" with
  | error e =>
    rw [hctx] at h
    cases h
  | ok ctx =>
    rw [hctx] at h
    cases outcome with
    | failed message errorCode => cases h
    | finished emailId verdict confidence riskLevel iterations durationMs =>
      dsimp only at h
      split at h
      · cases h
      · split at h
        · cases h
        · exact ⟨_, _, _, _, logged_reply h⟩

theorem createUser_reply {auth : Credentials τ} {username password : String} {roles : List String}
    {reply : Reply τ} (h : (createUser cfg s c auth username password roles).2 = .ok reply) :
    ∃ user, reply = .user user := by
  unfold createUser at h
  split at h
  · cases h
  · split at h
    · cases h
    · dsimp only at h
      split at h
      · cases h
      · exact ⟨_, logged_reply h⟩

theorem updateSystemConfig_reply {auth : Credentials τ} {updates : List (String × JsonValue ℚ)}
    {reply : Reply τ} (h : (updateSystemConfig cfg s c auth updates).2 = .ok reply) :
    reply = .updated updates := by
  unfold updateSystemConfig at h
  split at h
  · cases h
  · exact logged_reply h

/-- **Reading one investigation**: it is stored, and the caller is of its organization or has the role
that every organization is open to. -/
theorem getInvestigation_reply {auth : Credentials τ} {id : String} {reply : Reply τ}
    (h : getInvestigation cfg s c auth id = .ok reply) :
    ∃ ctx row, getAuthContext cfg s c.now auth = .ok ctx ∧ reply = .investigation row ∧
      row ∈ s.db.investigations.rows ∧
      ("super_admin" ∈ ctx.roles.map cfg.lower ∨ ctx.orgId = row.orgId) := by
  unfold getInvestigation requirePermission at h
  cases hctx : getAuthContext cfg s c.now auth with
  | error e =>
    rw [hctx] at h
    cases h
  | ok ctx =>
    rw [hctx] at h
    dsimp only at h
    split_ifs at h
    · dsimp only at h
      cases hget : s.db.getInvestigation id with
      | none =>
        rw [hget] at h
        cases h
      | some row =>
        rw [hget] at h
        dsimp only at h
        split_ifs at h with hisolated
        cases h
        refine ⟨ctx, row, rfl, rfl, List.mem_of_find?_eq_some hget, ?_⟩
        simpa [verifyTenantIsolation] using hisolated

/-- **Reading the history**: the rows are stored ones of the caller's organization. -/
theorem getHistory_reply {auth : Credentials τ} {reply : Reply τ}
    (h : getHistory cfg s c auth = .ok reply) :
    ∃ ctx rows, getAuthContext cfg s c.now auth = .ok ctx ∧ reply = .history rows ∧
      ∀ row ∈ rows, row ∈ s.db.investigations.rows ∧ row.orgId = ctx.orgId := by
  unfold getHistory requirePermission at h
  cases hctx : getAuthContext cfg s c.now auth with
  | error e =>
    rw [hctx] at h
    cases h
  | ok ctx =>
    rw [hctx] at h
    dsimp only at h
    split_ifs at h
    cases h
    refine ⟨ctx, _, rfl, rfl, fun row hrow => ?_⟩
    have hmem := List.mem_mergeSort.1 (List.mem_of_mem_take hrow)
    obtain ⟨hstored, horg⟩ := List.mem_filter.1 hmem
    exact ⟨hstored, by simpa using horg⟩

/-- **Where tokens come from**: the demo, and no login. -/
theorem tokens_step (s : Server) (c : Call τ) {accessToken refreshToken : τ}
    (h : (step cfg s c).2 = .ok (.tokens accessToken refreshToken)) :
    c.request = .demoToken ∧ Genuine cfg (step cfg s c).1 accessToken ∧
      Genuine cfg (step cfg s c).1 refreshToken := by
  unfold step at h ⊢
  cases hrequest : c.request with
  | login username password =>
    rw [hrequest] at h
    exact (login_not_ok username password _ h).elim
  | demoToken =>
    rw [hrequest] at h
    obtain ⟨-, -, hreply⟩ := demoToken_spec cfg (s := s) (c := c)
    obtain ⟨token, user, heq, hmem, hname, -, hsigned⟩ := hreply _ h
    cases heq
    have hgenuine : Genuine cfg (demoToken cfg s c).1 accessToken :=
      ⟨user, hmem, hname, c.now, hsigned⟩
    exact ⟨rfl, hgenuine, hgenuine⟩
  | runInvestigation auth subject sender outcome =>
    rw [hrequest] at h
    obtain ⟨_, _, _, _, heq⟩ := runInvestigation_reply h
    cases heq
  | getHistory auth =>
    rw [hrequest] at h
    obtain ⟨_, _, -, heq, -⟩ := getHistory_reply h
    cases heq
  | getInvestigation auth id =>
    rw [hrequest] at h
    obtain ⟨_, _, -, heq, -⟩ := getInvestigation_reply h
    cases heq
  | createUser auth username password roles =>
    rw [hrequest] at h
    obtain ⟨_, heq⟩ := createUser_reply h
    cases heq
  | updateSystemConfig auth updates =>
    rw [hrequest] at h
    cases updateSystemConfig_reply h

end Routes

/-! ## Runs -/

/-- The server with the history of its requests. -/
abbrev History (τ : Type) : Type :=
  Server × List (Machine.Record Server (Call τ) (Except ApiError (Reply τ)))

/-- The credentials of a request. -/
def Request.credentials : Request τ → Option (Credentials τ)
  | .login _ _ => none
  | .demoToken => none
  | .runInvestigation auth _ _ _ => some auth
  | .getHistory auth => some auth
  | .getInvestigation auth _ => some auth
  | .createUser auth _ _ _ => some auth
  | .updateSystemConfig auth _ => some auth

/-- The token was answered before. -/
def Answered (h : History τ) (token : τ) : Prop :=
  ∃ rec ∈ h.2, ∃ accessToken refreshToken, rec.answer = .ok (.tokens accessToken refreshToken) ∧
    (token = accessToken ∨ token = refreshToken)

/-- The request does not set the secret, and a token that it presents and that is accepted was
answered before. -/
structure Honest (cfg : Deployment τ) (h : History τ) (c : Call τ) : Prop where
  secret : ¬SetsSecret c
  unforged : ∀ auth token key claims, c.request.credentials = some auth → auth.bearer = some token →
    keyText (secretKey cfg h.1.overrides) = some key → cfg.jwt.decode key c.now token = .ok claims →
    Answered h token

/-- Every token that was answered is genuine. -/
def AllGenuine (cfg : Deployment τ) (h : History τ) : Prop :=
  ∀ token, Answered h token → Genuine cfg h.1 token

/-- The caller is the holder of an active key, or the user of the demo. -/
def Known (cfg : Deployment τ) (s : Server) (auth : Credentials τ) (ctx : AuthContext) : Prop :=
  (∃ raw key, auth.xApiKey = some raw ∧ key ∈ s.db.apiKeys.rows ∧ key.isActive = true ∧
      key.keyHash = cfg.sha256 raw ∧ ctx = ⟨key.id, key.orgId, [key.role], .apiKey⟩) ∨
    ∃ user ∈ s.db.users.rows, user.username = demoUsername ∧
      ctx = ⟨user.id, user.orgId, user.roles, .jwt⟩

/-- What the caller may read. -/
def MayRead (cfg : Deployment τ) (s : Server) (ctx : AuthContext) : Reply τ → Prop
  | .investigation row =>
    row ∈ s.db.investigations.rows ∧
      ("super_admin" ∈ ctx.roles.map cfg.lower ∨ ctx.orgId = row.orgId)
  | .history rows => ∀ row ∈ rows, row ∈ s.db.investigations.rows ∧ row.orgId = ctx.orgId
  | _ => True

/-- **Isolation of one request.**  The caller of every request that is answered is known, and may read
the answer; a request without credentials is answered only by the demo. -/
def Isolated (cfg : Deployment τ) (h : History τ) (c : Call τ) : Prop :=
  ∀ reply, (step cfg h.1 c).2 = .ok reply →
    match c.request.credentials with
    | none => c.request = .demoToken
    | some auth =>
      ∃ ctx, getAuthContext cfg h.1 c.now auth = .ok ctx ∧ Known cfg h.1 auth ctx ∧
        MayRead cfg h.1 ctx reply

theorem Genuine.of_kept {s s' : Server} {token : τ} (h : Genuine cfg s token)
    (hkept : KeptUsers s.db s'.db) (hsecret : secretKey cfg s'.overrides = secretKey cfg s.overrides) :
    Genuine cfg s' token := by
  obtain ⟨user, hmem, hname, now, key, hkey, htoken⟩ := h
  obtain ⟨user', hmem', hsame⟩ := hkept.users user hmem
  have hclaims : issuedClaims cfg now user' = issuedClaims cfg now user := by
    rw [issuedClaims, issuedClaims, hsame.id, hsame.orgId, hsame.roles]
  exact ⟨user', hmem', hsame.username.trans hname, now, key, hsecret ▸ hkey, hclaims ▸ htoken⟩

theorem allGenuine_step {h : History τ} {c : Call τ} (hinv : AllGenuine cfg h)
    (hc : Honest cfg h c) : AllGenuine cfg (Machine.recorded (step cfg) h c).1 := by
  obtain ⟨hkept, hsecret⟩ := step_kept cfg h.1 c
  rintro token ⟨rec, hrec, accessToken, refreshToken, hanswer, htoken⟩
  rcases List.mem_append.1 hrec with hold | hnew
  · have hbefore : Genuine cfg h.1 token :=
      hinv token ⟨rec, hold, accessToken, refreshToken, hanswer, htoken⟩
    exact hbefore.of_kept hkept (hsecret hc.secret)
  · rw [List.mem_singleton.1 hnew] at hanswer
    obtain ⟨-, haccess, hrefresh⟩ := tokens_step h.1 c hanswer
    rcases htoken with rfl | rfl
    · exact haccess
    · exact hrefresh

/-- **Who the callers are.** -/
theorem known_of_getAuthContext {h : History τ} {c : Call τ} {auth : Credentials τ}
    {ctx : AuthContext} (hinv : AllGenuine cfg h) (hc : Honest cfg h c)
    (hauth : c.request.credentials = some auth)
    (hctx : getAuthContext cfg h.1 c.now auth = .ok ctx) : Known cfg h.1 auth ctx := by
  unfold getAuthContext at hctx
  cases hkey : auth.xApiKey.filter (· ≠ "") with
  | some raw =>
    rw [hkey] at hctx
    dsimp only at hctx
    obtain ⟨hraw, -⟩ := Option.filter_eq_some_iff.1 hkey
    cases hget : h.1.db.getByHash (cfg.sha256 raw) with
    | none =>
      rw [hget] at hctx
      cases hctx
    | some key =>
      rw [hget] at hctx
      cases hctx
      have hfound : key.keyHash = cfg.sha256 raw ∧ key.isActive = true := by
        simpa using List.find?_some hget
      exact .inl ⟨raw, key, hraw, List.mem_of_find?_eq_some hget, hfound.2, hfound.1, rfl⟩
  | none =>
    rw [hkey] at hctx
    dsimp only at hctx
    cases hbearer : auth.bearer with
    | none =>
      rw [hbearer] at hctx
      cases hctx
    | some token =>
      rw [hbearer] at hctx
      dsimp only at hctx
      split at hctx
      · cases hctx
      · rename_i claims hdecode
        cases hctx
        unfold decodeJwtToken at hdecode
        cases hsecret : keyText (secretKey cfg h.1.overrides) with
        | none =>
          rw [hsecret] at hdecode
          cases hdecode
        | some key =>
          rw [hsecret] at hdecode
          -- the token was answered before, so it is a genuine one
          obtain ⟨user, hmem, hname, now, key', hkey', htoken⟩ :=
            hinv token (hc.unforged auth token key claims hauth hbearer hsecret hdecode)
          rw [hsecret] at hkey'
          obtain rfl := Option.some.inj hkey'
          obtain rfl := cfg.jwt.eq_of_decode _ _ _ _ _ htoken hdecode
          exact .inr ⟨user, hmem, hname, rfl⟩

theorem getAuthContext_of_requirePermission {s : Server} {now : ℚ} {auth : Credentials τ}
    {permission : String} {ctx : AuthContext}
    (h : requirePermission cfg s now auth permission = .ok ctx) :
    getAuthContext cfg s now auth = .ok ctx := by
  unfold requirePermission at h
  split at h
  · cases h
  · rename_i hctx
    split_ifs at h
    rw [hctx]
    exact h

/-- A request that is answered has a caller, who may read the answer, or it is the demo's. -/
theorem step_caller (s : Server) (c : Call τ) {reply : Reply τ}
    (h : (step cfg s c).2 = .ok reply) :
    match c.request.credentials with
    | none => c.request = .demoToken
    | some auth =>
      ∃ ctx, getAuthContext cfg s c.now auth = .ok ctx ∧ MayRead cfg s ctx reply := by
  unfold step at h
  cases hrequest : c.request with
  | login username password =>
    rw [hrequest] at h
    exact (login_not_ok username password _ h).elim
  | demoToken => rfl
  | runInvestigation auth subject sender outcome =>
    rw [hrequest] at h
    obtain ⟨_, _, _, _, rfl⟩ := runInvestigation_reply h
    dsimp only at h
    unfold runInvestigation at h
    split at h
    · cases h
    · rename_i ctx hctx
      exact ⟨ctx, getAuthContext_of_requirePermission hctx, trivial⟩
  | getHistory auth =>
    rw [hrequest] at h
    obtain ⟨ctx, rows, hctx, rfl, hrows⟩ := getHistory_reply h
    exact ⟨ctx, hctx, hrows⟩
  | getInvestigation auth id =>
    rw [hrequest] at h
    obtain ⟨ctx, row, hctx, rfl, hstored, hallowed⟩ := getInvestigation_reply h
    exact ⟨ctx, hctx, hstored, hallowed⟩
  | createUser auth username password roles =>
    rw [hrequest] at h
    obtain ⟨_, rfl⟩ := createUser_reply h
    dsimp only at h
    unfold createUser at h
    split at h
    · cases h
    · rename_i ctx hctx
      exact ⟨ctx, getAuthContext_of_requirePermission hctx, trivial⟩
  | updateSystemConfig auth updates =>
    rw [hrequest] at h
    obtain rfl := updateSystemConfig_reply h
    dsimp only at h
    unfold updateSystemConfig at h
    split at h
    · cases h
    · rename_i ctx hctx
      exact ⟨ctx, getAuthContext_of_requirePermission hctx, trivial⟩

theorem isolated_of_allGenuine {h : History τ} {c : Call τ} (hinv : AllGenuine cfg h)
    (hc : Honest cfg h c) : Isolated cfg h c := by
  intro reply hreply
  have hcaller := step_caller h.1 c hreply
  cases hauth : c.request.credentials with
  | none =>
    rw [hauth] at hcaller
    exact hcaller
  | some auth =>
    rw [hauth] at hcaller
    obtain ⟨ctx, hctx, hread⟩ := hcaller
    exact ⟨ctx, hctx, known_of_getAuthContext hinv hc hauth hctx, hread⟩

/-- **Tenant isolation.**  In every run, from any store, in which the tokens that are presented were
answered in the run and nobody sets the secret, every request that is answered comes from the holder of
an active API key or from the user of the demo, whoever else there are users of; and what is read is
of the caller's organization, unless the caller is a `super_admin`. -/
theorem tenant_isolation (cfg : Deployment τ) (s : Server) (calls : List (Call τ))
    (h : Machine.Always (Machine.recorded (step cfg)) (Honest cfg) (s, []) calls) :
    Machine.Always (Machine.recorded (step cfg)) (Isolated cfg) (s, []) calls := by
  refine Machine.always_of_inv (I := AllGenuine cfg) (fun _ _ => allGenuine_step)
    (fun _ _ => isolated_of_allGenuine) ?_ h
  rintro token ⟨rec, hrec, -⟩
  cases hrec

/-! ## A deployment -/

/-- What is read of a token that is its secret and its claims. -/
def plainDecode (key : String) (now : ℚ) (token : String × Claims) : Except String Claims :=
  if token.1 ≠ key then .error "Signature verification failed"
  else if now < token.2.iat then .error "The token is not yet valid (iat)"
  else if now < token.2.nbf then .error "The token is not yet valid (nbf)"
  else if (token.2.exp : ℚ) ≤ now then .error "Signature has expired"
  else .ok token.2

theorem plainDecode_eq_ok_iff (key : String) (claims claims' : Claims) (now : ℚ) :
    plainDecode key now (key, claims) = .ok claims' ↔ claims' = claims ∧ claims.InForce now := by
  unfold plainDecode Claims.InForce
  rw [if_neg (not_not.2 rfl)]
  constructor
  · intro h
    split_ifs at h with hiat hnbf hexp
    cases h
    exact ⟨rfl, not_lt.1 hiat, not_lt.1 hnbf, not_le.1 hexp⟩
  · rintro ⟨rfl, hiat, hnbf, hexp⟩
    simp [not_lt.2 hiat, not_lt.2 hnbf, not_le.2 hexp]

def plainHs256 : Hs256 (String × Claims) where
  encode key claims := some (key, claims)
  decode := plainDecode
  decode_encode key claims token now h := by
    cases h
    exact (plainDecode_eq_ok_iff ..).trans (and_iff_right rfl)
  eq_of_decode key claims token now claims' h hdecode := by
    cases h
    exact ((plainDecode_eq_ok_iff ..).1 hdecode).1

theorem asciiLower_of_lower (s : String) (h : ∀ c ∈ s.toList, c.toNat < 128 ∧ c.isUpper = false) :
    Text.asciiLower s = s := by
  have hmap : s.toList.map Char.toLower = s.toList.map id := by
    refine List.map_congr_left fun c hc => ?_
    have hupper := of_decide_eq_false (h c hc).2
    exact dif_neg hupper
  rw [Text.asciiLower, hmap, List.map_id, String.ofList_toList]

def plainDeployment : Deployment (String × Claims) where
  jwt := plainHs256
  lower := Text.asciiLower
  lower_ascii := asciiLower_of_lower
  sha256 := id
  pbkdf2 := fun password salt _ => some (salt ++ password.toList.map fun c => UInt8.ofNat c.toNat)
  b64encode := Hex.toHex
  b64decode := Hex.fromHex
  storedSecret := some "prod-secret"
  accessTokenExpireMinutes := 30

def acme : Organization := ⟨"org_acme", "Acme", 0⟩

def acmeKey : APIKey := ⟨"key_acme", "org_acme", "gateway", "raw-key", "analyst", true, 0⟩

def acmeInvestigation : Investigation :=
  ⟨"inv_acme", "org_acme", "<m-1>", "Invoice", "a@b.com", "phishing", 9 / 10, "high", 40, 0⟩

theorem unique_singleton {ρ : Type} (columns : List (ρ → String)) (r : ρ) :
    ∀ c ∈ columns, ([r].map c).Nodup :=
  fun _ _ => List.nodup_singleton _

theorem refers_acme : Refers ["org_acme"] ["org_acme"] := List.Subset.refl _

/-- One organization with a key and an investigation, before the demo has been asked for. -/
def acmeServer : Server where
  db :=
    { Database.empty with
      organizations := ⟨[acme], unique_singleton _ _⟩
      apiKeys := ⟨[acmeKey], unique_singleton _ _⟩
      investigations := ⟨[acmeInvestigation], unique_singleton _ _⟩
      userOrg := .nil
      keyOrg := refers_acme
      logOrg := .nil
      investigationOrg := refers_acme
      metricOrg := .nil
      metricInvestigation := .nil }
  overrides := ∅

/-- A request at a time. -/
def requestAt (now : ℚ) (request : Request (String × Claims)) : Call (String × Claims) :=
  ⟨request, now, [7], "a", "b", "c", "d"⟩

/-- The claims of the user of the demo. -/
def demoClaims : Claims := ⟨"user_analyst_demo", demoOrgId, ["admin", "analyst"], 1800, 0, 0⟩

/-- The tokens of an answer. -/
def tokensOf : Except ApiError (Reply τ) → Option (τ × τ)
  | .ok (.tokens accessToken refreshToken) => some (accessToken, refreshToken)
  | _ => none

theorem eq_of_tokensOf {answer : Except ApiError (Reply τ)} {accessToken refreshToken : τ}
    (h : tokensOf answer = some (accessToken, refreshToken)) :
    answer = .ok (.tokens accessToken refreshToken) := by
  unfold tokensOf at h
  split at h
  · cases h
    rfl
  · cases h

theorem demo_acme : (step plainDeployment acmeServer (requestAt 0 .demoToken)).2 =
    .ok (.tokens ("prod-secret", demoClaims) ("prod-secret", demoClaims)) := by
  apply eq_of_tokensOf
  decide +kernel

/-- The demo's user asks for their history, and the holder of the key for an investigation. -/
theorem tenant_isolation_acme :
    Machine.Always (Machine.recorded (step plainDeployment)) (Isolated plainDeployment)
      (acmeServer, [])
      [requestAt 0 .demoToken, requestAt 60 (.getHistory ⟨none, some ("prod-secret", demoClaims)⟩),
        requestAt 90 (.getInvestigation ⟨some "raw-key", none⟩ "inv_acme")] := by
  refine tenant_isolation _ _ _ ⟨⟨?_, ?_⟩, ⟨?_, ?_⟩, ⟨?_, ?_⟩, trivial⟩
  · rintro ⟨_, _, h, -⟩
    cases h
  · rintro auth token key claims h
    cases h
  · rintro ⟨_, _, h, -⟩
    cases h
  · rintro auth token key claims h hbearer - -
    cases h
    cases hbearer
    exact ⟨_, List.mem_singleton_self _, _, _, demo_acme, .inl rfl⟩
  · rintro ⟨_, _, h, -⟩
    cases h
  · rintro auth token key claims h hbearer
    cases h
    cases hbearer

/-! ## Setting the secret -/

/-- A token that was signed with the secret of the server is a credential for its claims. -/
theorem getAuthContext_of_encode {s : Server} {now : ℚ} {key : String} {claims : Claims} {token : τ}
    (hkey : keyText (secretKey cfg s.overrides) = some key)
    (htoken : cfg.jwt.encode key claims = some token) (hforce : claims.InForce now) :
    getAuthContext cfg s now ⟨none, some token⟩ =
      .ok ⟨claims.sub, claims.orgId, claims.roles, .jwt⟩ := by
  have hdecode : decodeJwtToken cfg s.overrides now token = .ok claims := by
    unfold decodeJwtToken
    rw [hkey]
    exact (cfg.jwt.decode_encode _ _ _ _ htoken).2 hforce
  unfold getAuthContext
  dsimp only [Option.filter_none]
  rw [hdecode]

theorem requirePermission_of_admin {s : Server} {now : ℚ} {auth : Credentials τ} {ctx : AuthContext}
    (hctx : getAuthContext cfg s now auth = .ok ctx)
    (hroles : "admin" ∈ ctx.roles.map cfg.lower ∨ "super_admin" ∈ ctx.roles.map cfg.lower)
    (permission : String) : requirePermission cfg s now auth permission = .ok ctx := by
  have hne : ctx.roles ≠ [] := by
    rintro hempty
    rw [hempty] at hroles
    simp at hroles
  have hallowed : verifyRbacPermission cfg ctx.roles permission = true := by
    unfold verifyRbacPermission
    rw [if_neg hne, if_pos hroles]
  unfold requirePermission
  rw [hctx]
  exact if_pos hallowed

theorem secretKey_set (overrides : Dict String (JsonValue ℚ)) {secret : String} (h : secret ≠ "") :
    keyText (secretKey cfg (setOverrides overrides [("SECRET_KEY", .str secret)])) =
      some secret := by
  have hget : (setOverrides overrides [("SECRET_KEY", .str secret)]).get? "SECRET_KEY" =
      some (.str secret) := Dict.get?_set_self ..
  unfold secretKey
  rw [hget]
  simp [JsonValue.truthy, h, keyText]

theorem getInvestigation_of_super_admin {s : Server} {c : Call τ} {auth : Credentials τ}
    {ctx : AuthContext} {row : Investigation} (hctx : getAuthContext cfg s c.now auth = .ok ctx)
    (hrole : "super_admin" ∈ ctx.roles.map cfg.lower) (hrow : row ∈ s.db.investigations.rows) :
    getInvestigation cfg s c auth row.id = .ok (.investigation row) := by
  have hget : s.db.getInvestigation row.id = some row :=
    (UniqueTable.find?_eq_some_iff (by simp)).2 ⟨hrow, rfl⟩
  unfold getInvestigation
  rw [requirePermission_of_admin hctx (.inr hrole)]
  dsimp only
  rw [hget]
  dsimp only
  rw [verifyTenantIsolation, decide_eq_true hrole, Bool.true_or, if_pos rfl]

/-- What the demo needs: its organization is there or has a free name; its user is there, or has a free
identifier and a password that can be hashed; and PyJWT takes the secret for a key. -/
structure DemoReady (cfg : Deployment τ) (s : Server) (c : Call τ) : Prop where
  organization : (∃ org ∈ s.db.organizations.rows, org.id = demoOrgId) ∨
    ∀ org ∈ s.db.organizations.rows, org.name ≠ "ScamShield Demo Tenant"
  user : (∃ user ∈ s.db.users.rows, user.username = demoUsername) ∨
    (∀ user ∈ s.db.users.rows, user.id ≠ "user_analyst_demo") ∧
      ∃ hashed, hashPassword cfg c.salt "demopassword123" = some hashed
  secret : ∃ key, keyText (secretKey cfg s.overrides) = some key ∧
    ∀ claims, ∃ token, cfg.jwt.encode key claims = some token

theorem demoOrganization_of_ready {db : Database} (now : ℚ)
    (h : (∃ org ∈ db.organizations.rows, org.id = demoOrgId) ∨
      ∀ org ∈ db.organizations.rows, org.name ≠ "ScamShield Demo Tenant") :
    ∃ db' org, demoOrganization db now = .ok (db', org) ∧ db'.users = db.users ∧
      org.id ∈ db'.organizations.rows.map Organization.id := by
  unfold demoOrganization
  cases hget : db.getOrganization demoOrgId with
  | some org => exact ⟨db, org, rfl, rfl, List.mem_map_of_mem (List.mem_of_find?_eq_some hget)⟩
  | none =>
    have habsent : ∀ o ∈ db.organizations.rows, o.id ≠ demoOrgId := by
      simpa using List.find?_eq_none.1 hget
    have hname : ∀ o ∈ db.organizations.rows, o.name ≠ "ScamShield Demo Tenant" := by
      rcases h with ⟨o, ho, hid⟩ | hname
      · exact absurd hid (habsent o ho)
      · exact hname
    obtain ⟨db', hcreate⟩ := Database.createOrganization_of_free
      ⟨demoOrgId, "ScamShield Demo Tenant", now⟩ fun o ho => ⟨habsent o ho, hname o ho⟩
    obtain ⟨hrows, husers, -⟩ := Database.createOrganization_eq_ok hcreate
    dsimp only
    rw [hcreate]
    refine ⟨db', _, rfl, husers, ?_⟩
    rw [hrows, List.map_append]
    exact List.mem_append_right _ (List.mem_singleton_self _)

theorem demoUser_of_ready {db : Database} {c : Call τ} {org : Organization}
    (horg : org.id ∈ db.organizations.rows.map Organization.id)
    (h : (∃ user ∈ db.users.rows, user.username = demoUsername) ∨
      (∀ user ∈ db.users.rows, user.id ≠ "user_analyst_demo") ∧
        ∃ hashed, hashPassword cfg c.salt "demopassword123" = some hashed) :
    ∃ db' user, demoUser cfg db c org = .ok (db', user) := by
  unfold demoUser
  cases hget : db.getByUsername demoUsername with
  | some user => exact ⟨db, user, rfl⟩
  | none =>
    have habsent : ∀ user ∈ db.users.rows, user.username ≠ demoUsername := by
      simpa using List.find?_eq_none.1 hget
    rcases h with ⟨user, hmem, hname⟩ | ⟨hid, hashed, hhash⟩
    · exact absurd hname (habsent user hmem)
    · obtain ⟨db', hcreate⟩ := Database.createUser_of_free
        ⟨"user_analyst_demo", org.id, demoUsername, hashed, ["admin", "analyst"], true, 0,
          none, c.now⟩ (fun user hmem => ⟨hid user hmem, habsent user hmem⟩) horg
      dsimp only
      rw [hhash]
      dsimp only
      rw [hcreate]
      exact ⟨_, _, rfl⟩

/-- **The demo answers** whoever asks. -/
theorem demoToken_answers {s : Server} {c : Call τ} (h : DemoReady cfg s c) :
    ∃ token, (demoToken cfg s c).2 = .ok (.tokens token token) := by
  obtain ⟨db, org, horg, husers, hmem⟩ := demoOrganization_of_ready c.now h.organization
  obtain ⟨db', user, huser⟩ := demoUser_of_ready (c := c) hmem (husers ▸ h.user)
  obtain ⟨key, hkey, hencode⟩ := h.secret
  obtain ⟨token, htoken⟩ := hencode (issuedClaims cfg c.now user)
  have hcreate : createJwtToken cfg s.overrides c.now user .none = .ok token := by
    unfold createJwtToken expire
    unfold issuedClaims at htoken
    rw [hkey]
    dsimp only [Option.bind_some]
    rw [htoken]
  refine ⟨token, ?_⟩
  unfold demoToken
  rw [horg]
  dsimp only
  rw [huser]
  dsimp only
  rw [hcreate]

/-- **Taking over.**  Whoever asks the demo gets its token, can set the secret with it while it is in
force, and with a token that they have signed with that secret can read every investigation there is.
The demo's user needs no other role than the one the demo gives. -/
theorem takeover (cfg : Deployment τ) (s : Server) (demo : Call τ)
    (hdemo : demo.request = .demoToken) (hready : DemoReady cfg s demo)
    (hadmin : ∀ user ∈ s.db.users.rows, user.username = demoUsername →
      "admin" ∈ user.roles.map cfg.lower) :
    ∃ token, (step cfg s demo).2 = .ok (.tokens token token) ∧
      ∀ (set get : Call τ) (secret : String) (claims : Claims) (forged : τ) (row : Investigation),
        set.request = .updateSystemConfig ⟨none, some token⟩ [("SECRET_KEY", .str secret)] →
        secret ≠ "" → demo.now ≤ set.now →
        set.now < ⌊demo.now + 60 * cfg.accessTokenExpireMinutes⌋ →
        cfg.jwt.encode secret claims = some forged → claims.roles = ["super_admin"] →
        claims.InForce get.now → get.request = .getInvestigation ⟨none, some forged⟩ row.id →
        row ∈ s.db.investigations.rows →
        (step cfg (Machine.run (step cfg) s [demo, set]) get).2 = .ok (.investigation row) := by
  have hlower : ∀ role, role = "admin" ∨ role = "super_admin" → cfg.lower role = role := by
    rintro role (rfl | rfl)
    · exact cfg.lower_ascii _ (by decide)
    · exact cfg.lower_ascii _ (by decide)
  have hstep : step cfg s demo = demoToken cfg s demo := by rw [step, hdemo]
  obtain ⟨accessToken, hanswer⟩ := demoToken_answers hready
  refine ⟨accessToken, hstep ▸ hanswer, ?_⟩
  intro set get secret claims forged row hset hsecret hafter hbefore hforged hroles hforce hget hrow
  -- the demo's token is an administrator's
  obtain ⟨hkept, hoverrides, hreply⟩ := demoToken_spec cfg (s := s) (c := demo)
  obtain ⟨token, user, heq, hmem, hname, huser, key, hkey, htoken⟩ := hreply _ hanswer
  cases heq
  have hctx : getAuthContext cfg (demoToken cfg s demo).1 set.now ⟨none, some accessToken⟩ =
      .ok ⟨user.id, user.orgId, user.roles, .jwt⟩ :=
    getAuthContext_of_encode hkey htoken
      ⟨(Int.floor_le _).trans hafter, (Int.floor_le _).trans hafter, hbefore⟩
  have hrole : "admin" ∈ user.roles.map cfg.lower := by
    rcases huser with hstored | hgiven
    · exact hadmin user hstored hname
    · rw [hgiven, List.map_cons, hlower _ (.inl rfl)]
      exact List.mem_cons_self
  -- so it sets the secret, whether or not that is logged
  have hallowed := requirePermission_of_admin hctx (.inl hrole) "config:write"
  have hset' : step cfg (demoToken cfg s demo).1 set = updateSystemConfig cfg
      (demoToken cfg s demo).1 set ⟨none, some accessToken⟩ [("SECRET_KEY", .str secret)] := by
    rw [step, hset]
  obtain ⟨hkept', -⟩ := updateSystemConfig_kept cfg (s := (demoToken cfg s demo).1)
    (c := set) ⟨none, some accessToken⟩ [("SECRET_KEY", .str secret)]
  have hsecret' : (updateSystemConfig cfg (demoToken cfg s demo).1 set ⟨none, some accessToken⟩
      [("SECRET_KEY", .str secret)]).1.overrides =
      setOverrides (demoToken cfg s demo).1.overrides [("SECRET_KEY", .str secret)] := by
    unfold updateSystemConfig
    rw [hallowed]
    exact (logged_kept _ _ _).2
  rw [Machine.run_cons, Machine.run_cons, Machine.run_nil, hstep, hset', step, hget]
  refine getInvestigation_of_super_admin (getAuthContext_of_encode ?_ hforged hforce) ?_ ?_
  · rw [hsecret']
    exact secretKey_set _ hsecret
  · rw [hroles, List.map_cons, hlower _ (.inr rfl)]
    exact List.mem_cons_self
  · exact hkept'.investigations (hkept.investigations hrow)

theorem demoReady_acme : DemoReady plainDeployment acmeServer (requestAt 0 .demoToken) where
  organization := .inr (by decide)
  user := .inr ⟨fun user h => absurd h List.not_mem_nil, _, rfl⟩
  secret := ⟨"prod-secret", by decide +kernel, fun claims => ⟨_, rfl⟩⟩

/-- A stranger reads the investigation of an organization they have nothing to do with. -/
theorem takeover_acme :
    (step plainDeployment (Machine.run (step plainDeployment) acmeServer
        [requestAt 0 .demoToken, requestAt 60 (.updateSystemConfig
          ⟨none, some ("prod-secret", demoClaims)⟩ [("SECRET_KEY", .str "mine")])])
      (requestAt 90 (.getInvestigation
        ⟨none, some ("mine", ⟨"stranger", "", ["super_admin"], 1000, 0, 0⟩)⟩ "inv_acme"))).2 =
      .ok (.investigation acmeInvestigation) := by
  obtain ⟨token, hanswer, hreads⟩ := takeover plainDeployment acmeServer
    (requestAt 0 .demoToken) rfl demoReady_acme fun user h => absurd h List.not_mem_nil
  have htoken : token = ("prod-secret", demoClaims) := by
    have hsame := demo_acme.symm.trans hanswer
    simp only [Except.ok.injEq, Reply.tokens.injEq] at hsame
    exact hsame.1.symm
  subst htoken
  exact hreads _ _ _ _ _ acmeInvestigation rfl (by decide) (by decide +kernel) (by decide +kernel)
    rfl rfl (by unfold Claims.InForce; decide +kernel) rfl (List.mem_singleton_self _)

end ScamOn.Api
