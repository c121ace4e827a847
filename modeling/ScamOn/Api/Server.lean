import Mathlib.Data.Rat.Floor
import ScamOn.Api.Database
import ScamOn.Lib.Dict
import ScamOn.Lib.Machine
import ScamOn.Security.Password

/-!
# The REST API

The application object of the API: who a request comes from, what they may do, and the routes over the
relational store.

* `Hs256` is PyJWT under a secret, as a parameter; `Deployment` holds this and the
  other things that are fixed while the server runs.
* `getAuthContext` is the caller of a request, `verifyRbacPermission` and `verifyTenantIsolation` the
  checks, and `login`, `demoToken`, `runInvestigation`, `getHistory`, `getInvestigation`, `createUser`
  and `updateSystemConfig` the routes.
* `step` is one request.  The routes are run by a pool of threads; here they are taken one at a time,
  so that no request reads or writes the store between two accesses of another.
-/

namespace ScamOn.Api

/-! ## Tokens -/

/-- The payload of a token. -/
structure Claims where
  sub : String
  orgId : String
  roles : List String
  exp : ℤ
  iat : ℤ
  nbf : ℤ
  deriving DecidableEq

/-- The claims are good at a time. -/
def Claims.InForce (claims : Claims) (now : ℚ) : Prop :=
  (claims.iat : ℚ) ≤ now ∧ (claims.nbf : ℚ) ≤ now ∧ now < claims.exp

/-- HS256 over a secret: `encode` raises for a text that is a key of another kind, and `decode` is
`jwt.decode` at a time, which says what is wrong with a token. -/
structure Hs256 (τ : Type) where
  encode : String → Claims → Option τ
  decode : String → ℚ → τ → Except String Claims
  /-- A token that was signed with the secret is accepted while its claims are in force. -/
  decode_encode : ∀ key claims token now, encode key claims = some token →
    (decode key now token = .ok claims ↔ claims.InForce now)
  /-- Nothing else is read from it. -/
  eq_of_decode : ∀ key claims token now claims', encode key claims = some token →
    decode key now token = .ok claims' → claims' = claims

/-- What is fixed while the server runs: the libraries, the secret of the environment, and the life
of a token. -/
structure Deployment (τ : Type) where
  jwt : Hs256 τ
  /-- `str.lower`. -/
  lower : String → String
  lower_ascii : ∀ s : String, (∀ c ∈ s.toList, c.toNat < 128 ∧ c.isUpper = false) → lower s = s
  sha256 : String → String
  pbkdf2 : Security.Pbkdf2
  b64encode : List UInt8 → Str
  b64decode : Str → Option (List UInt8)
  storedSecret : Option String
  accessTokenExpireMinutes : ℤ

/-- The server: its store, and `settings._overrides`. -/
structure Server where
  db : Database
  overrides : Dict String (JsonValue ℚ)

/-- `APIException` and its kinds, and what leaves a route otherwise. -/
inductive ApiError
  | authentication (message : String)
  | authorization (message : String)
  | notFound (detail : String)
  | apiException (message errorCode : String)
  | integrity (e : IntegrityError)
  | typeError
  | passwordError
  deriving DecidableEq

section Routes

variable {τ : Type} (cfg : Deployment τ)

/-! ## Secrets -/

def defaultSecret : String := "super-secret-key-change-in-production-123456789"

/-- `settings.get_secret("SECRET_KEY") or …`: an override comes first, whatever it is. -/
def secretKey (overrides : Dict String (JsonValue ℚ)) : JsonValue ℚ :=
  let secret := (overrides.get? "SECRET_KEY").getD
    ((cfg.storedSecret.map JsonValue.str).getD .null)
  if secret.truthy then secret else .str defaultSecret

/-- A secret that is no text makes PyJWT raise. -/
def keyText : JsonValue ℚ → Option String
  | .str key => some key
  | _ => none

/-- The argument `expires_delta`: a `Depends` object is true, and no `timedelta`. -/
inductive ExpiresDelta
  | none
  | timedelta (seconds : ℚ)
  | depends

/-- When a token expires. -/
def expire (now : ℚ) : ExpiresDelta → Except ApiError ℚ
  | .none => .ok (now + 60 * cfg.accessTokenExpireMinutes)
  | .timedelta seconds =>
    .ok (if seconds ≠ 0 then now + seconds else now + 60 * cfg.accessTokenExpireMinutes)
  | .depends => .error .typeError

/-- `create_jwt_token`. -/
def createJwtToken (overrides : Dict String (JsonValue ℚ)) (now : ℚ) (user : User)
    (expiresDelta : ExpiresDelta) : Except ApiError τ :=
  match expire cfg now expiresDelta with
  | .error e => .error e
  | .ok exp =>
    match (keyText (secretKey cfg overrides)).bind fun key =>
      cfg.jwt.encode key ⟨user.id, user.orgId, user.roles, ⌊exp⌋, ⌊now⌋, ⌊now⌋⟩ with
    | some token => .ok token
    | none => .error .typeError

/-- `decode_jwt_token`. -/
def decodeJwtToken (overrides : Dict String (JsonValue ℚ)) (now : ℚ) (token : τ) :
    Except String Claims :=
  match keyText (secretKey cfg overrides) with
  | none => .error "Expected a string value"
  | some key => cfg.jwt.decode key now token

/-! ## Passwords -/

/-- `hash_password`, with the salt that is drawn. -/
def hashPassword (salt : List UInt8) (password : String) : Option String :=
  (cfg.pbkdf2 password salt 100000).map fun key =>
    "pbkdf2_sha256$100000$" ++ String.ofList (cfg.b64encode salt) ++ "$" ++
      String.ofList (cfg.b64encode key)

/-- `verify_password`. -/
def verifyPassword (password hashedPassword : String) : Bool :=
  match hashedPassword.toList.splitOn '$' with
  | [algorithm, iterations, salt, expected] =>
    if String.ofList algorithm ≠ "pbkdf2_sha256" then false
    else
      match Text.intOfStr? (String.ofList iterations), cfg.b64decode salt, cfg.b64decode expected with
      | some n, some salt, some expected =>
        match cfg.pbkdf2 password salt n with
        | some actual => decide (expected = actual)
        | none => false
      | _, _, _ => false
  | _ => false

/-! ## The caller -/

/-- `X-API-KEY`, and the token of an `Authorization` header that starts with `Bearer `. -/
structure Credentials (τ : Type) where
  xApiKey : Option String
  bearer : Option τ

inductive AuthMethod
  | apiKey
  | jwt
  deriving DecidableEq, Repr

/-- What `get_auth_context` returns. -/
structure AuthContext where
  identityId : String
  orgId : String
  roles : List String
  authMethod : AuthMethod
  deriving DecidableEq

/-- `get_auth_context`. -/
def getAuthContext (s : Server) (now : ℚ) (auth : Credentials τ) : Except ApiError AuthContext :=
  match auth.xApiKey.filter (· ≠ "") with
  | some key =>
    match s.db.getByHash (cfg.sha256 key) with
    | none => .error (.authentication "Invalid API Key.")
    | some record => .ok ⟨record.id, record.orgId, [record.role], .apiKey⟩
  | none =>
    match auth.bearer with
    | none => .error (.authentication "Authentication token or API key is missing.")
    | some token =>
      match decodeJwtToken cfg s.overrides now token with
      | .error text => .error (.authentication ("JWT Token validation failed: " ++ text))
      | .ok claims => .ok ⟨claims.sub, claims.orgId, claims.roles, .jwt⟩

/-- What an analyst may do. -/
def analystPermissions : List String :=
  ["analyst", "investigation:read", "investigation:create", "read", "create", "memory:search",
    "memory:read"]

/-- `verify_rbac_permission`. -/
def verifyRbacPermission (userRoles : List String) (requiredPermission : String) : Bool :=
  let rolesLower := userRoles.map cfg.lower
  if userRoles = [] then false
  else if "admin" ∈ rolesLower ∨ "super_admin" ∈ rolesLower then true
  else if "analyst" ∈ rolesLower ∨ "soc_analyst" ∈ rolesLower then
    decide (cfg.lower requiredPermission ∈ analystPermissions)
  else false

/-- `verify_tenant_isolation`. -/
def verifyTenantIsolation (userOrgId resourceOrgId : String) (userRoles : List String) : Bool :=
  decide ("super_admin" ∈ userRoles.map cfg.lower) || decide (userOrgId = resourceOrgId)

/-- `require_permission`. -/
def requirePermission (s : Server) (now : ℚ) (auth : Credentials τ) (permission : String) :
    Except ApiError AuthContext :=
  match getAuthContext cfg s now auth with
  | .error e => .error e
  | .ok ctx =>
    if verifyRbacPermission cfg ctx.roles permission then .ok ctx
    else .error (.authorization ("Missing required permission: '" ++ permission ++ "'."))

/-! ## Requests -/

/-- What the investigation of a submission ends in. -/
inductive PipelineOutcome
  | failed (message errorCode : String)
  | finished (emailId verdict : String) (confidence : ℚ) (riskLevel : String)
      (iterations durationMs : ℤ)

/-- The requests. -/
inductive Request (τ : Type)
  | login (username password : String)
  | demoToken
  | runInvestigation (auth : Credentials τ) (subject sender : String) (outcome : PipelineOutcome)
  | getHistory (auth : Credentials τ)
  | getInvestigation (auth : Credentials τ) (id : String)
  | createUser (auth : Credentials τ) (username password : String) (roles : List String)
  | updateSystemConfig (auth : Credentials τ) (updates : List (String × JsonValue ℚ))

/-- A request, with the clock, the salt and the identifiers that are drawn for it. -/
structure Call (τ : Type) where
  request : Request τ
  now : ℚ
  salt : List UInt8
  userId : String
  investigationId : String
  metricId : String
  logId : String

/-- The answers. -/
inductive Reply (τ : Type)
  | tokens (accessToken refreshToken : τ)
  | completed (investigationId verdict : String) (confidence : ℚ) (riskLevel : String)
  | history (rows : List Investigation)
  | investigation (row : Investigation)
  | user (row : User)
  | updated (updates : List (String × JsonValue ℚ))

/-! ## The routes -/

/-- `audit_repo.log`, as the last thing a route does. -/
def logged (s : Server) (row : AuditLog) (reply : Reply τ) : Server × Except ApiError (Reply τ) :=
  match s.db.log row with
  | .error e => (s, .error (.integrity e))
  | .ok db => ({ s with db := db }, .ok reply)

/-- The account is locked. -/
def User.lockedAt (user : User) (now : ℚ) : Prop :=
  ∃ t, user.lockoutUntil = some t ∧ now < t

instance (user : User) (now : ℚ) : Decidable (user.lockedAt now) :=
  match h : user.lockoutUntil with
  | some t => decidable_of_iff (now < t) (by simp [User.lockedAt, h])
  | none => isFalse (by simp [User.lockedAt, h])

/-- The lockout after that many wrong passwords. -/
def lockoutAfter (failed : ℤ) (now : ℚ) : Option ℚ :=
  if 5 ≤ failed then some (now + 15 * 60) else none

/-- `POST /api/v1/auth/login`, handled while no other request is: the counter of wrong passwords is
read in one transaction and written in another. -/
def login (s : Server) (c : Call τ) (username password : String) :
    Server × Except ApiError (Reply τ) :=
  match s.db.getByUsername username with
  | none => (s, .error (.authentication "User not found."))
  | some user =>
    if user.isActive = false then (s, .error (.authentication "Account deactivated."))
    else if user.lockedAt c.now then
      (s, .error (.authentication "Account locked. Please try again later."))
    else if verifyPassword cfg password user.passwordHash = false then
      let failed := user.failedLoginAttempts + 1
      ({ s with db := s.db.updateLogin user.id failed (lockoutAfter failed c.now) },
        .error (.authentication "Invalid password."))
    else
      let s := { s with db := s.db.updateLogin user.id 0 none }
      match createJwtToken cfg s.overrides c.now user .none with
      | .error e => (s, .error e)
      | .ok accessToken =>
        match createJwtToken cfg s.overrides c.now user .depends with
        | .error e => (s, .error e)
        | .ok refreshToken =>
          logged s ⟨"log_" ++ c.logId, some user.orgId, some user.id, "user_login",
            some (.obj [("username", .str username)]), c.now⟩ (.tokens accessToken refreshToken)

def demoOrgId : String := "org_scamshield_demo"

def demoUsername : String := "analyst_demo"

/-- The organization of the demo, created if it is not there. -/
def demoOrganization (db : Database) (now : ℚ) :
    Except IntegrityError (Database × Organization) :=
  match db.getOrganization demoOrgId with
  | some org => .ok (db, org)
  | none =>
    let org : Organization := ⟨demoOrgId, "ScamShield Demo Tenant", now⟩
    (db.createOrganization org).map fun db => (db, org)

/-- The user of the demo, created if nobody has the name. -/
def demoUser (db : Database) (c : Call τ) (org : Organization) :
    Except ApiError (Database × User) :=
  match db.getByUsername demoUsername with
  | some user => .ok (db, user)
  | none =>
    match hashPassword cfg c.salt "demopassword123" with
    | none => .error .passwordError
    | some hashed =>
      let user : User := ⟨"user_analyst_demo", org.id, demoUsername, hashed, ["admin", "analyst"],
        true, 0, none, c.now⟩
      match db.createUser user with
      | .error e => .error (.integrity e)
      | .ok db => .ok (db, user)

/-- `POST /api/v1/auth/demo-token`. -/
def demoToken (s : Server) (c : Call τ) : Server × Except ApiError (Reply τ) :=
  match demoOrganization s.db c.now with
  | .error e => (s, .error (.integrity e))
  | .ok (db, org) =>
    let s := { s with db := db }
    match demoUser cfg s.db c org with
    | .error e => (s, .error e)
    | .ok (db, user) =>
      let s := { s with db := db }
      match createJwtToken cfg s.overrides c.now user .none with
      | .error e => (s, .error e)
      | .ok accessToken =>
        match createJwtToken cfg s.overrides c.now user .none with
        | .error e => (s, .error e)
        | .ok refreshToken => (s, .ok (.tokens accessToken refreshToken))

/-- `POST /api/v1/investigate`, with what the investigation ends in. -/
def runInvestigation (s : Server) (c : Call τ) (auth : Credentials τ) (subject sender : String)
    (outcome : PipelineOutcome) : Server × Except ApiError (Reply τ) :=
  match requirePermission cfg s c.now auth "investigation:create" with
  | .error e => (s, .error e)
  | .ok ctx =>
    match outcome with
    | .failed message errorCode => (s, .error (.apiException message errorCode))
    | .finished emailId verdict confidence riskLevel iterations durationMs =>
      let id := "inv_" ++ c.investigationId
      match s.db.saveInvestigation ⟨id, ctx.orgId, emailId, subject, sender, verdict, confidence,
          riskLevel, durationMs, c.now⟩ with
      | .error e => (s, .error (.integrity e))
      | .ok db =>
        let s := { s with db := db }
        match s.db.saveMetric ⟨"metric_" ++ c.metricId, ctx.orgId, id, riskLevel, iterations,
            durationMs, c.now⟩ with
        | .error e => (s, .error (.integrity e))
        | .ok db =>
          let s := { s with db := db }
          logged s ⟨"log_" ++ c.logId, some ctx.orgId, some ctx.identityId,
            "investigation_completed",
            some (.obj [("investigation_id", .str id), ("verdict", .str verdict)]), c.now⟩
            (.completed id verdict confidence riskLevel)

/-- `GET /api/v1/investigate`. -/
def getHistory (s : Server) (c : Call τ) (auth : Credentials τ) : Except ApiError (Reply τ) :=
  match requirePermission cfg s c.now auth "investigation:read" with
  | .error e => .error e
  | .ok ctx => .ok (.history (s.db.getHistory ctx.orgId 100))

/-- `GET /api/v1/investigate/{id}`. -/
def getInvestigation (s : Server) (c : Call τ) (auth : Credentials τ) (id : String) :
    Except ApiError (Reply τ) :=
  match requirePermission cfg s c.now auth "investigation:read" with
  | .error e => .error e
  | .ok ctx =>
    match s.db.getInvestigation id with
    | none => .error (.notFound "Investigation not found.")
    | some inv =>
      if verifyTenantIsolation cfg ctx.orgId inv.orgId ctx.roles then .ok (.investigation inv)
      else .error (.authorization "Access denied to this organization's records.")

/-- `POST /api/v1/admin/users`. -/
def createUser (s : Server) (c : Call τ) (auth : Credentials τ) (username password : String)
    (roles : List String) : Server × Except ApiError (Reply τ) :=
  match requirePermission cfg s c.now auth "user:write" with
  | .error e => (s, .error e)
  | .ok ctx =>
    match hashPassword cfg c.salt password with
    | none => (s, .error .passwordError)
    | some hashed =>
      let user : User :=
        ⟨"user_" ++ c.userId, ctx.orgId, username, hashed, roles, true, 0, none, c.now⟩
      match s.db.createUser user with
      | .error e => (s, .error (.integrity e))
      | .ok db =>
        logged { s with db := db } ⟨"log_" ++ c.logId, some ctx.orgId, some ctx.identityId,
          "user_created", some (.obj [("new_user", .str username),
            ("assigned_roles", .arr (roles.map .str))]), c.now⟩ (.user user)

/-- `settings.set_override`, for each of the updates. -/
def setOverrides (overrides : Dict String (JsonValue ℚ)) (updates : List (String × JsonValue ℚ)) :
    Dict String (JsonValue ℚ) :=
  updates.foldl (fun d u => d.set u.1 u.2) overrides

/-- `PUT /api/v1/admin/config`. -/
def updateSystemConfig (s : Server) (c : Call τ) (auth : Credentials τ)
    (updates : List (String × JsonValue ℚ)) : Server × Except ApiError (Reply τ) :=
  match requirePermission cfg s c.now auth "config:write" with
  | .error e => (s, .error e)
  | .ok ctx =>
    logged { s with overrides := setOverrides s.overrides updates } ⟨"log_" ++ c.logId,
      some ctx.orgId, some ctx.identityId, "config_updated",
      some (.obj [("updated_keys", .arr (updates.map fun u => .str u.1))]), c.now⟩ (.updated updates)

/-- One request. -/
def step (s : Server) (c : Call τ) : Server × Except ApiError (Reply τ) :=
  match c.request with
  | .login username password => login cfg s c username password
  | .demoToken => demoToken cfg s c
  | .runInvestigation auth subject sender outcome =>
    runInvestigation cfg s c auth subject sender outcome
  | .getHistory auth => (s, getHistory cfg s c auth)
  | .getInvestigation auth id => (s, getInvestigation cfg s c auth id)
  | .createUser auth username password roles => createUser cfg s c auth username password roles
  | .updateSystemConfig auth updates => updateSystemConfig cfg s c auth updates

/-! ## What the routes do -/

/-- The claims of a token that is issued without `expires_delta`. -/
def issuedClaims (cfg : Deployment τ) (now : ℚ) (user : User) : Claims :=
  ⟨user.id, user.orgId, user.roles, ⌊now + 60 * cfg.accessTokenExpireMinutes⌋, ⌊now⌋, ⌊now⌋⟩

/-- A token is signed for the claims of the user, or PyJWT raises. -/
theorem createJwtToken_none (overrides : Dict String (JsonValue ℚ)) (now : ℚ) (user : User) :
    createJwtToken cfg overrides now user .none = .error .typeError ∨
      ∃ key token, keyText (secretKey cfg overrides) = some key ∧
        cfg.jwt.encode key (issuedClaims cfg now user) = some token ∧
        createJwtToken cfg overrides now user .none = .ok token := by
  unfold createJwtToken expire
  cases keyText (secretKey cfg overrides) with
  | none => exact .inl rfl
  | some key =>
    dsimp only [Option.bind_some]
    cases htoken : cfg.jwt.encode key (issuedClaims cfg now user) with
    | none =>
      unfold issuedClaims at htoken
      rw [htoken]
      exact .inl rfl
    | some token =>
      refine .inr ⟨key, token, rfl, htoken, ?_⟩
      unfold issuedClaims at htoken
      rw [htoken]

/-- **What a login does**: nothing, or it counts a wrong password, or it clears the counter for a right
one and raises, since `expires_delta` is no `timedelta`. -/
theorem login_cases (s : Server) (c : Call τ) (username password : String) :
    (∃ e, e ≠ .authentication "Invalid password." ∧ login cfg s c username password = (s, .error e)) ∨
      ∃ user, s.db.getByUsername username = some user ∧ user.isActive = true ∧
        ¬user.lockedAt c.now ∧
        ((verifyPassword cfg password user.passwordHash = false ∧
            login cfg s c username password =
              (⟨s.db.updateLogin user.id (user.failedLoginAttempts + 1)
                  (lockoutAfter (user.failedLoginAttempts + 1) c.now), s.overrides⟩,
                .error (.authentication "Invalid password."))) ∨
          (verifyPassword cfg password user.passwordHash = true ∧
            login cfg s c username password =
              (⟨s.db.updateLogin user.id 0 none, s.overrides⟩, .error .typeError))) := by
  unfold login
  cases s.db.getByUsername username with
  | none => exact .inl ⟨_, by decide, rfl⟩
  | some user =>
    dsimp only
    by_cases hactive : user.isActive = true
    · rw [if_neg fun h => Bool.false_ne_true (h.symm.trans hactive)]
      by_cases hlocked : user.lockedAt c.now
      · rw [if_pos hlocked]
        exact .inl ⟨_, by decide, rfl⟩
      · rw [if_neg hlocked]
        refine .inr ⟨user, rfl, hactive, hlocked, ?_⟩
        cases hverify : verifyPassword cfg password user.passwordHash with
        | false => exact .inl ⟨rfl, if_pos rfl⟩
        | true =>
          right
          refine ⟨rfl, ?_⟩
          rw [if_neg fun h => Bool.false_ne_true h.symm]
          rcases createJwtToken_none cfg s.overrides c.now user with herror | ⟨-, token, -, -, hok⟩
          · rw [herror]
          · rw [hok]
            rfl
    · rw [if_pos (Bool.not_eq_true _ ▸ hactive)]
      exact .inl ⟨_, by decide, rfl⟩

end Routes

end ScamOn.Api
