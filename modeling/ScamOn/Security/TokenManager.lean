import Mathlib.Algebra.Order.Floor.Ring
import Mathlib.Data.Rat.Floor
import ScamOn.Lib.Text

/-!
# Tokens

`TokenManager` issues pairs of an access token and a refresh token, decodes them, and
keeps the identifiers of those that were revoked.  `AuthenticationService` trades a
refresh token for a new pair and revokes the access token at a logout.

* `Rs256` is PyJWT with the key pair, as a parameter: what is read from a token that was
  signed here is what was signed, and a token is accepted while its claims are in force.
* `createAccessToken`, `createTokenPair`, `decodeToken`, `refreshSession` and `logout`
  follow the source.
* `decodeToken_eq_ok_iff` says which tokens are accepted.
-/

namespace ScamOn.Security

/-! ## Roles and permissions -/

inductive Role
  | superAdmin | admin | analyst | auditor
  deriving DecidableEq, Repr

def Role.value : Role → String
  | .superAdmin => "SUPER_ADMIN"
  | .admin => "ADMIN"
  | .analyst => "ANALYST"
  | .auditor => "AUDITOR"

/-- `Role(value)`; `none` is a `ValueError`. -/
def Role.ofValue? (value : String) : Option Role :=
  [Role.superAdmin, .admin, .analyst, .auditor].find? (·.value = value)

@[simp] theorem Role.ofValue?_value (r : Role) : Role.ofValue? r.value = some r := by
  cases r <;> decide

inductive Permission
  | readIncident | remediateIncident | managePolicy | manageUsers | viewAudit
  deriving DecidableEq, Repr

def Permission.value : Permission → String
  | .readIncident => "READ_INCIDENT"
  | .remediateIncident => "REMEDIATE_INCIDENT"
  | .managePolicy => "MANAGE_POLICY"
  | .manageUsers => "MANAGE_USERS"
  | .viewAudit => "VIEW_AUDIT"

/-- `ROLE_PERMISSIONS_MAP`. -/
def rolePermissionsMap : Role → List Permission
  | .superAdmin => [.readIncident, .remediateIncident, .managePolicy, .manageUsers, .viewAudit]
  | .admin => [.readIncident, .remediateIncident, .managePolicy, .manageUsers, .viewAudit]
  | .analyst => [.readIncident, .remediateIncident, .viewAudit]
  | .auditor => [.readIncident, .viewAudit]

/-- The order in which the sets of the map are iterated over. -/
structure SetOrder where
  members : Role → List Permission
  perm : ∀ role, (members role).Perm (rolePermissionsMap role)

/-- `[p.value for p in granted]`. -/
def SetOrder.granted (order : SetOrder) (role : Role) : List String :=
  (order.members role).map Permission.value

/-- No role is without permissions. -/
theorem SetOrder.granted_ne_nil (order : SetOrder) (role : Role) : order.granted role ≠ [] := by
  intro h
  have hnil : order.members role = [] := List.map_eq_nil_iff.1 h
  have hperm := order.perm role
  rw [hnil] at hperm
  cases role <;> exact absurd hperm.symm (List.not_perm_nil_cons _ _ ·.symm)

/-! ## Signed tokens -/

/-- The payload of a token.  A refresh token has no list of permissions. -/
structure RawPayload where
  sub : Uuid
  tenantId : Uuid
  email : String
  role : Role
  permissions : Option (List String)
  tokenType : String
  jti : Uuid
  iat : ℤ
  nbf : ℤ
  exp : ℤ
  iss : String
  deriving DecidableEq

def issuer : String := "scamon.enterprise"

/-- The claims of a payload are good at a time. -/
def RawPayload.InForce (p : RawPayload) (now : ℚ) : Prop :=
  (p.iat : ℚ) ≤ now ∧ (p.nbf : ℚ) ≤ now ∧ now < p.exp ∧ p.iss = issuer

instance (p : RawPayload) (now : ℚ) : Decidable (p.InForce now) :=
  inferInstanceAs (Decidable (_ ∧ _))

/-- `ExpiredSignatureError`, or another `PyJWTError`. -/
inductive PyJwtError
  | expiredSignature
  | other (text : String)

/-- RS256 with the key pair of the manager: `read` is the payload under a good signature, and
`decode` is `jwt.decode` with the issuer, which checks the claims as well. -/
structure Rs256 (τ : Type) where
  encode : RawPayload → τ
  read : τ → Except String RawPayload
  decode : ℚ → τ → Except PyJwtError RawPayload
  read_encode : ∀ payload, read (encode payload) = .ok payload
  decode_eq_ok_iff : ∀ now token p,
    decode now token = .ok p ↔ read token = .ok p ∧ p.InForce now

variable {τ : Type} (jwt : Rs256 τ) (order : SetOrder)

/-- What leaves a call that fails. -/
inductive SecurityError
  | tokenExpired (message : String)
  | invalidToken (message : String)
  | valueError (message : String)
  deriving DecidableEq

/-! ## The manager -/

/-- `TokenManager`, with the store of its `TokenRevocationManager`. -/
structure TokenManager where
  accessTokenExpireSeconds : ℤ
  refreshTokenExpireSeconds : ℤ
  revokedJtis : List Uuid

/-- `TokenManager.__init__`. -/
def TokenManager.init (accessTokenExpireMinutes refreshTokenExpireDays : ℤ) : TokenManager where
  accessTokenExpireSeconds := accessTokenExpireMinutes * 60
  refreshTokenExpireSeconds := refreshTokenExpireDays * 24 * 3600
  revokedJtis := []

/-- Whom a token is for. -/
structure Subject where
  userId : Uuid
  tenantId : Uuid
  email : String

/-- What issuing a pair draws: two identifiers, and two readings of the clock. -/
structure Minting where
  accessJti : Uuid
  refreshJti : Uuid
  accessAt : ℚ
  refreshAt : ℚ

/-- `TokenPairDTO`. -/
structure TokenPair (τ : Type) where
  accessToken : τ
  refreshToken : τ
  tokenType : String
  expiresIn : ℤ

/-- `TokenPayloadDTO`. -/
structure TokenPayload where
  sub : Uuid
  tenantId : Uuid
  email : String
  role : Role
  permissions : List String
  tokenType : String
  jti : Uuid
  exp : ℤ
  iat : ℤ
  deriving DecidableEq

namespace TokenManager

/-- The payload that `create_access_token` signs.  The clock is never negative, so that `int` is
the floor. -/
def accessPayload (m : TokenManager) (d : Minting) (who : Subject) (role : Role)
    (permissions : Option (List String)) : RawPayload where
  sub := who.userId
  tenantId := who.tenantId
  email := who.email
  role := role
  permissions := some (permissions.getD (order.granted role))
  tokenType := "access"
  jti := d.accessJti
  iat := ⌊d.accessAt⌋
  nbf := ⌊d.accessAt⌋
  exp := ⌊d.accessAt⌋ + m.accessTokenExpireSeconds
  iss := issuer

/-- The payload that `create_refresh_token` signs. -/
def refreshPayload (m : TokenManager) (d : Minting) (who : Subject) (role : Role) : RawPayload where
  sub := who.userId
  tenantId := who.tenantId
  email := who.email
  role := role
  permissions := none
  tokenType := "refresh"
  jti := d.refreshJti
  iat := ⌊d.refreshAt⌋
  nbf := ⌊d.refreshAt⌋
  exp := ⌊d.refreshAt⌋ + m.refreshTokenExpireSeconds
  iss := issuer

/-- `Role(role)`. -/
def roleEnum (role : String) : Except SecurityError Role :=
  match Role.ofValue? role with
  | some r => .ok r
  | none => .error (.valueError ("'" ++ role ++ "' is not a valid Role"))

/-- `create_access_token`. -/
def createAccessToken (m : TokenManager) (d : Minting) (who : Subject) (role : String)
    (permissions : Option (List String)) : Except SecurityError (τ × Uuid × ℤ) := do
  let r ← roleEnum role
  return (jwt.encode (m.accessPayload order d who r permissions), d.accessJti,
    m.accessTokenExpireSeconds)

/-- `create_refresh_token`. -/
def createRefreshToken (m : TokenManager) (d : Minting) (who : Subject) (role : String) :
    Except SecurityError (τ × Uuid × ℤ) := do
  let r ← roleEnum role
  return (jwt.encode (m.refreshPayload d who r), d.refreshJti, m.refreshTokenExpireSeconds)

/-- `create_token_pair`. -/
def createTokenPair (m : TokenManager) (d : Minting) (who : Subject) (role : String)
    (permissions : Option (List String)) : Except SecurityError (TokenPair τ) := do
  let (accessTok, _, expiresIn) ← m.createAccessToken jwt order d who role permissions
  let (refreshTok, _, _) ← m.createRefreshToken jwt d who role
  return { accessToken := accessTok, refreshToken := refreshTok, tokenType := "Bearer",
           expiresIn := expiresIn }

/-- The permissions that `decode_token` reports. -/
def decodedPermissions (p : RawPayload) (expectedType : String) : List String :=
  let permissions := p.permissions.getD []
  if permissions = [] ∧ expectedType = "access" then order.granted p.role else permissions

/-- `decode_token`. -/
def decodeToken (m : TokenManager) (now : ℚ) (token : τ) (expectedType : String) :
    Except SecurityError TokenPayload :=
  match jwt.decode now token with
  | .error .expiredSignature => .error (.tokenExpired "JWT token signature has expired")
  | .error (.other text) => .error (.invalidToken ("Invalid JWT token: " ++ text))
  | .ok p =>
    if p.tokenType ≠ expectedType then
      .error (.invalidToken ("Invalid token type '" ++ p.tokenType ++ "', expected '" ++
        expectedType ++ "'"))
    else if p.jti ∈ m.revokedJtis then .error (.invalidToken "JWT token has been revoked")
    else
      .ok {
        sub := p.sub
        tenantId := p.tenantId
        email := p.email
        role := p.role
        permissions := decodedPermissions order p expectedType
        tokenType := p.tokenType
        jti := p.jti
        exp := p.exp
        iat := p.iat }

/-- `revoke_token`. -/
def revokeToken (m : TokenManager) (jti : Uuid) : TokenManager :=
  { m with revokedJtis := jti :: m.revokedJtis }

end TokenManager

/-! ## The service -/

/-- `refresh_session`: the clock is read when the token is decoded, when the pair is issued, and
when the new access token is decoded. -/
def refreshSession (m : TokenManager) (refreshToken : τ) (decodedAt : ℚ) (d : Minting)
    (checkedAt : ℚ) : TokenManager × Except SecurityError (TokenPair τ) :=
  match m.decodeToken jwt order decodedAt refreshToken "refresh" with
  | .error e => (m, .error e)
  | .ok payload =>
    let m' := m.revokeToken payload.jti
    let who : Subject := ⟨payload.sub, payload.tenantId, payload.email⟩
    (m', do
      let tokens ← m'.createTokenPair jwt order d who payload.role.value none
      let _ ← m'.decodeToken jwt order checkedAt tokens.accessToken "access"
      return tokens)

/-- `logout`. -/
def logout (m : TokenManager) (accessToken : τ) (now : ℚ) : TokenManager × Except SecurityError Unit :=
  match m.decodeToken jwt order now accessToken "access" with
  | .error e => (m, .error e)
  | .ok payload => (m.revokeToken payload.jti, .ok ())

/-! ## What is accepted -/

/-- A token with this payload is accepted at a time, as a token of a type. -/
structure TokenManager.Accepts (m : TokenManager) (p : RawPayload) (now : ℚ) (expectedType : String) :
    Prop where
  inForce : p.InForce now
  type_eq : p.tokenType = expectedType
  notRevoked : p.jti ∉ m.revokedJtis

/-- **Which tokens are accepted**, and as what. -/
theorem decodeToken_eq_ok_iff {m : TokenManager} {now : ℚ} {token : τ} {expectedType : String}
    {r : TokenPayload} :
    m.decodeToken jwt order now token expectedType = .ok r ↔
      ∃ p, jwt.read token = .ok p ∧ m.Accepts p now expectedType ∧
        r = ⟨p.sub, p.tenantId, p.email, p.role,
          TokenManager.decodedPermissions order p expectedType, p.tokenType, p.jti, p.exp, p.iat⟩ := by
  unfold TokenManager.decodeToken
  constructor
  · intro h
    split at h
    · cases h
    · cases h
    · next p hdecode =>
      obtain ⟨hread, hforce⟩ := (jwt.decode_eq_ok_iff now token p).1 hdecode
      split_ifs at h with htype hrevoked
      cases h
      exact ⟨p, hread, ⟨hforce, not_not.1 htype, hrevoked⟩, rfl⟩
  · rintro ⟨p, hread, ⟨hforce, htype, hrevoked⟩, rfl⟩
    rw [(jwt.decode_eq_ok_iff now token p).2 ⟨hread, hforce⟩]
    simp [htype, hrevoked]

end ScamOn.Security
