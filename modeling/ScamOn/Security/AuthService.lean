import Mathlib.Data.List.Nodup
import ScamOn.Lib.UniqueTable
import ScamOn.Security.Password
import ScamOn.Security.Sessions

/-!
# Logging in

`authenticate_credentials` finds the tenant and the user for an address, checks the
password and issues a pair of tokens.  The user records of the ORM have no password;
tests attach one.

* `resolveUser` is everything before the check, `checkPassword` the check,
  `authenticateCredentials` the whole call.
* `Guarded` says when the check of a user lets only the user's own passwords pass.
* `login_needs_password_iff`: a call is sound exactly if the user it finds is guarded.
* `logins_without_password`: any password logs in for a record of the ORM, and the stored
  text logs in for a record with a password.
-/

namespace ScamOn.Security

variable {τ : Type}

/-! ## Data -/

/-- `Tenant`, as far as the service reads it. -/
structure Tenant where
  id : Uuid
  domainName : String
  status : String

/-- `User`, with the attribute `password_hash` if the record carries one. -/
structure User where
  id : Uuid
  tenantId : Uuid
  email : String
  displayName : String
  role : String
  status : String
  passwordHash : Option String

/-- The rows of the database: the id is the primary key of the users, and a password that a
record carries was written by `hash_password`. -/
structure Database (pbkdf2 : Pbkdf2) where
  tenants : List Tenant
  users : List User
  userIds : (users.map User.id).Nodup
  written : ∀ user ∈ users, ∀ h, user.passwordHash = some h → ∃ q, Produced pbkdf2 h q

/-- `AuthenticatedUser`. -/
structure AuthenticatedUser where
  userId : Uuid
  tenantId : Uuid
  email : String
  displayName : String
  role : Role
  permissions : List String

/-- What leaves a login that fails. -/
inductive LoginError
  | authentication (message : String)
  | accountLocked (message : String)
  /-- `hmac.compare_digest` raises. -/
  | typeError
  /-- `scalar_one_or_none` finds several rows. -/
  | multipleResultsFound
  | token (e : SecurityError)

/-! ## The service -/

section Service

/- `lower` is `str.lower`. -/
variable (lower : String → String) {pbkdf2 : Pbkdf2}

/-- `get_by_domain`. -/
def Database.getByDomain (db : Database pbkdf2) (domainName : String) :
    Except LoginError (Option Tenant) :=
  scalarOneOrNone .multipleResultsFound (db.tenants.filter (·.domainName = lower domainName))

/-- `get_by_email`. -/
def Database.getByEmail (db : Database pbkdf2) (tenantId : Uuid) (email : String) :
    Except LoginError (Option User) :=
  scalarOneOrNone .multipleResultsFound (db.users.filter fun u => u.tenantId = tenantId ∧ u.email = lower email)

/-- The tenant of a login. -/
def resolveTenant (db : Database pbkdf2) (email : String) (tenantDomain : Option String) :
    Except LoginError (Option Tenant) :=
  match tenantDomain.filter (· ≠ "") with
  | some domain => db.getByDomain lower domain
  | none =>
    match (db.users.take 10).find? fun u => lower u.email = lower email with
    | none => .ok none
    | some target => .ok (db.tenants.find? (·.id = target.tenantId))

/-- The user whose password is checked. -/
def resolveUser (db : Database pbkdf2) (email : String) (tenantDomain : Option String) :
    Except LoginError (Tenant × User) := do
  match ← resolveTenant lower db email tenantDomain with
  | none => throw (.authentication "Invalid tenant or inactive tenant domain")
  | some tenant =>
    if tenant.status ≠ "ACTIVE" then
      throw (.authentication "Invalid tenant or inactive tenant domain")
    match ← db.getByEmail lower tenant.id email with
    | none => throw (.authentication "Invalid email or password")
    | some user =>
      if user.status = "SUSPENDED" ∨ user.status = "LOCKED" then
        throw (.accountLocked ("User account is " ++ lower user.status))
      return (tenant, user)

/-- Whether the password is valid; `none` is a `TypeError`. -/
def checkPassword (pbkdf2 : Pbkdf2) (user : User) (password : String) : Option Bool := do
  let isValid ← verifyPassword pbkdf2 password (user.passwordHash.getD password)
  match user.passwordHash with
  | none => return isValid
  | some h => return isValid || decide (password = h)

/-- `authenticate_credentials`. -/
def authenticateCredentials (jwt : Rs256 τ) (order : SetOrder) (m : TokenManager)
    (db : Database pbkdf2) (email password : String) (tenantDomain : Option String) (d : Minting) :
    Except LoginError (AuthenticatedUser × TokenPair τ) :=
  match resolveUser lower db email tenantDomain with
  | .error e => .error e
  | .ok (tenant, user) =>
    match checkPassword pbkdf2 user password with
    | none => .error .typeError
    | some false => .error (.authentication "Invalid email or password")
    | some true =>
      let roleEnum := (Role.ofValue? user.role).getD .analyst
      let permissions := order.granted roleEnum
      match m.createTokenPair jwt order d ⟨user.id, tenant.id, user.email⟩ roleEnum.value
          (some permissions) with
      | .error e => .error (.token e)
      | .ok tokens =>
        .ok ({
          userId := user.id
          tenantId := tenant.id
          email := user.email
          displayName := user.displayName
          role := roleEnum
          permissions := permissions }, tokens)

end Service

/-! ## Who gets in -/

section Soundness

variable {lower : String → String} {pbkdf2 : Pbkdf2} {jwt : Rs256 τ} {order : SetOrder}
  {m : TokenManager}

theorem resolveUser_mem {db : Database pbkdf2} {email : String} {tenantDomain : Option String}
    {tenant : Tenant} {user : User} (h : resolveUser lower db email tenantDomain = .ok (tenant, user)) :
    user ∈ db.users := by
  unfold resolveUser at h
  cases htenant : resolveTenant lower db email tenantDomain with
  | error e =>
    rw [htenant] at h
    cases h
  | ok found =>
    rw [htenant] at h
    cases found with
    | none => cases h
    | some t =>
      simp only [bind, Except.bind] at h
      split_ifs at h with hactive
      cases huser : db.getByEmail lower t.id email with
      | error e =>
        rw [huser] at h
        cases h
      | ok u =>
        rw [huser] at h
        cases u with
        | none => cases h
        | some u =>
          dsimp only at h
          split_ifs at h with hlocked
          cases h
          exact List.mem_of_mem_filter (scalarOneOrNone_mem huser)

/-- The call succeeds for the user that it finds, if the password is valid. -/
theorem authenticateCredentials_ok_iff {db : Database pbkdf2} {email password : String}
    {tenantDomain : Option String} {d : Minting} {id : Uuid} :
    (∃ auth tokens, authenticateCredentials lower jwt order m db email password tenantDomain d =
        .ok (auth, tokens) ∧ auth.userId = id) ↔
      ∃ tenant user, resolveUser lower db email tenantDomain = .ok (tenant, user) ∧ user.id = id ∧
        checkPassword pbkdf2 user password = some true := by
  unfold authenticateCredentials
  cases hresolve : resolveUser lower db email tenantDomain with
  | error e => simp
  | ok found =>
    obtain ⟨tenant, user⟩ := found
    cases hcheck : checkPassword pbkdf2 user password with
    | none => simp [hcheck]
    | some valid =>
      cases valid with
      | false => simp [hcheck]
      | true =>
        have hpair : ∃ tokens, m.createTokenPair jwt order d ⟨user.id, tenant.id, user.email⟩
            ((Role.ofValue? user.role).getD .analyst).value
            (some (order.granted ((Role.ofValue? user.role).getD .analyst))) = .ok tokens := by
          unfold TokenManager.createTokenPair TokenManager.createAccessToken
            TokenManager.createRefreshToken TokenManager.roleEnum
          rw [Role.ofValue?_value]
          exact ⟨_, rfl⟩
        obtain ⟨tokens, htokens⟩ := hpair
        simp [hcheck, htokens]

/-- The check of this user lets only the user's own passwords pass: without a stored password it
lets none pass, and with one the password is not the stored text itself. -/
def Guarded (pbkdf2 : Pbkdf2) (user : User) (password : String) : Prop :=
  match user.passwordHash with
  | none => password = "" ∨
      if isPbkdf2 password then ¬HashesItself pbkdf2 password
      else Chars.allAscii password.toList = false
  | some h => password = h → Produced pbkdf2 h password

/-- The password is one for which a stored password of the user was written. -/
def OwnPassword (pbkdf2 : Pbkdf2) (user : User) (password : String) : Prop :=
  ∃ h, user.passwordHash = some h ∧ Produced pbkdf2 h password

/-- **The check is sound** exactly for the users that are guarded. -/
theorem checkPassword_sound_iff {user : User}
    (hwritten : ∀ h, user.passwordHash = some h → ∃ q, Produced pbkdf2 h q) (password : String) :
    (checkPassword pbkdf2 user password = some true → OwnPassword pbkdf2 user password) ↔
      Guarded pbkdf2 user password := by
  unfold Guarded OwnPassword
  cases hstored : user.passwordHash with
  | none =>
    have hcheck : checkPassword pbkdf2 user password = verifyPassword pbkdf2 password password := by
      unfold checkPassword
      rw [hstored]
      exact bind_pure _
    rw [hcheck, verifyPassword_self]
    by_cases hempty : password = ""
    · simp [hempty]
    · cases isPbkdf2 password <;> simp [hempty]
  | some h =>
    obtain ⟨b, hverify, hb⟩ := verifyPassword_written pbkdf2 (hwritten h hstored) password
    have hcheck : checkPassword pbkdf2 user password = some (b || decide (password = h)) := by
      unfold checkPassword
      rw [hstored, Option.getD_some, hverify]
      rfl
    simp only [hcheck, Option.some.injEq, exists_eq_left']
    rw [← hb]
    cases b <;> simp

/-- **Login needs the user's own password** exactly if the user that the call finds is guarded.
Two passwords that log in as one user have the same key then, for the salt that is stored. -/
theorem login_needs_password_iff (lower : String → String) (pbkdf2 : Pbkdf2) (jwt : Rs256 τ)
    (order : SetOrder) (m : TokenManager) (db : Database pbkdf2) :
    (∀ email password tenantDomain d,
      (∀ auth tokens, authenticateCredentials lower jwt order m db email password tenantDomain d =
          .ok (auth, tokens) →
        ∃ user ∈ db.users, user.id = auth.userId ∧ OwnPassword pbkdf2 user password) ↔
      ∀ tenant user, resolveUser lower db email tenantDomain = .ok (tenant, user) →
        Guarded pbkdf2 user password) ∧
    ∀ user ∈ db.users, ∀ password password', OwnPassword pbkdf2 user password →
      OwnPassword pbkdf2 user password' →
      ∃ salt key, pbkdf2 password salt iterations = some key ∧
        pbkdf2 password' salt iterations = some key := by
  have hsame : ∀ user ∈ db.users, ∀ user' ∈ db.users, user.id = user'.id → user = user' :=
    fun user hu user' hu' heq => List.inj_on_of_nodup_map db.userIds hu hu' heq
  constructor
  · intro email password tenantDomain d
    constructor
    · intro hsound tenant user hresolve
      have hmem := resolveUser_mem hresolve
      rw [← checkPassword_sound_iff (db.written user hmem) password]
      intro hcheck
      obtain ⟨auth, tokens, hok, hid⟩ : ∃ auth tokens, authenticateCredentials lower jwt order m db
          email password tenantDomain d = .ok (auth, tokens) ∧ auth.userId = user.id :=
        authenticateCredentials_ok_iff.2 ⟨tenant, user, hresolve, rfl, hcheck⟩
      obtain ⟨user', hmem', hid', hown⟩ := hsound auth tokens hok
      rwa [hsame user' hmem' user hmem (hid'.trans hid)] at hown
    · intro hguarded auth tokens hok
      obtain ⟨tenant, user, hresolve, hid, hcheck⟩ :=
        authenticateCredentials_ok_iff.1 ⟨auth, tokens, hok, rfl⟩
      have hmem := resolveUser_mem hresolve
      exact ⟨user, hmem, hid, (checkPassword_sound_iff (db.written user hmem) password).2
        (hguarded tenant user hresolve) hcheck⟩
  · rintro user - password password' ⟨h, hstored, salt, hsalt⟩ ⟨h', hstored', salt', hsalt'⟩
    rw [hstored] at hstored'
    cases hstored'
    obtain ⟨key, hkey, rfl⟩ := Option.map_eq_some_iff.1 hsalt
    obtain ⟨key', hkey', htext⟩ := Option.map_eq_some_iff.1 hsalt'
    have hread := parseHash_hashText salt' key'
    rw [htext, parseHash_hashText] at hread
    cases hread
    exact ⟨salt, key, hkey, hkey'⟩

end Soundness

/-! ### Other passwords that log in -/

/-- A key derivation without collisions. -/
def samplePbkdf2 : Pbkdf2 := fun password salt n =>
  if 1 ≤ n then some (salt ++ Percent.encodeUtf8 password.toList) else none

theorem samplePbkdf2_inj {p q : String} {salt key : List UInt8} {n : ℤ}
    (hp : samplePbkdf2 p salt n = some key) (hq : samplePbkdf2 q salt n = some key) : p = q := by
  unfold samplePbkdf2 at hp hq
  split_ifs at hp hq
  have heq := List.append_cancel_left ((Option.some.inj hp).trans (Option.some.inj hq).symm)
  have hchars := congrArg Percent.decodeUtf8 heq
  rw [Percent.decodeUtf8_encodeUtf8, Percent.decodeUtf8_encodeUtf8] at hchars
  exact String.toList_injective hchars

def sampleTenant : Tenant := ⟨.ofNat 1, "a.com", "ACTIVE"⟩

def sampleUser (passwordHash : Option String) : User where
  id := .ofNat 2
  tenantId := .ofNat 1
  email := "x@a.com"
  displayName := "X"
  role := "ANALYST"
  status := "ACTIVE"
  passwordHash := passwordHash

/-- The text that `hash_password` writes for a password, with an empty salt. -/
def sampleHash (password : String) : String := hashText [] (Percent.encodeUtf8 password.toList)

theorem produced_sampleHash (password : String) :
    Produced samplePbkdf2 (sampleHash password) password := ⟨[], rfl⟩

/-- The database with that user. -/
def sampleDatabase (stored : Option String) : Database samplePbkdf2 where
  tenants := [sampleTenant]
  users := [sampleUser (stored.map sampleHash)]
  userIds := List.nodup_singleton _
  written user huser h hstored := by
    rw [List.mem_singleton.1 huser] at hstored
    obtain ⟨password, -, rfl⟩ := Option.map_eq_some_iff.1 hstored
    exact ⟨password, produced_sampleHash password⟩

theorem resolve_sampleUser (stored : Option String) :
    resolveUser Text.asciiLower (sampleDatabase stored) "x@a.com" (some "a.com") =
      .ok (sampleTenant, sampleUser (stored.map sampleHash)) := by
  rfl

/-- A login at the tenant's domain. -/
def sampleLogin (stored : Option String) (password : String) :
    Except LoginError (AuthenticatedUser × TokenPair RawPayload) :=
  authenticateCredentials Text.asciiLower plainJwt writtenOrder (.init 30 7) (sampleDatabase stored)
    "x@a.com" password (some "a.com") (sampleMinting 0)

theorem sampleLogin_ok {stored : Option String} {password : String}
    (h : checkPassword samplePbkdf2 (sampleUser (stored.map sampleHash)) password = some true) :
    ∃ auth tokens, sampleLogin stored password = .ok (auth, tokens) ∧ auth.userId = Uuid.ofNat 2 :=
  authenticateCredentials_ok_iff.2 ⟨_, _, resolve_sampleUser stored, rfl, h⟩

theorem not_ownPassword_sampleHash :
    ¬OwnPassword samplePbkdf2 (sampleUser (some (sampleHash "s"))) (sampleHash "s") := by
  rintro ⟨h, hstored, salt, hproduced⟩
  cases hstored
  obtain ⟨key, hkey, htext⟩ := Option.map_eq_some_iff.1 hproduced
  have hread := parseHash_hashText salt key
  rw [htext, sampleHash, parseHash_hashText] at hread
  cases hread
  have hsame : sampleHash "s" = "s" := samplePbkdf2_inj hkey rfl
  have hprefix : isPbkdf2 (sampleHash "s") = true := isPbkdf2_hashText _ _
  rw [hsame] at hprefix
  exact absurd hprefix (by decide +kernel)

/-- **Two different passwords log in** as a user whose record has none, and the text that is stored
for a user logs in as that user. -/
theorem logins_without_password :
    (∀ password ∈ ["a", "b"], (∃ auth tokens, sampleLogin none password = .ok (auth, tokens) ∧
        auth.userId = Uuid.ofNat 2) ∧ ¬OwnPassword samplePbkdf2 (sampleUser none) password) ∧
      (∃ auth tokens, sampleLogin (some "s") (sampleHash "s") = .ok (auth, tokens) ∧
        auth.userId = Uuid.ofNat 2) ∧
      ¬OwnPassword samplePbkdf2 (sampleUser (some (sampleHash "s"))) (sampleHash "s") := by
  refine ⟨fun password hpassword => ⟨sampleLogin_ok ?_, ?_⟩, sampleLogin_ok ?_,
    not_ownPassword_sampleHash⟩
  · have hall : ∀ password ∈ ["a", "b"],
        checkPassword samplePbkdf2 (sampleUser none) password = some true := by decide +kernel
    exact hall password hpassword
  · rintro ⟨h, hstored, -⟩
    cases hstored
  · decide +kernel

end ScamOn.Security
