import ScamOn.Security.AuthService

/-!
# Logging in with and without a domain

Without a domain, `authenticate_credentials` looks for the user among the first ten rows of all
users; with one, it looks for the tenant first.  Either way the user is then looked up by the e-mail
in lower case.

* `Stored` are the constraints of the tables, `Belongs` says whose e-mail it is.
* `ActsOn` says which tenant and which user a call works with.
* `routes_agree_iff`: the two calls work with the user and agree exactly if the user is among the
  first ten, and domain and e-mail are stored in lower case.
-/

namespace ScamOn.Security

variable {τ : Type} {lower : String → String} {pbkdf2 : Pbkdf2}

/-- The constraints of the table of tenants: ids and domains are unique. -/
structure Stored (db : Database pbkdf2) : Prop where
  tenantIds : (db.tenants.map Tenant.id).Nodup
  domains : (db.tenants.map Tenant.domainName).Nodup

/-- The e-mail belongs to exactly this user. -/
structure Belongs (lower : String → String) (db : Database pbkdf2) (email : String) (user : User) :
    Prop where
  mem : user ∈ db.users
  same : lower user.email = lower email
  unique : ∀ other ∈ db.users, lower other.email = lower email → other = user

/-- The call finds the tenant, and looks up the user if the tenant is active. -/
structure ActsOn (lower : String → String) (db : Database pbkdf2) (email : String)
    (tenantDomain : Option String) (tenant : Tenant) (user : User) : Prop where
  finds : resolveTenant lower db email tenantDomain = .ok (some tenant)
  looksUp : tenant.status = "ACTIVE" → db.getByEmail lower tenant.id email = .ok (some user)

/-- **Both routes lead to the user**, and have the same outcome. -/
structure RoutesAgree (lower : String → String) (jwt : Rs256 τ) (order : SetOrder)
    (m : TokenManager) (db : Database pbkdf2) (email : String) (tenant : Tenant) (user : User) :
    Prop where
  outcome : ∀ password d, authenticateCredentials lower jwt order m db email password none d =
    authenticateCredentials lower jwt order m db email password (some tenant.domainName) d
  without : ActsOn lower db email none tenant user
  within : ActsOn lower db email (some tenant.domainName) tenant user

/-! ## The lookups -/

variable {db : Database pbkdf2} {email : String} {tenant : Tenant} {user : User}

/-- A row that is alone in meeting a condition. -/
theorem filter_eq_singleton {α : Type} {p : α → Bool} {l : List α} {a : α} (hl : l.Nodup)
    (hmem : a ∈ l) (hp : p a = true) (hunique : ∀ b ∈ l, p b = true → b = a) : l.filter p = [a] := by
  have hperm : (l.filter p).Perm [a] := by
    refine (List.perm_ext_iff_of_nodup (hl.filter p) (List.nodup_singleton a)).2 fun b => ?_
    rw [List.mem_filter, List.mem_singleton]
    constructor
    · rintro ⟨hb, hpb⟩
      exact hunique b hb hpb
    · rintro rfl
      exact ⟨hmem, hp⟩
  exact List.perm_singleton.1 hperm

theorem find?_tenant (hstored : Stored db) (hmem : tenant ∈ db.tenants) :
    db.tenants.find? (·.id = tenant.id) = some tenant := by
  cases hfind : db.tenants.find? (·.id = tenant.id) with
  | none =>
    have hnone := List.find?_eq_none.1 hfind tenant hmem
    simp at hnone
  | some other =>
    have hid : other.id = tenant.id := by simpa using List.find?_some hfind
    rw [List.inj_on_of_nodup_map hstored.tenantIds (List.mem_of_find?_eq_some hfind) hmem hid]

/-- Without a domain, the user has to be among the first ten. -/
theorem resolveTenant_none_iff (hstored : Stored db) (hbelongs : Belongs lower db email user)
    (hmem : tenant ∈ db.tenants) (hid : tenant.id = user.tenantId) :
    resolveTenant lower db email none = .ok (some tenant) ↔ user ∈ db.users.take 10 := by
  unfold resolveTenant
  rw [Option.filter_none]
  dsimp only
  cases hfind : (db.users.take 10).find? fun u => lower u.email = lower email with
  | none =>
    refine iff_of_false (fun h => by cases h) fun hfirst => ?_
    have hnone := List.find?_eq_none.1 hfind user hfirst
    simp [hbelongs.same] at hnone
  | some target =>
    have htarget := List.mem_of_find?_eq_some hfind
    have hemail : lower target.email = lower email := by simpa using List.find?_some hfind
    obtain rfl := hbelongs.unique target (List.mem_of_mem_take htarget) hemail
    refine iff_of_true ?_ htarget
    dsimp only
    rw [← hid, find?_tenant hstored hmem]

/-- With the domain of the tenant, it has to be stored in lower case. -/
theorem resolveTenant_some_iff (hstored : Stored db) (hmem : tenant ∈ db.tenants)
    (hdomain : tenant.domainName ≠ "") :
    resolveTenant lower db email (some tenant.domainName) = .ok (some tenant) ↔
      lower tenant.domainName = tenant.domainName := by
  have hresolve : resolveTenant lower db email (some tenant.domainName) =
      db.getByDomain lower tenant.domainName := by
    unfold resolveTenant
    rw [Option.filter_some, if_pos (decide_eq_true hdomain)]
  rw [hresolve]
  constructor
  · intro h
    have hfound := (List.mem_filter.1 (scalarOneOrNone_mem h)).2
    exact (of_decide_eq_true hfound).symm
  · intro h
    unfold Database.getByDomain
    rw [h, filter_eq_singleton hstored.tenantIds.of_map hmem (by simp) fun other hother heq => ?_]
    · rfl
    · exact List.inj_on_of_nodup_map hstored.domains hother hmem (of_decide_eq_true heq)

/-- The e-mail has to be stored in lower case. -/
theorem getByEmail_iff (hlower : ∀ s, lower (lower s) = lower s)
    (hbelongs : Belongs lower db email user) (hid : tenant.id = user.tenantId) :
    db.getByEmail lower tenant.id email = .ok (some user) ↔ lower user.email = user.email := by
  constructor
  · intro h
    have hfound := of_decide_eq_true (List.mem_filter.1 (scalarOneOrNone_mem h)).2
    rw [hfound.2, hlower]
  · intro h
    unfold Database.getByEmail
    rw [filter_eq_singleton db.userIds.of_map hbelongs.mem ?_ fun other hother heq => ?_]
    · rfl
    · exact decide_eq_true ⟨hid.symm, by rw [← h, hbelongs.same]⟩
    · refine hbelongs.unique other hother ?_
      rw [(of_decide_eq_true heq).2, hlower]

/-- **With and without a domain**, the login works with the user whose e-mail it is, and has the same
outcome, exactly if the user is among the first ten rows, and the domain of the tenant and, if the
tenant is active, the e-mail of the user are stored in lower case. -/
theorem routes_agree_iff (hlower : ∀ s, lower (lower s) = lower s) (jwt : Rs256 τ) (order : SetOrder)
    (m : TokenManager) (hstored : Stored db) (hbelongs : Belongs lower db email user)
    (hmem : tenant ∈ db.tenants) (hid : tenant.id = user.tenantId) :
    RoutesAgree lower jwt order m db email tenant user ↔
      user ∈ db.users.take 10 ∧
        (tenant.domainName = "" ∨ lower tenant.domainName = tenant.domainName) ∧
        (tenant.status = "ACTIVE" → lower user.email = user.email) := by
  have hnone := resolveTenant_none_iff hstored hbelongs hmem hid
  have hemail := getByEmail_iff hlower hbelongs hid
  constructor
  · intro h
    refine ⟨hnone.1 h.without.finds, ?_, fun hactive => hemail.1 (h.without.looksUp hactive)⟩
    rw [or_iff_not_imp_left]
    exact fun hdomain => (resolveTenant_some_iff hstored hmem hdomain).1 h.within.finds
  · rintro ⟨hfirst, hdomain, hactive⟩
    have hwithout := hnone.2 hfirst
    have hwithin : resolveTenant lower db email (some tenant.domainName) = .ok (some tenant) := by
      by_cases hempty : tenant.domainName = ""
      · rw [hempty]
        exact hwithout
      · exact (resolveTenant_some_iff hstored hmem hempty).2 (hdomain.resolve_left hempty)
    have huser : tenant.status = "ACTIVE" → db.getByEmail lower tenant.id email = .ok (some user) :=
      fun h => hemail.2 (hactive h)
    refine ⟨fun password d => ?_, ⟨hwithout, huser⟩, ⟨hwithin, huser⟩⟩
    have hresolve : resolveUser lower db email none =
        resolveUser lower db email (some tenant.domainName) := by
      unfold resolveUser
      rw [hwithout, hwithin]
    unfold authenticateCredentials
    rw [hresolve]

/-! ### Routes that part -/

theorem toLower_toLower (c : Char) : c.toLower.toLower = c.toLower := by
  by_cases hupper : c.val ≥ 'A'.val ∧ c.val ≤ 'Z'.val
  · have hascii : c.toNat < 128 := lt_of_le_of_lt hupper.2 (by decide)
    exact Chars.of_ascii_cases (P := fun c => c.toLower.toLower = c.toLower) (by decide +kernel) hascii
  · have hsame : c.toLower = c := dif_neg hupper
    rw [hsame, hsame]

theorem asciiLower_asciiLower (s : String) :
    Text.asciiLower (Text.asciiLower s) = Text.asciiLower s := by
  unfold Text.asciiLower
  rw [String.toList_ofList, List.map_map]
  congr 1
  exact List.map_congr_left fun c _ => toLower_toLower c

/-- A user with a given number. -/
def numberedUser (n : ℕ) (email : String) : User where
  id := .ofNat (n + 2)
  tenantId := .ofNat 1
  email := email
  displayName := "X"
  role := "ANALYST"
  status := "ACTIVE"
  passwordHash := none

/-- A tenant of another domain, and a user of it. -/
def otherTenant : Tenant := ⟨.ofNat 9, "b.com", "ACTIVE"⟩

def otherUser : User := { numberedUser 7 "x@b.com" with tenantId := .ofNat 9 }

/-- Two tenants with three users. -/
def sharedDatabase : Database samplePbkdf2 where
  tenants := [sampleTenant, otherTenant]
  users := [sampleUser none, numberedUser 3 "y@a.com", otherUser]
  userIds := by decide +kernel
  written user huser h hstored := by
    have hnone : ∀ user ∈ [sampleUser none, numberedUser 3 "y@a.com", otherUser],
        user.passwordHash = none := by decide +kernel
    rw [hnone user huser] at hstored
    cases hstored

theorem stored_sharedDatabase : Stored sharedDatabase where
  tenantIds := by decide +kernel
  domains := by decide +kernel

theorem belongs_sharedDatabase : Belongs Text.asciiLower sharedDatabase "X@B.com" otherUser where
  mem := List.mem_cons_of_mem _ (List.mem_cons_of_mem _ (List.mem_singleton_self _))
  same := by decide +kernel
  unique other hother hsame := by
    rcases List.mem_cons.1 hother with rfl | hrest
    · exact absurd hsame (by decide +kernel)
    · rcases List.mem_cons.1 hrest with rfl | hlast
      · exact absurd hsame (by decide +kernel)
      · exact List.mem_singleton.1 hlast

theorem routes_agree_sample :
    RoutesAgree Text.asciiLower plainJwt writtenOrder (.init 30 7) sharedDatabase "X@B.com"
      otherTenant otherUser :=
  (routes_agree_iff asciiLower_asciiLower plainJwt writtenOrder (.init 30 7) stored_sharedDatabase
    belongs_sharedDatabase (List.mem_cons_of_mem _ (List.mem_singleton_self _)) rfl).2
    ⟨List.mem_cons_of_mem _ (List.mem_cons_of_mem _ (List.mem_singleton_self _)),
      .inr (by decide +kernel), fun _ => by decide +kernel⟩

/-- A tenant with eleven users. -/
def crowdedDatabase : Database samplePbkdf2 where
  tenants := [sampleTenant]
  users := (List.range 10).map (fun n => numberedUser n ("u" ++ toString n ++ "@a.com")) ++
    [numberedUser 10 "z@a.com"]
  userIds := by decide +kernel
  written user huser h hstored := by
    have hnone : user.passwordHash = none := by
      rcases List.mem_append.1 huser with hfirst | hlast
      · obtain ⟨n, -, rfl⟩ := List.mem_map.1 hfirst
        rfl
      · rw [List.mem_singleton.1 hlast]
        rfl
    rw [hnone] at hstored
    cases hstored

theorem belongs_crowdedDatabase :
    Belongs Text.asciiLower crowdedDatabase "z@a.com" (numberedUser 10 "z@a.com") where
  mem := List.mem_append_right _ (List.mem_singleton.2 rfl)
  same := rfl
  unique other hother hsame := by
    rcases List.mem_append.1 hother with hfirst | hlast
    · obtain ⟨n, hn, rfl⟩ := List.mem_map.1 hfirst
      have hdiffer : ∀ n ∈ List.range 10,
          Text.asciiLower ("u" ++ toString n ++ "@a.com") ≠ Text.asciiLower "z@a.com" := by
        decide +kernel
      exact absurd hsame (hdiffer n hn)
    · exact List.mem_singleton.1 hlast

/-- One user, whose e-mail has a capital letter. -/
def capitalDatabase : Database samplePbkdf2 where
  tenants := [sampleTenant]
  users := [numberedUser 0 "X@a.com"]
  userIds := List.nodup_singleton _
  written user huser h hstored := by
    rw [List.mem_singleton.1 huser] at hstored
    cases hstored

/-- **Routes that part**: the eleventh user is found with the domain only, and an e-mail that is
stored with a capital letter is found on neither route. -/
theorem routes_part :
    Belongs Text.asciiLower crowdedDatabase "z@a.com" (numberedUser 10 "z@a.com") ∧
    (∀ password d, authenticateCredentials Text.asciiLower plainJwt writtenOrder (.init 30 7)
        crowdedDatabase "z@a.com" password none d =
      .error (.authentication "Invalid tenant or inactive tenant domain")) ∧
    (∃ auth tokens, authenticateCredentials Text.asciiLower plainJwt writtenOrder (.init 30 7)
        crowdedDatabase "z@a.com" "a" (some "a.com") (sampleMinting 0) =
      .ok (auth, tokens) ∧ auth.userId = (numberedUser 10 "z@a.com").id) ∧
    ∀ tenantDomain ∈ [none, some "a.com"], ∀ password d,
      authenticateCredentials Text.asciiLower plainJwt writtenOrder (.init 30 7) capitalDatabase
        "X@a.com" password tenantDomain d = .error (.authentication "Invalid email or password") := by
  refine ⟨belongs_crowdedDatabase, fun password d => rfl, ?_, fun tenantDomain hdomain password d => ?_⟩
  · exact authenticateCredentials_ok_iff.2
      ⟨sampleTenant, numberedUser 10 "z@a.com", rfl, rfl, by decide +kernel⟩
  · rcases List.mem_pair.1 hdomain with rfl | rfl <;> rfl

end ScamOn.Security
