import Mathlib.Data.List.Nodup
import ScamOn.Lib.Machine
import ScamOn.Security.TokenManager

/-!
# Sessions

A session begins with a pair of tokens and goes on by trading the refresh token for
another pair.  This file follows the tokens through any sequence of calls.

* `Sessions` is the manager with the pairs that were handed out, the refresh tokens that
  were redeemed and the access tokens that were logged out; `sessionStep` is one call.
* `SessionsInv` ties the store of revoked identifiers to what was used up.
* `tokens_single_use`: a token is refused once it was used up, and no other is.
* `permissions_kept_iff`: where the permissions of a token are those it was issued with,
  and where a session gains none.
-/

namespace ScamOn.Security

variable {τ : Type} (jwt : Rs256 τ) (order : SetOrder)

/-! ## Calls -/

/-- A pair that was handed out; `origin` are the permissions of the pair that its session began
with, unless it is that pair. -/
structure IssuedPair where
  access : RawPayload
  refresh : RawPayload
  origin : Option (List String)
  deriving DecidableEq

/-- The permissions of the pair that the session began with. -/
def IssuedPair.carried (q : IssuedPair) : List String :=
  q.origin.getD (q.access.permissions.getD [])

/-- The manager, with what became of the tokens. -/
structure Sessions where
  manager : TokenManager
  pairs : List IssuedPair
  redeemed : List RawPayload
  loggedOut : List RawPayload

def Sessions.init (accessTokenExpireMinutes refreshTokenExpireDays : ℤ) : Sessions where
  manager := .init accessTokenExpireMinutes refreshTokenExpireDays
  pairs := []
  redeemed := []
  loggedOut := []

namespace Sessions

/-- The payloads of the tokens that were handed out. -/
def issued (s : Sessions) : List RawPayload := s.pairs.flatMap fun q => [q.access, q.refresh]

/-- The permissions of the pair that the session of a refresh token began with. -/
def carriedBy (s : Sessions) (p : RawPayload) : List String :=
  ((s.pairs.find? (·.refresh = p)).map IssuedPair.carried).getD []

/-- A pair is handed out. -/
def issue (s : Sessions) (tokens : TokenPair τ) (origin : Option (List String)) : Sessions :=
  match jwt.read tokens.accessToken, jwt.read tokens.refreshToken with
  | .ok access, .ok refresh => { s with pairs := s.pairs ++ [⟨access, refresh, origin⟩] }
  | _, _ => s

end Sessions

/-- A call. -/
inductive SessionCall (τ : Type)
  | createTokenPair (d : Minting) (who : Subject) (role : String) (permissions : Option (List String))
  | refreshSession (token : τ) (decodedAt : ℚ) (d : Minting) (checkedAt : ℚ)
  | logout (token : τ) (now : ℚ)
  | decodeToken (token : τ) (expectedType : String) (now : ℚ)

/-- What a call returns or raises. -/
inductive SessionReply (τ : Type)
  | pair (r : Except SecurityError (TokenPair τ))
  | loggedOut (r : Except SecurityError Unit)
  | decoded (r : Except SecurityError TokenPayload)

/-- The payload of a token that is accepted. -/
def accepted (m : TokenManager) (token : τ) (now : ℚ) (expectedType : String) : List RawPayload :=
  match m.decodeToken jwt order now token expectedType with
  | .ok _ => (jwt.read token).toOption.toList
  | .error _ => []

/-- One call. -/
def sessionStep (s : Sessions) : SessionCall τ → Sessions × SessionReply τ
  | .createTokenPair d who role permissions =>
    let r := s.manager.createTokenPair jwt order d who role permissions
    (match r with
      | .ok tokens => s.issue jwt tokens none
      | .error _ => s, .pair r)
  | .refreshSession token decodedAt d checkedAt =>
    let r := refreshSession jwt order s.manager token decodedAt d checkedAt
    let used := accepted jwt order s.manager token decodedAt "refresh"
    let s' := { s with manager := r.1, redeemed := s.redeemed ++ used }
    (match r.2 with
      | .ok tokens => s'.issue jwt tokens (some (used.flatMap s.carriedBy))
      | .error _ => s', .pair r.2)
  | .logout token now =>
    let r := logout jwt order s.manager token now
    ({ s with
        manager := r.1
        loggedOut := s.loggedOut ++ accepted jwt order s.manager token now "access" },
      .loggedOut r.2)
  | .decodeToken token expectedType now =>
    (s, .decoded (s.manager.decodeToken jwt order now token expectedType))

/-- The identifiers that a call draws. -/
def SessionCall.drawn : SessionCall τ → List Uuid
  | .createTokenPair d _ _ _ => [d.accessJti, d.refreshJti]
  | .refreshSession _ _ d _ => [d.accessJti, d.refreshJti]
  | _ => []

/-- The tokens that a call presents. -/
def SessionCall.presented : SessionCall τ → List τ
  | .createTokenPair .. => []
  | .refreshSession token _ _ _ => [token]
  | .logout token _ => [token]
  | .decodeToken token _ _ => [token]

/-- Signatures cannot be forged: a presented token that can be read was handed out. -/
def Unforged (s : Sessions) (c : SessionCall τ) : Prop :=
  ∀ token ∈ c.presented, ∀ p, jwt.read token = .ok p → p ∈ s.issued

/-- The payload of the access token that a refresh token is traded for. -/
def TokenManager.renewal (m : TokenManager) (d : Minting) (p : RawPayload) : RawPayload :=
  m.accessPayload order d ⟨p.sub, p.tenantId, p.email⟩ p.role none

/-! ## What a call does -/

variable {jwt order}

theorem createTokenPair_eq_ok {m : TokenManager} {d : Minting} {who : Subject} {role : String}
    {permissions : Option (List String)} {tokens : TokenPair τ}
    (h : m.createTokenPair jwt order d who role permissions = .ok tokens) :
    ∃ r, Role.ofValue? role = some r ∧
      jwt.read tokens.accessToken = .ok (m.accessPayload order d who r permissions) ∧
      jwt.read tokens.refreshToken = .ok (m.refreshPayload d who r) := by
  unfold TokenManager.createTokenPair TokenManager.createAccessToken TokenManager.createRefreshToken
    TokenManager.roleEnum at h
  cases hrole : Role.ofValue? role with
  | none =>
    rw [hrole] at h
    cases h
  | some r =>
    rw [hrole] at h
    cases h
    exact ⟨r, rfl, jwt.read_encode _, jwt.read_encode _⟩

theorem mem_accepted {m : TokenManager} {token : τ} {now : ℚ} {expectedType : String} {p : RawPayload} :
    p ∈ accepted jwt order m token now expectedType ↔
      jwt.read token = .ok p ∧ m.Accepts p now expectedType := by
  unfold accepted
  cases hdecode : m.decodeToken jwt order now token expectedType with
  | error e =>
    have hnot : ¬(jwt.read token = .ok p ∧ m.Accepts p now expectedType) := by
      rintro ⟨hread, haccepts⟩
      have hok := (decodeToken_eq_ok_iff jwt order).2 ⟨p, hread, haccepts, rfl⟩
      rw [hdecode] at hok
      cases hok
    simpa using hnot
  | ok r =>
    obtain ⟨q, hread, haccepts, -⟩ := (decodeToken_eq_ok_iff jwt order).1 hdecode
    simp only [hread, Except.toOption, Option.toList_some, List.mem_singleton, Except.ok.injEq]
    constructor
    · rintro rfl
      exact ⟨rfl, haccepts⟩
    · rintro ⟨rfl, -⟩
      rfl

variable (jwt order) in
/-- The outcomes of `refresh_session`, with the refresh token that it uses up: none if the token is
refused; otherwise a pair of the same role with the permissions of the role, which is withheld if
its access token would not be accepted. -/
inductive RefreshOutcome (m : TokenManager) (d : Minting) (checkedAt : ℚ) :
    List RawPayload → TokenManager × Except SecurityError (TokenPair τ) → Prop
  | refused (e : SecurityError) : RefreshOutcome m d checkedAt [] (m, .error e)
  | withheld (p : RawPayload) (e : SecurityError)
      (hcheck : ¬(m.revokeToken p.jti).Accepts (m.renewal order d p) checkedAt "access") :
      RefreshOutcome m d checkedAt [p] (m.revokeToken p.jti, .error e)
  | renewed (p : RawPayload) (tokens : TokenPair τ)
      (hcheck : (m.revokeToken p.jti).Accepts (m.renewal order d p) checkedAt "access")
      (haccess : jwt.read tokens.accessToken = .ok (m.renewal order d p))
      (hrefresh : jwt.read tokens.refreshToken =
        .ok (m.refreshPayload d ⟨p.sub, p.tenantId, p.email⟩ p.role)) :
      RefreshOutcome m d checkedAt [p] (m.revokeToken p.jti, .ok tokens)

variable (jwt order) in
theorem refreshSession_outcome (m : TokenManager) (token : τ) (decodedAt : ℚ) (d : Minting)
    (checkedAt : ℚ) :
    RefreshOutcome jwt order m d checkedAt (accepted jwt order m token decodedAt "refresh")
      (refreshSession jwt order m token decodedAt d checkedAt) := by
  unfold refreshSession accepted
  cases hdecode : m.decodeToken jwt order decodedAt token "refresh" with
  | error e => exact .refused e
  | ok payload =>
    obtain ⟨p, hread, -, rfl⟩ := (decodeToken_eq_ok_iff jwt order).1 hdecode
    simp only [hread, Except.toOption, Option.toList_some]
    cases hpair : (m.revokeToken p.jti).createTokenPair jwt order d ⟨p.sub, p.tenantId, p.email⟩
        p.role.value none with
    | error e =>
      unfold TokenManager.createTokenPair TokenManager.createAccessToken
        TokenManager.createRefreshToken TokenManager.roleEnum at hpair
      rw [Role.ofValue?_value] at hpair
      cases hpair
    | ok tokens =>
      obtain ⟨r, hrole, haccess, hrefresh⟩ := createTokenPair_eq_ok hpair
      rw [Role.ofValue?_value] at hrole
      cases hrole
      cases hcheck : (m.revokeToken p.jti).decodeToken jwt order checkedAt tokens.accessToken "access" with
      | error e =>
        simp only [bind, Except.bind, hcheck]
        refine .withheld p e fun haccepts => ?_
        have hok := (decodeToken_eq_ok_iff jwt order).2 ⟨_, haccess, haccepts, rfl⟩
        rw [hcheck] at hok
        cases hok
      | ok checked =>
        obtain ⟨q, hq, haccepts, -⟩ := (decodeToken_eq_ok_iff jwt order).1 hcheck
        rw [haccess] at hq
        cases hq
        simp only [bind, Except.bind, hcheck]
        exact .renewed p tokens haccepts haccess hrefresh

variable (jwt order) in
/-- **What `logout` does**: it revokes the token if it is accepted. -/
theorem logout_cases (m : TokenManager) (token : τ) (now : ℚ) :
    accepted jwt order m token now "access" = [] ∧ (logout jwt order m token now).1 = m ∨
      ∃ p, accepted jwt order m token now "access" = [p] ∧
        (logout jwt order m token now).1 = m.revokeToken p.jti := by
  unfold logout accepted
  cases hdecode : m.decodeToken jwt order now token "access" with
  | error e => exact .inl ⟨rfl, rfl⟩
  | ok payload =>
    obtain ⟨p, hread, -, rfl⟩ := (decodeToken_eq_ok_iff jwt order).1 hdecode
    exact .inr ⟨p, by rw [hread]; rfl, rfl⟩

/-! ## What is used up is revoked -/

/-- The payloads of the tokens that were used up. -/
def Sessions.spent (s : Sessions) : List RawPayload := s.redeemed ++ s.loggedOut

/-- What holds between the calls. -/
structure SessionsInv (s : Sessions) : Prop where
  revoked_iff : ∀ jti, jti ∈ s.manager.revokedJtis ↔ ∃ p ∈ s.spent, p.jti = jti
  spent_issued : ∀ p ∈ s.spent, p ∈ s.issued
  spent_nodup : s.redeemed.Nodup
  types : ∀ q ∈ s.pairs, q.access.tokenType = "access" ∧ q.refresh.tokenType = "refresh"

/-- No identifier was drawn twice. -/
def Sessions.Distinct (s : Sessions) : Prop := (s.issued.map RawPayload.jti).Nodup

theorem Sessions.issued_issue (s : Sessions) {tokens : TokenPair τ} {origin : Option (List String)}
    {a r : RawPayload} (ha : jwt.read tokens.accessToken = .ok a)
    (hr : jwt.read tokens.refreshToken = .ok r) :
    s.issue jwt tokens origin = { s with pairs := s.pairs ++ [⟨a, r, origin⟩] } := by
  unfold Sessions.issue
  rw [ha, hr]

/-- A pair with new payloads of the right types keeps the invariant. -/
theorem SessionsInv.issue {s : Sessions} (h : SessionsInv s) {a r : RawPayload}
    (ha : a.tokenType = "access") (hr : r.tokenType = "refresh") (origin : Option (List String)) :
    SessionsInv { s with pairs := s.pairs ++ [⟨a, r, origin⟩] } where
  revoked_iff := h.revoked_iff
  spent_issued p hp := by
    have hold := h.spent_issued p hp
    unfold Sessions.issued at hold ⊢
    rw [List.flatMap_append]
    exact List.mem_append_left _ hold
  spent_nodup := h.spent_nodup
  types q hq := by
    rcases List.mem_append.1 hq with hold | hnew
    · exact h.types q hold
    · rw [List.mem_singleton.1 hnew]
      exact ⟨ha, hr⟩

/-- A token that is accepted as a refresh token was not redeemed before. -/
theorem SessionsInv.not_spent {s : Sessions} (h : SessionsInv s) {p : RawPayload} {now : ℚ}
    {expectedType : String} (haccepts : s.manager.Accepts p now expectedType) : p ∉ s.spent :=
  fun hspent => haccepts.notRevoked ((h.revoked_iff p.jti).2 ⟨p, hspent, rfl⟩)

/-- A token that is spent now is revoked with it, and so are the others. -/
theorem SessionsInv.revoked_iff_revokeToken {s : Sessions} (h : SessionsInv s) {p : RawPayload}
    {spent : List RawPayload} (hspent : ∀ q, q ∈ spent ↔ q = p ∨ q ∈ s.spent) (jti : Uuid) :
    jti ∈ (s.manager.revokeToken p.jti).revokedJtis ↔ ∃ q ∈ spent, q.jti = jti := by
  simp only [TokenManager.revokeToken, List.mem_cons, h.revoked_iff, hspent]
  constructor
  · rintro (rfl | ⟨q, hq, rfl⟩)
    · exact ⟨p, .inl rfl, rfl⟩
    · exact ⟨q, .inr hq, rfl⟩
  · rintro ⟨q, rfl | hq, rfl⟩
    · exact .inl rfl
    · exact .inr ⟨q, hq, rfl⟩

/-- What is spent was handed out, if the token that is spent now was. -/
theorem SessionsInv.spent_issued_of {s : Sessions} (h : SessionsInv s) {p : RawPayload}
    (hissued : p ∈ s.issued) {spent : List RawPayload}
    (hspent : ∀ q, q ∈ spent ↔ q = p ∨ q ∈ s.spent) : ∀ q ∈ spent, q ∈ s.issued := by
  intro q hq
  rcases (hspent q).1 hq with rfl | hold
  · exact hissued
  · exact h.spent_issued q hold

/-- Redeeming a token that was handed out keeps the invariant. -/
theorem SessionsInv.redeem {s : Sessions} (h : SessionsInv s) {p : RawPayload} (hissued : p ∈ s.issued)
    (hnew : p ∉ s.spent) :
    SessionsInv { s with manager := s.manager.revokeToken p.jti, redeemed := s.redeemed ++ [p] } := by
  have hspent : ∀ q, q ∈ s.redeemed ++ [p] ++ s.loggedOut ↔ q = p ∨ q ∈ s.spent := by
    intro q
    simp only [Sessions.spent, List.mem_append, List.mem_singleton]
    tauto
  constructor
  · exact h.revoked_iff_revokeToken hspent
  · exact h.spent_issued_of hissued hspent
  · have hnot : p ∉ s.redeemed := fun hmem => hnew (List.mem_append_left _ hmem)
    exact h.spent_nodup.append (List.nodup_singleton p) (by simpa using hnot)
  · exact h.types

/-- Logging out with a token that was handed out keeps the invariant. -/
theorem SessionsInv.logOut {s : Sessions} (h : SessionsInv s) {p : RawPayload} (hissued : p ∈ s.issued) :
    SessionsInv { s with manager := s.manager.revokeToken p.jti, loggedOut := s.loggedOut ++ [p] } := by
  have hspent : ∀ q, q ∈ s.redeemed ++ (s.loggedOut ++ [p]) ↔ q = p ∨ q ∈ s.spent := by
    intro q
    simp only [Sessions.spent, List.mem_append, List.mem_singleton]
    tauto
  constructor
  · exact h.revoked_iff_revokeToken hspent
  · exact h.spent_issued_of hissued hspent
  · exact h.spent_nodup
  · exact h.types

/-- **Every call keeps the invariant.** -/
theorem SessionsInv.step {s : Sessions} (h : SessionsInv s) {c : SessionCall τ}
    (hunforged : Unforged jwt s c) : SessionsInv (sessionStep jwt order s c).1 := by
  cases c with
  | createTokenPair d who role permissions =>
    simp only [sessionStep]
    cases hpair : s.manager.createTokenPair jwt order d who role permissions with
    | error e => exact h
    | ok tokens =>
      obtain ⟨r, -, haccess, hrefresh⟩ := createTokenPair_eq_ok hpair
      show SessionsInv (s.issue jwt tokens none)
      rw [s.issued_issue haccess hrefresh]
      exact h.issue rfl rfl none
  | refreshSession token decodedAt d checkedAt =>
    have hread : ∀ p ∈ accepted jwt order s.manager token decodedAt "refresh",
        p ∈ s.issued ∧ p ∉ s.spent := by
      intro p hp
      obtain ⟨hread, haccepts⟩ := mem_accepted.1 hp
      exact ⟨hunforged token (List.mem_singleton.2 rfl) p hread, h.not_spent haccepts⟩
    have houtcome := refreshSession_outcome jwt order s.manager token decodedAt d
      checkedAt
    simp only [sessionStep]
    generalize accepted jwt order s.manager token decodedAt "refresh" = used at hread houtcome ⊢
    generalize refreshSession jwt order s.manager token decodedAt d checkedAt = r at houtcome ⊢
    cases houtcome with
    | refused e => simpa using h
    | withheld p e =>
      obtain ⟨hissued, hnew⟩ := hread p (List.mem_singleton.2 rfl)
      exact h.redeem hissued hnew
    | renewed p tokens _ haccess hrefresh =>
      obtain ⟨hissued, hnew⟩ := hread p (List.mem_singleton.2 rfl)
      show SessionsInv (Sessions.issue jwt _ tokens _)
      rw [Sessions.issued_issue _ haccess hrefresh]
      exact (h.redeem hissued hnew).issue rfl rfl _
  | logout token now =>
    have hread : ∀ p ∈ accepted jwt order s.manager token now "access", p ∈ s.issued := by
      intro p hp
      exact hunforged token (List.mem_singleton.2 rfl) p (mem_accepted.1 hp).1
    simp only [sessionStep]
    rcases logout_cases jwt order s.manager token now with
      ⟨hused, hsame⟩ | ⟨p, hused, hrevoked⟩
    · simp only [hused, hsame, List.append_nil]
      exact h
    · rw [hused] at hread
      simp only [hused, hrevoked]
      exact h.logOut (hread p (List.mem_singleton.2 rfl))
  | decodeToken token expectedType now => exact h

variable (jwt order) in
/-- A call hands out tokens with the identifiers that it draws, or none. -/
theorem issued_step (s : Sessions) (c : SessionCall τ) :
    ∃ new : List Uuid, new.Sublist c.drawn ∧
      (sessionStep jwt order s c).1.issued.map RawPayload.jti = s.issued.map RawPayload.jti ++ new := by
  cases c with
  | createTokenPair d who role permissions =>
    simp only [sessionStep]
    cases hpair : s.manager.createTokenPair jwt order d who role permissions with
    | error e => exact ⟨[], List.nil_sublist _, by simp⟩
    | ok tokens =>
      obtain ⟨r, -, haccess, hrefresh⟩ := createTokenPair_eq_ok hpair
      refine ⟨[d.accessJti, d.refreshJti], List.Sublist.refl _, ?_⟩
      show (s.issue jwt tokens none).issued.map _ = _
      rw [s.issued_issue haccess hrefresh]
      simp [Sessions.issued, TokenManager.accessPayload, TokenManager.refreshPayload]
  | refreshSession token decodedAt d checkedAt =>
    have houtcome := refreshSession_outcome jwt order s.manager token decodedAt d
      checkedAt
    simp only [sessionStep]
    generalize accepted jwt order s.manager token decodedAt "refresh" = used at houtcome ⊢
    generalize refreshSession jwt order s.manager token decodedAt d checkedAt = r at houtcome ⊢
    cases houtcome with
    | refused e => exact ⟨[], List.nil_sublist _, by simp [Sessions.issued]⟩
    | withheld p e => exact ⟨[], List.nil_sublist _, by simp [Sessions.issued]⟩
    | renewed p tokens _ haccess hrefresh =>
      refine ⟨[d.accessJti, d.refreshJti], List.Sublist.refl _, ?_⟩
      show (Sessions.issue jwt _ tokens _).issued.map _ = _
      rw [Sessions.issued_issue _ haccess hrefresh]
      simp [Sessions.issued, TokenManager.renewal, TokenManager.accessPayload,
        TokenManager.refreshPayload]
  | logout token now => exact ⟨[], List.nil_sublist _, by simp [sessionStep, Sessions.issued]⟩
  | decodeToken token expectedType now => exact ⟨[], List.nil_sublist _, by simp [sessionStep]⟩

/-- If no identifier is drawn twice, no two tokens share one. -/
theorem distinct_run {s : Sessions} {calls : List (SessionCall τ)}
    (h : (s.issued.map RawPayload.jti ++ calls.flatMap SessionCall.drawn).Nodup) :
    (Machine.run (sessionStep jwt order) s calls).Distinct := by
  induction calls generalizing s with
  | nil => simpa [Sessions.Distinct] using h
  | cons c calls ih =>
    apply ih
    obtain ⟨new, hsub, hissued⟩ := issued_step jwt order s c
    rw [hissued, List.append_assoc]
    rw [List.flatMap_cons] at h
    exact h.sublist ((hsub.append_right _).append_left _)

theorem sessionsInv_init (minutes days : ℤ) : SessionsInv (.init minutes days) where
  revoked_iff jti := by simp [Sessions.init, TokenManager.init, Sessions.spent]
  spent_issued p hp := by cases hp
  spent_nodup := List.nodup_nil
  types q hq := by cases hq

/-- Revoking an identifier changes nothing for a token that has another. -/
theorem decodeToken_revokeToken {m : TokenManager} {jti : Uuid} {token : τ} {q : RawPayload}
    (hread : jwt.read token = .ok q) (hne : q.jti ≠ jti) (now : ℚ) (expectedType : String) :
    (m.revokeToken jti).decodeToken jwt order now token expectedType =
      m.decodeToken jwt order now token expectedType := by
  unfold TokenManager.decodeToken
  cases hdecode : jwt.decode now token with
  | error e => cases e <;> rfl
  | ok p =>
    obtain ⟨hp, -⟩ := (jwt.decode_eq_ok_iff now token p).1 hdecode
    rw [hread] at hp
    cases hp
    simp [TokenManager.revokeToken, hne]

/-- A token of one type does not pass for one of the other. -/
theorem decodeToken_ne_ok_of_type {m : TokenManager} {token : τ} {p : RawPayload} {now : ℚ}
    {expectedType : String} {r : TokenPayload} (hread : jwt.read token = .ok p)
    (htype : p.tokenType ≠ expectedType) :
    m.decodeToken jwt order now token expectedType ≠ .ok r := by
  intro hok
  obtain ⟨q, hq, haccepts, -⟩ := (decodeToken_eq_ok_iff jwt order).1 hok
  rw [hread] at hq
  cases hq
  exact htype haccepts.type_eq

/-- **Refresh tokens are single-use and revocation is final.**  In every run in which identifiers
are distinct and signatures are not forged: a refresh token is accepted once and refused from then
on; an access token is refused once it was logged out; neither passes for the other; and no other
token is refused because one was revoked. -/
theorem tokens_single_use (jwt : Rs256 τ) (order : SetOrder) (minutes days : ℤ)
    (calls : List (SessionCall τ)) (hdistinct : (calls.flatMap SessionCall.drawn).Nodup)
    (hunforged : Machine.Always (sessionStep jwt order) (Unforged jwt) (.init minutes days) calls) :
    let s := Machine.run (sessionStep jwt order) (.init minutes days) calls
    s.redeemed.Nodup ∧
    (∀ p ∈ s.redeemed, ∀ token, jwt.read token = .ok p → ∀ decodedAt d checkedAt tokens,
      (refreshSession jwt order s.manager token decodedAt d checkedAt).2 ≠ .ok tokens) ∧
    (∀ p ∈ s.loggedOut, ∀ token, jwt.read token = .ok p → ∀ now expectedType r,
      s.manager.decodeToken jwt order now token expectedType ≠ .ok r) ∧
    (∀ q ∈ s.pairs, ∀ token now r,
      (jwt.read token = .ok q.access → s.manager.decodeToken jwt order now token "refresh" ≠ .ok r) ∧
      (jwt.read token = .ok q.refresh → s.manager.decodeToken jwt order now token "access" ≠ .ok r)) ∧
    (∀ p ∈ s.issued, ∀ q ∈ s.issued, p ≠ q → ∀ token, jwt.read token = .ok q → ∀ now expectedType,
      (s.manager.revokeToken p.jti).decodeToken jwt order now token expectedType =
        s.manager.decodeToken jwt order now token expectedType) ∧
    (∀ p ∈ s.issued, p ∉ s.redeemed → p ∉ s.loggedOut → ∀ token, jwt.read token = .ok p →
      ∀ now, p.InForce now → ∃ r, s.manager.decodeToken jwt order now token p.tokenType = .ok r) := by
  intro s
  have hinv : SessionsInv s :=
    Machine.inv_run (fun _ _ h hc => h.step hc) (sessionsInv_init minutes days) hunforged
  have hjti : s.Distinct :=
    distinct_run (s := .init minutes days) (by simpa [Sessions.init, Sessions.issued] using hdistinct)
  have hne : ∀ p ∈ s.issued, ∀ q ∈ s.issued, p ≠ q → q.jti ≠ p.jti := by
    intro p hp q hq hpq heq
    exact hpq (List.inj_on_of_nodup_map hjti hp hq heq.symm)
  have hrefused : ∀ p ∈ s.spent, ∀ token, jwt.read token = .ok p → ∀ now expectedType r,
      s.manager.decodeToken jwt order now token expectedType ≠ .ok r := by
    intro p hspent token hread now expectedType r hok
    obtain ⟨q, hq, haccepts, -⟩ := (decodeToken_eq_ok_iff jwt order).1 hok
    rw [hread] at hq
    cases hq
    exact hinv.not_spent haccepts hspent
  refine ⟨hinv.spent_nodup, ?_, ?_, ?_, ?_, ?_⟩
  · intro p hp token hread decodedAt d checkedAt tokens hok
    unfold refreshSession at hok
    cases hdecode : s.manager.decodeToken jwt order decodedAt token "refresh" with
    | error e =>
      rw [hdecode] at hok
      cases hok
    | ok r => exact hrefused p (List.mem_append_left _ hp) token hread _ _ r hdecode
  · intro p hp
    exact hrefused p (List.mem_append_right _ hp)
  · intro q hq token now r
    obtain ⟨haccess, hrefresh⟩ := hinv.types q hq
    constructor
    · intro hread
      exact decodeToken_ne_ok_of_type hread (by rw [haccess]; decide)
    · intro hread
      exact decodeToken_ne_ok_of_type hread (by rw [hrefresh]; decide)
  · intro p hp q hq hpq token hread now expectedType
    exact decodeToken_revokeToken hread (hne p hp q hq hpq) now expectedType
  · intro p hp hredeemed hloggedOut token hread now hforce
    refine ⟨_, (decodeToken_eq_ok_iff jwt order).2 ⟨p, hread, ⟨hforce, rfl, ?_⟩, rfl⟩⟩
    intro hrevoked
    obtain ⟨q, hspent, heq⟩ := (hinv.revoked_iff p.jti).1 hrevoked
    have hsame : q = p := by
      by_contra hqp
      exact hne p hp q (hinv.spent_issued q hspent) (fun h => hqp h.symm) heq
    rw [hsame] at hspent
    exact (List.mem_append.1 hspent).elim hredeemed hloggedOut

/-! ### A session -/

/-- The claims of a token that is its payload, in the order in which they are checked. -/
def plainDecode (now : ℚ) (p : RawPayload) : Except PyJwtError RawPayload :=
  if now < p.iat then .error (.other "The token is not yet valid (iat)")
  else if now < p.nbf then .error (.other "The token is not yet valid (nbf)")
  else if (p.exp : ℚ) ≤ now then .error .expiredSignature
  else if p.iss ≠ issuer then .error (.other "Invalid issuer")
  else .ok p

theorem plainDecode_eq_ok_iff (now : ℚ) (token p : RawPayload) :
    plainDecode now token = .ok p ↔
      (Except.ok token : Except String RawPayload) = .ok p ∧ p.InForce now := by
  unfold plainDecode RawPayload.InForce
  constructor
  · intro h
    split_ifs at h with hiat hnbf hexp hiss
    cases h
    exact ⟨rfl, not_lt.1 hiat, not_lt.1 hnbf, not_le.1 hexp, not_not.1 hiss⟩
  · rintro ⟨heq, hiat, hnbf, hexp, hiss⟩
    cases heq
    simp [not_lt.2 hiat, not_lt.2 hnbf, not_le.2 hexp, hiss]

/-- Tokens that are their payloads. -/
def plainJwt : Rs256 RawPayload := ⟨id, .ok, plainDecode, fun _ => rfl, plainDecode_eq_ok_iff⟩

/-- The sets in the order in which they are written. -/
def writtenOrder : SetOrder := ⟨rolePermissionsMap, fun _ => List.Perm.refl _⟩

def sampleSubject : Subject := ⟨.ofNat 1, .ofNat 2, "soc@example.com"⟩

/-- What is drawn for the pair with a number. -/
def sampleMinting (n : ℕ) : Minting := ⟨.ofNat (10 + 2 * n), .ofNat (11 + 2 * n), n, n⟩

/-- The tokens of that pair. -/
def sampleAccess (n : ℕ) (role : Role) (permissions : Option (List String)) : RawPayload :=
  (TokenManager.init 30 7).accessPayload writtenOrder (sampleMinting n) sampleSubject role permissions

def sampleRefresh (n : ℕ) (role : Role) : RawPayload :=
  (TokenManager.init 30 7).refreshPayload (sampleMinting n) sampleSubject role

/-- A login, a refresh, the same refresh again, and a logout. -/
def sampleSession : List (SessionCall RawPayload) :=
  [.createTokenPair (sampleMinting 0) sampleSubject "ANALYST" none,
    .refreshSession (sampleRefresh 0 .analyst) 1 (sampleMinting 1) 1,
    .refreshSession (sampleRefresh 0 .analyst) 2 (sampleMinting 2) 2,
    .logout (sampleAccess 1 .analyst none) 3]

theorem unforged_plainJwt {s : Sessions} {c : SessionCall RawPayload}
    (h : ∀ token ∈ c.presented, token ∈ s.issued) : Unforged plainJwt s c := by
  intro token htoken p hp
  cases hp
  exact h token htoken

/-- The second refresh is refused, and the access token after the logout. -/
theorem tokens_single_use_session :
    let s := Machine.run (sessionStep plainJwt writtenOrder) (.init 30 7) sampleSession
    s.redeemed = [sampleRefresh 0 .analyst] ∧ s.loggedOut = [sampleAccess 1 .analyst none] ∧
      (∀ decodedAt d checkedAt tokens, (refreshSession plainJwt writtenOrder s.manager
        (sampleRefresh 0 .analyst) decodedAt d checkedAt).2 ≠ .ok tokens) ∧
      ∀ now expectedType r, s.manager.decodeToken plainJwt writtenOrder now
        (sampleAccess 1 .analyst none) expectedType ≠ .ok r := by
  have hredeemed : (Machine.run (sessionStep plainJwt writtenOrder) (.init 30 7) sampleSession).redeemed =
      [sampleRefresh 0 .analyst] := by decide +kernel
  have hloggedOut : (Machine.run (sessionStep plainJwt writtenOrder) (.init 30 7)
      sampleSession).loggedOut = [sampleAccess 1 .analyst none] := by decide +kernel
  have hunforged : Machine.Always (sessionStep plainJwt writtenOrder) (Unforged plainJwt) (.init 30 7)
      sampleSession :=
    ⟨unforged_plainJwt (by decide +kernel), unforged_plainJwt (by decide +kernel),
      unforged_plainJwt (by decide +kernel), unforged_plainJwt (by decide +kernel), trivial⟩
  obtain ⟨-, hrefresh, hlogout, -⟩ := tokens_single_use plainJwt writtenOrder 30 7 sampleSession
    (by decide +kernel) hunforged
  refine ⟨hredeemed, hloggedOut, ?_, ?_⟩
  · exact hrefresh _ (by rw [hredeemed]; exact List.mem_singleton.2 rfl) _ rfl
  · exact hlogout _ (by rw [hloggedOut]; exact List.mem_singleton.2 rfl) _ rfl

/-! ## Permissions -/

variable (jwt order)

/-- No pair that was handed out for a refresh token has a permission that the pair its session
began with had not. -/
def NoGain (s : Sessions) : Prop :=
  ∀ q ∈ s.pairs, ∀ carried, q.origin = some carried →
    ∀ permission ∈ TokenManager.decodedPermissions order q.access "access", permission ∈ carried

/-- A refresh token that is traded for another pair belongs to a session that began with all the
permissions of its role. -/
def Covered (s : Sessions) : SessionCall τ → Prop
  | .refreshSession token decodedAt d checkedAt =>
    ∀ p, jwt.read token = .ok p → s.manager.Accepts p decodedAt "refresh" →
      (s.manager.revokeToken p.jti).Accepts (s.manager.renewal order d p) checkedAt "access" →
      ∀ permission ∈ order.granted p.role, permission ∈ s.carriedBy p
  | _ => True

variable {jwt order}

theorem decodedPermissions_renewal (m : TokenManager) (d : Minting) (p : RawPayload) :
    TokenManager.decodedPermissions order (m.renewal order d p) "access" = order.granted p.role := by
  unfold TokenManager.decodedPermissions
  exact if_neg fun h => order.granted_ne_nil p.role h.1

theorem noGain_issue {s s' : Sessions} {a r : RawPayload} {origin : Option (List String)}
    (h : NoGain order s) (hpairs : s'.pairs = s.pairs ++ [⟨a, r, origin⟩]) :
    NoGain order s' ↔ ∀ carried, origin = some carried →
      ∀ permission ∈ TokenManager.decodedPermissions order a "access", permission ∈ carried := by
  unfold NoGain
  rw [hpairs]
  constructor
  · intro hnew
    exact hnew ⟨a, r, origin⟩ (List.mem_append_right _ (List.mem_singleton.2 rfl))
  · intro hnew q hq
    rcases List.mem_append.1 hq with hold | hlast
    · exact h q hold
    · rw [List.mem_singleton.1 hlast]
      exact hnew

/-- **A call gains nothing** exactly if it is covered. -/
theorem noGain_step {s : Sessions} (h : NoGain order s) (c : SessionCall τ) :
    NoGain order (sessionStep jwt order s c).1 ↔ Covered jwt order s c := by
  cases c with
  | createTokenPair d who role permissions =>
    simp only [sessionStep, Covered, iff_true]
    cases hpair : s.manager.createTokenPair jwt order d who role permissions with
    | error e => exact h
    | ok tokens =>
      obtain ⟨r, -, haccess, hrefresh⟩ := createTokenPair_eq_ok hpair
      show NoGain order (s.issue jwt tokens none)
      rw [s.issued_issue haccess hrefresh, noGain_issue h rfl]
      intro carried heq
      cases heq
  | refreshSession token decodedAt d checkedAt =>
    have hused : ∀ p, p ∈ accepted jwt order s.manager token decodedAt "refresh" ↔
        jwt.read token = .ok p ∧ s.manager.Accepts p decodedAt "refresh" := fun p => mem_accepted
    have houtcome := refreshSession_outcome jwt order s.manager token decodedAt d
      checkedAt
    simp only [sessionStep, Covered]
    generalize accepted jwt order s.manager token decodedAt "refresh" = used at hused houtcome ⊢
    generalize refreshSession jwt order s.manager token decodedAt d checkedAt = r at houtcome ⊢
    cases houtcome with
    | refused e =>
      refine iff_of_true h fun p hread haccepts => ?_
      exact absurd ((hused p).2 ⟨hread, haccepts⟩) (List.not_mem_nil)
    | withheld p e hcheck =>
      refine iff_of_true h fun q hread haccepts hrenewed => ?_
      rw [List.mem_singleton.1 ((hused q).2 ⟨hread, haccepts⟩)] at hrenewed
      exact absurd hrenewed hcheck
    | renewed p tokens hcheck haccess hrefresh =>
      show NoGain order (Sessions.issue jwt _ tokens _) ↔ _
      rw [Sessions.issued_issue _ haccess hrefresh, noGain_issue h rfl, decodedPermissions_renewal]
      simp only [List.flatMap_singleton, Option.some.injEq]
      constructor
      · intro hnew q hread haccepts _
        rw [List.mem_singleton.1 ((hused q).2 ⟨hread, haccepts⟩)]
        exact hnew _ rfl
      · rintro hcovered carried rfl
        obtain ⟨hread, haccepts⟩ := (hused p).1 (List.mem_singleton.2 rfl)
        exact hcovered p hread haccepts hcheck
  | logout token now => exact iff_of_true h trivial
  | decodeToken token expectedType now => exact iff_of_true h trivial

/-- A token that was just issued for a list of permissions is accepted, and reports that list
exactly if it is not empty. -/
theorem decode_issued (m : TokenManager) (d : Minting) (who : Subject) (role : Role)
    (permissions : List String) {now : ℚ} (hnow : d.accessAt ≤ now)
    (hunexpired : now < ⌊d.accessAt⌋ + m.accessTokenExpireSeconds) (hnew : d.accessJti ∉ m.revokedJtis) :
    ∃ token r, m.createAccessToken jwt order d who role.value (some permissions) =
        .ok (token, d.accessJti, m.accessTokenExpireSeconds) ∧
      m.decodeToken jwt order now token "access" = .ok r ∧
      (r.permissions = permissions ↔ permissions ≠ []) := by
  have hforce : (m.accessPayload order d who role (some permissions)).InForce now := by
    have hiat : (⌊d.accessAt⌋ : ℚ) ≤ now := (Int.floor_le _).trans hnow
    refine ⟨hiat, hiat, ?_, rfl⟩
    show now < ((⌊d.accessAt⌋ + m.accessTokenExpireSeconds : ℤ) : ℚ)
    push_cast
    exact hunexpired
  refine ⟨jwt.encode (m.accessPayload order d who role (some permissions)), _, ?_,
    (decodeToken_eq_ok_iff jwt order).2 ⟨_, jwt.read_encode _, ⟨hforce, rfl, hnew⟩, rfl⟩, ?_⟩
  · unfold TokenManager.createAccessToken TokenManager.roleEnum
    rw [Role.ofValue?_value]
    rfl
  · show TokenManager.decodedPermissions order _ "access" = permissions ↔ permissions ≠ []
    unfold TokenManager.decodedPermissions
    by_cases hempty : permissions = []
    · subst hempty
      simpa [TokenManager.accessPayload] using order.granted_ne_nil role
    · simp [TokenManager.accessPayload, hempty]

/-- **Tokens carry the permissions they were issued with.**  A token that was just issued reports
its list of permissions exactly if the list is not empty; and in any run the sessions gain no
permission exactly if every refresh token that is traded belongs to a session that began with all
the permissions of its role. -/
theorem permissions_kept_iff (jwt : Rs256 τ) (order : SetOrder) :
    (∀ (m : TokenManager) (d : Minting) (who : Subject) (role : Role) (permissions : List String)
        (now : ℚ), d.accessAt ≤ now → now < ⌊d.accessAt⌋ + m.accessTokenExpireSeconds →
        d.accessJti ∉ m.revokedJtis →
      ∃ token r, m.createAccessToken jwt order d who role.value (some permissions) =
          .ok (token, d.accessJti, m.accessTokenExpireSeconds) ∧
        m.decodeToken jwt order now token "access" = .ok r ∧
        (r.permissions = permissions ↔ permissions ≠ [])) ∧
    ∀ (minutes days : ℤ) (calls : List (SessionCall τ)),
      (∀ pre, pre <+: calls →
        NoGain order (Machine.run (sessionStep jwt order) (.init minutes days) pre)) ↔
      Machine.Always (sessionStep jwt order) (Covered jwt order) (.init minutes days) calls := by
  constructor
  · intro m d who role permissions now hnow hunexpired hnew
    exact decode_issued m d who role permissions hnow hunexpired hnew
  · intro minutes days calls
    have hinit : NoGain order (.init minutes days) := fun q hq => by cases hq
    exact Machine.inv_prefix_iff (I := NoGain order) (fun _ c h => noGain_step h c) hinit calls

/-- The session of an administrator that began with one permission. -/
def sampleNarrowed : List (SessionCall RawPayload) :=
  [.createTokenPair (sampleMinting 0) sampleSubject "ADMIN" (some ["READ_INCIDENT"]),
    .refreshSession (sampleRefresh 0 .admin) 1 (sampleMinting 1) 1]

/-- A token without permissions is decoded with those of its role, and a refresh gives a narrowed
session all permissions of its role. -/
theorem permissions_gained :
    (∃ token r, (TokenManager.init 30 7).createAccessToken plainJwt writtenOrder (sampleMinting 0)
        sampleSubject "AUDITOR" (some []) = .ok (token, Uuid.ofNat 10, 1800) ∧
      (TokenManager.init 30 7).decodeToken plainJwt writtenOrder 1 token "access" = .ok r ∧
      r.permissions = ["READ_INCIDENT", "VIEW_AUDIT"]) ∧
    ¬NoGain writtenOrder
      (Machine.run (sessionStep plainJwt writtenOrder) (.init 30 7) sampleNarrowed) := by
  constructor
  · exact ⟨sampleAccess 0 .auditor (some []), _, by decide +kernel, rfl, by decide +kernel⟩
  · intro hgain
    have hpairs : (Machine.run (sessionStep plainJwt writtenOrder) (.init 30 7) sampleNarrowed).pairs[1]? =
        some ⟨sampleAccess 1 .admin none, sampleRefresh 1 .admin, some ["READ_INCIDENT"]⟩ := by
      decide +kernel
    have hmem := hgain _ (List.mem_of_getElem? hpairs) _ rfl "MANAGE_USERS" (by decide +kernel)
    exact absurd hmem (by decide)

end ScamOn.Security
