import Mathlib.Data.Finset.Dedup
import Mathlib.Data.Rat.Defs
import Mathlib.Algebra.Order.Field.Rat
import Mathlib.Tactic.Ring
import ScamOn.IngestionGateway.Registry

/-!
# The account coordinator

`AccountSyncCoordinator.reconcile_once` compares the active e-mail accounts with
the registered daemons.  It first stops the daemons of accounts that are gone, then
takes the active accounts one by one: it spawns a missing daemon, restarts one
whose configuration has changed, and after a failure leaves the account alone for a
while.

* `reconcileOnce` is one sweep, `reconcileAccount` one account's turn in it;
  `turn_end` says how a turn can end.
* `registered_after_iff`: after a sweep without failures the registered keys are the
  desired ones exactly when no account that stayed active has left a provider.
* `isolated_throughout_iff`: sweeps complete, try every account that is due and forget
  the accounts that are gone exactly when they are all `Tolerable`.
-/

namespace ScamOn.IngestionGateway

/-! ## Accounts and their providers -/

/-- An account is known by its tenant and its own identifier. -/
abbrev AccountKey : Type := Uuid × Uuid

/-- The `provider` attribute of an account: a `MailboxProvider`, or anything else
by its `str`. -/
inductive ProviderValue
  | enum (p : MailboxProvider)
  | text (s : String)
  deriving DecidableEq

/-- The fields of an `EmailAccount` that the coordinator reads; the tokens are the
texts that the fingerprint is made of. -/
structure EmailAccount where
  tenantId : Uuid
  id : Uuid
  provider : ProviderValue
  emailAddress : String
  accessToken : String
  refreshToken : String
  isActive : Bool
  deriving DecidableEq

def EmailAccount.key (acc : EmailAccount) : AccountKey := (acc.tenantId, acc.id)

/-- What the environment does when an account's daemon is stopped, created or
started: `false` is an exception. -/
structure Outcomes where
  stop : Bool
  create : Bool
  start : Bool
  deriving DecidableEq

/-- The library functions the coordinator relies on. -/
structure SyncLib where
  lower : String → String
  upper : String → String
  sha256 : String → String

/-- The value of the enumeration's member, which is also how it is formatted. -/
def MailboxProvider.value : MailboxProvider → String
  | .msGraph => "MS_GRAPH"
  | .gmail => "GMAIL"
  | .imap => "IMAP"

def ProviderValue.str : ProviderValue → String
  | .enum p => p.value
  | .text s => s

/-- `_map_provider`; `none` is `ValueError`. -/
def mapProvider (x : SyncLib) : ProviderValue → Option MailboxProvider
  | .enum p => some p
  | .text s =>
    let val := Text.strip (x.upper s)
    if Text.contains val "GRAPH" ∨ Text.contains val "MICROSOFT" ∨ Text.contains val "OFFICE" then
      some .msGraph
    else if Text.contains val "GMAIL" ∨ Text.contains val "GOOGLE" then some .gmail
    else if Text.contains val "IMAP" then some .imap
    else none

/-- `_compute_config_hash`. -/
def computeConfigHash (x : SyncLib) (acc : EmailAccount) : String :=
  x.sha256 (acc.provider.str ++ ":" ++ acc.emailAddress ++ ":" ++ acc.accessToken ++ ":" ++
    acc.refreshToken)

/-- `_calculate_backoff_sec`: `2.0 ** n` raises from `n = 1024` on. -/
def calculateBackoffSec (failures : ℕ) : Except String ℚ :=
  if failures ≤ 0 then .ok 0
  else if 1024 ≤ failures - 1 then .error "(34, 'Numerical result out of range')"
  else .ok (min (10 * 2 ^ (failures - 1)) 300)

/-- `create_and_register_daemon`: the daemon it makes of an account. -/
def daemonOf (acc : EmailAccount) (provider : MailboxProvider) : Mailbox where
  tenantId := acc.tenantId
  accountId := acc.id
  mailboxAddress := acc.emailAddress
  provider := provider
  maxMimeSizeBytes := 52428800

/-! ## The coordinator -/

/-- The coordinator with the registry of its manager. -/
structure Coordinator (x : SyncLib) where
  registry : DaemonRegistry x.lower (id : Mailbox → Mailbox)
  consecutiveFailures : Dict AccountKey ℕ
  nextRetryTime : Dict AccountKey ℚ
  accountConfigHashes : Dict AccountKey String
  totalSyncCycles : ℕ
  totalDaemonsSpawned : ℕ
  totalDaemonsTerminated : ℕ

/-- What a sweep makes of an account. -/
inductive Turn
  | inBackoff
  | unchanged
  | spawned
  | restarted
  | failed (attempt : ℕ) (backoff : ℚ)
  deriving DecidableEq

/-- One sweep's input: the account table, with what the environment does for each
row, and the time. -/
structure Sweep where
  allAccounts : List (EmailAccount × Outcomes)
  now : ℚ

/-- What `reconcile_once` returns; `turns`, which is no part of the source's
answer, says what it did with each active account. -/
structure SyncReport where
  syncCycles : ℕ
  activeAccounts : ℕ
  activeDaemons : ℕ
  totalSpawned : ℕ
  totalTerminated : ℕ
  backoffAccounts : ℕ
  turns : List (AccountKey × Turn)

/-- The accounts whose turn was more than waiting. -/
def SyncReport.attempted (report : SyncReport) : List AccountKey :=
  (report.turns.filter fun turn => turn.2 ≠ .inBackoff).map Prod.fst

def Sweep.activeAccounts (w : Sweep) : List (EmailAccount × Outcomes) :=
  w.allAccounts.filter fun row => row.1.isActive

def Sweep.activeKeys (w : Sweep) : List AccountKey := w.activeAccounts.map fun row => row.1.key

namespace Coordinator

variable {x : SyncLib}

/-- A coordinator before its first sweep. -/
def init : Coordinator x where
  registry := .empty
  consecutiveFailures := ∅
  nextRetryTime := ∅
  accountConfigHashes := ∅
  totalSyncCycles := 0
  totalDaemonsSpawned := 0
  totalDaemonsTerminated := 0

/-- The account a daemon belongs to. -/
def daemonAccount (d : Mailbox) : AccountKey := (d.tenantId, d.accountId)

/-- A daemon's turn in the first loop.  An exception from its `stop` is swallowed. -/
def terminateStep (activeKeys : List AccountKey) (s : Coordinator x) (d : Mailbox) :
    Coordinator x :=
  if daemonAccount d ∈ activeKeys then s
  else
    { s with
      registry := (s.registry.unregister d.tenantId d.accountId d.provider).1
      consecutiveFailures := s.consecutiveFailures.erase (daemonAccount d)
      nextRetryTime := s.nextRetryTime.erase (daemonAccount d)
      accountConfigHashes := s.accountConfigHashes.erase (daemonAccount d)
      totalDaemonsTerminated := s.totalDaemonsTerminated + 1 }

/-- The first loop: the daemons of accounts that are not active go. -/
def terminate (activeKeys : List AccountKey) (s : Coordinator x) : Coordinator x :=
  (s.registry.listDaemons none).foldl (terminateStep activeKeys) s

/-- `acc_key in self._next_retry_time and now < self._next_retry_time[acc_key]`. -/
def InBackoff (s : Coordinator x) (key : AccountKey) (now : ℚ) : Prop :=
  ∃ retry, s.nextRetryTime.get? key = some retry ∧ now < retry

/-- Create, register and start a daemon, and note its fingerprint; `false` if the
environment raises. -/
def spawn (s : Coordinator x) (acc : EmailAccount) (env : Outcomes) (provider : MailboxProvider) :
    Coordinator x × Bool :=
  if ¬env.create then (s, false)
  else
    let s := { s with registry := s.registry.register (daemonOf acc provider) }
    if ¬env.start then (s, false)
    else
      ({ s with
          accountConfigHashes := s.accountConfigHashes.set acc.key (computeConfigHash x acc)
          consecutiveFailures := s.consecutiveFailures.erase acc.key
          nextRetryTime := s.nextRetryTime.erase acc.key }, true)

/-- `stored_hash and stored_hash != cfg_hash`: the daemon runs with another
configuration than the account now has. -/
def Reconfigured (s : Coordinator x) (acc : EmailAccount) : Prop :=
  (s.accountConfigHashes.get? acc.key).getD "" ≠ "" ∧
    (s.accountConfigHashes.get? acc.key).getD "" ≠ computeConfigHash x acc

instance (s : Coordinator x) (acc : EmailAccount) : Decidable (s.Reconfigured acc) :=
  inferInstanceAs (Decidable (_ ∧ _))

/-- The coordinator without the account's daemon. -/
def unregistered (s : Coordinator x) (acc : EmailAccount) (provider : MailboxProvider) :
    Coordinator x :=
  { s with registry := (s.registry.unregister acc.tenantId acc.id provider).1 }

/-- The `try` block of an account's turn; `none` is an exception. -/
def tryReconcile (s : Coordinator x) (acc : EmailAccount) (env : Outcomes) :
    Coordinator x × Option Turn :=
  match mapProvider x acc.provider with
  | none => (s, none)
  | some provider =>
    match s.registry.getDaemon acc.tenantId acc.id provider with
    | none =>
      match spawn s acc env provider with
      | (s, false) => (s, none)
      | (s, true) => ({ s with totalDaemonsSpawned := s.totalDaemonsSpawned + 1 }, some .spawned)
    | some _ =>
      if s.Reconfigured acc then
        if ¬env.stop then (s, none)
        else
          match spawn (unregistered s acc provider) acc env provider with
          | (s, false) => (s, none)
          | (s, true) => (s, some .restarted)
      else (s, some .unchanged)

/-- Take the failed daemon out of the registry, if its provider is known. -/
def cleanUp (s : Coordinator x) (acc : EmailAccount) : Coordinator x :=
  match mapProvider x acc.provider with
  | none => s
  | some provider => unregistered s acc provider

/-- The `except` block: the account is left alone for a while. -/
def onFailure (s : Coordinator x) (acc : EmailAccount) (now : ℚ) :
    Coordinator x × Except String (AccountKey × Turn) :=
  let s := cleanUp s acc
  let currentFails := (s.consecutiveFailures.get? acc.key).getD 0 + 1
  let s := { s with consecutiveFailures := s.consecutiveFailures.set acc.key currentFails }
  match calculateBackoffSec currentFails with
  | .error e => (s, .error e)
  | .ok backoff =>
    ({ s with nextRetryTime := s.nextRetryTime.set acc.key (now + backoff) },
      .ok (acc.key, .failed currentFails backoff))

instance (s : Coordinator x) (key : AccountKey) (now : ℚ) : Decidable (s.InBackoff key now) :=
  match h : s.nextRetryTime.get? key with
  | none => isFalse fun ⟨_, hretry, _⟩ => by rw [h] at hretry; cases hretry
  | some retry =>
    if hnow : now < retry then isTrue ⟨retry, h, hnow⟩
    else isFalse fun ⟨_, hretry, hlt⟩ => hnow (by rw [h] at hretry; cases hretry; exact hlt)

/-- An account's turn in the second loop. -/
def reconcileAccount (now : ℚ) (s : Coordinator x) (row : EmailAccount × Outcomes) :
    Coordinator x × Except String (AccountKey × Turn) :=
  if s.InBackoff row.1.key now then (s, .ok (row.1.key, .inBackoff))
  else
    match tryReconcile s row.1 row.2 with
    | (s, some turn) => (s, .ok (row.1.key, turn))
    | (s, none) => onFailure s row.1 now

/-- `reconcile_once`. -/
def reconcileOnce (s : Coordinator x) (w : Sweep) : Coordinator x × Except String SyncReport :=
  match Loop.forEach (reconcileAccount w.now) (terminate w.activeKeys s) w.activeAccounts with
  | (s, .error e) => (s, .error e)
  | (s, .ok turns) =>
    let s := { s with totalSyncCycles := s.totalSyncCycles + 1 }
    (s, .ok
      { syncCycles := s.totalSyncCycles
        activeAccounts := w.activeAccounts.length
        activeDaemons := (s.registry.listDaemons none).length
        totalSpawned := s.totalDaemonsSpawned
        totalTerminated := s.totalDaemonsTerminated
        backoffAccounts := s.nextRetryTime.keys.length
        turns := turns })

/-! ## An account's turn -/

/-- Nothing but one account's entries has changed. -/
structure Confined (key : AccountKey) (s s' : Coordinator x) : Prop where
  registry : ∀ k : DaemonKey, (k.1, k.2.1) ≠ key → s'.registry.get? k = s.registry.get? k
  failures : ∀ k ≠ key, s'.consecutiveFailures.get? k = s.consecutiveFailures.get? k
  retry : ∀ k ≠ key, s'.nextRetryTime.get? k = s.nextRetryTime.get? k

theorem Confined.refl (key : AccountKey) (s : Coordinator x) : Confined key s s :=
  ⟨fun _ _ => rfl, fun _ _ => rfl, fun _ _ => rfl⟩

theorem Confined.trans {key : AccountKey} {s s' s'' : Coordinator x} (h : Confined key s s')
    (h' : Confined key s' s'') : Confined key s s'' where
  registry k hk := (h'.registry k hk).trans (h.registry k hk)
  failures k hk := (h'.failures k hk).trans (h.failures k hk)
  retry k hk := (h'.retry k hk).trans (h.retry k hk)

variable {s s' : Coordinator x} {acc : EmailAccount} {env : Outcomes} {provider : MailboxProvider}

/-- The state in which a daemon of the account has been started. -/
def started (s : Coordinator x) (acc : EmailAccount) (provider : MailboxProvider) :
    Coordinator x :=
  { s with
    registry := s.registry.register (daemonOf acc provider)
    accountConfigHashes := s.accountConfigHashes.set acc.key (computeConfigHash x acc)
    consecutiveFailures := s.consecutiveFailures.erase acc.key
    nextRetryTime := s.nextRetryTime.erase acc.key }

theorem spawn_of_ok (hcreate : env.create) (hstart : env.start) :
    spawn s acc env provider = (started s acc provider, true) := by
  simp [spawn, started, hcreate, hstart]

theorem spawn_of_failure (s : Coordinator x) (acc : EmailAccount) (provider : MailboxProvider)
    (h : ¬(env.create ∧ env.start)) :
    (spawn s acc env provider).2 = false ∧
      (spawn s acc env provider).1.consecutiveFailures = s.consecutiveFailures := by
  unfold spawn
  by_cases hcreate : env.create
  · have hstart : ¬env.start := fun hstart => h ⟨hcreate, hstart⟩
    simp [hcreate, hstart]
  · simp [hcreate]

theorem confined_unregister (s : Coordinator x) (acc : EmailAccount) (provider : MailboxProvider) :
    Confined acc.key s (unregistered s acc provider) where
  registry k hk := by
    show (s.registry.remove _).1.get? k = _
    rw [Table.get?_remove, if_neg]
    rintro rfl
    exact hk rfl
  failures _ _ := rfl
  retry _ _ := rfl

theorem confined_register (s : Coordinator x) (acc : EmailAccount) (provider : MailboxProvider) :
    Confined acc.key s { s with registry := s.registry.register (daemonOf acc provider) } where
  registry k hk := by
    show (s.registry.insert _).get? k = _
    rw [Table.get?_insert, if_neg]
    rintro rfl
    exact hk rfl
  failures _ _ := rfl
  retry _ _ := rfl

theorem confined_spawn (s : Coordinator x) (acc : EmailAccount) (env : Outcomes)
    (provider : MailboxProvider) : Confined acc.key s (spawn s acc env provider).1 := by
  by_cases hcreate : env.create
  · by_cases hstart : env.start
    · rw [spawn_of_ok hcreate hstart]
      refine (confined_register s acc provider).trans ⟨fun _ _ => rfl, fun k hk => ?_, fun k hk => ?_⟩
      · exact (Dict.get?_erase ..).trans (if_neg hk)
      · exact (Dict.get?_erase ..).trans (if_neg hk)
    · simpa [spawn, hcreate, hstart] using confined_register s acc provider
  · simpa [spawn, hcreate] using Confined.refl acc.key s

/-- The account cannot be brought up: its provider is unknown, or the environment
raises in one of the calls that its daemon needs. -/
def AttemptFails (s : Coordinator x) (acc : EmailAccount) (env : Outcomes) : Prop :=
  match mapProvider x acc.provider with
  | none => True
  | some provider =>
    match s.registry.getDaemon acc.tenantId acc.id provider with
    | none => ¬(env.create ∧ env.start)
    | some _ => s.Reconfigured acc ∧ ¬(env.stop ∧ env.create ∧ env.start)

/-- How the `try` block ends: it spawns a daemon, finds nothing to do, restarts one,
or raises after changing entries of this account only. -/
inductive TryEnd (s : Coordinator x) (acc : EmailAccount) (env : Outcomes) :
    Coordinator x × Option Turn → Prop
  | spawned {provider : MailboxProvider} (hmap : mapProvider x acc.provider = some provider)
      (hget : s.registry.getDaemon acc.tenantId acc.id provider = none)
      (henv : env.create ∧ env.start) :
      TryEnd s acc env
        ({ started s acc provider with totalDaemonsSpawned := s.totalDaemonsSpawned + 1 },
          some .spawned)
  | unchanged {provider : MailboxProvider} {d : Mailbox}
      (hmap : mapProvider x acc.provider = some provider)
      (hget : s.registry.getDaemon acc.tenantId acc.id provider = some d)
      (hconf : ¬s.Reconfigured acc) : TryEnd s acc env (s, some .unchanged)
  | restarted {provider : MailboxProvider} {d : Mailbox}
      (hmap : mapProvider x acc.provider = some provider)
      (hget : s.registry.getDaemon acc.tenantId acc.id provider = some d)
      (hconf : s.Reconfigured acc) (henv : env.stop ∧ env.create ∧ env.start) :
      TryEnd s acc env (started (unregistered s acc provider) acc provider, some .restarted)
  | raised {s' : Coordinator x} (hfails : s.AttemptFails acc env) (hs' : Confined acc.key s s')
      (hcount : s'.consecutiveFailures = s.consecutiveFailures) : TryEnd s acc env (s', none)

theorem tryReconcile_end (s : Coordinator x) (acc : EmailAccount) (env : Outcomes) :
    TryEnd s acc env (tryReconcile s acc env) := by
  unfold tryReconcile
  rcases hmap : mapProvider x acc.provider with _ | provider
  · exact .raised (by simp [AttemptFails, hmap]) (Confined.refl ..) rfl
  rcases hget : s.registry.getDaemon acc.tenantId acc.id provider with _ | d
  · by_cases henv : env.create ∧ env.start
    · simp only [hget, spawn_of_ok henv.1 henv.2]
      exact .spawned hmap hget henv
    · have hspawn := confined_spawn s acc env provider
      obtain ⟨hfalse, hcount⟩ := spawn_of_failure s acc provider henv
      rcases hrun : spawn s acc env provider with ⟨s', ok⟩
      rw [hrun] at hspawn hfalse hcount
      obtain rfl : ok = false := hfalse
      simp only [hget, hrun]
      exact .raised (by simpa [AttemptFails, hmap, hget] using henv) hspawn hcount
  · by_cases hconf : s.Reconfigured acc
    · simp only [hget, if_pos hconf]
      by_cases henv : env.stop ∧ env.create ∧ env.start
      · simp only [henv.1, spawn_of_ok henv.2.1 henv.2.2]
        exact .restarted hmap hget hconf henv
      have hfails : s.AttemptFails acc env := by
        simp only [AttemptFails, hmap, hget]
        exact ⟨hconf, henv⟩
      by_cases hstop : env.stop
      · have henv' : ¬(env.create ∧ env.start) := fun h => henv ⟨hstop, h⟩
        have hspawn := (confined_unregister s acc provider).trans
          (confined_spawn (unregistered s acc provider) acc env provider)
        obtain ⟨hfalse, hcount⟩ := spawn_of_failure (unregistered s acc provider) acc provider henv'
        rcases hrun : spawn (unregistered s acc provider) acc env provider with ⟨s', ok⟩
        rw [hrun] at hspawn hfalse hcount
        obtain rfl : ok = false := hfalse
        simp only [hstop]
        exact .raised hfails hspawn hcount
      · simp only [hstop]
        exact .raised hfails (Confined.refl ..) rfl
    · simp only [hget, if_neg hconf]
      exact .unchanged hmap hget hconf

theorem TryEnd.not_attemptFails {turn : Turn} (h : TryEnd s acc env (s', some turn)) :
    ¬s.AttemptFails acc env := by
  intro hfails
  cases h with
  | spawned hmap hget henv => simp [AttemptFails, hmap, hget, henv] at hfails
  | unchanged hmap hget hconf => simp [AttemptFails, hmap, hget, hconf] at hfails
  | restarted hmap hget hconf henv => simp [AttemptFails, hmap, hget, henv] at hfails

/-- The failures on record for an account. -/
def failures (s : Coordinator x) (key : AccountKey) : ℕ := (s.consecutiveFailures.get? key).getD 0

/-- How a turn ends. -/
inductive TurnEnd (now : ℚ) (s : Coordinator x) (row : EmailAccount × Outcomes) :
    Coordinator x × Except String (AccountKey × Turn) → Prop
  | waits (hwait : s.InBackoff row.1.key now) : TurnEnd now s row (s, .ok (row.1.key, .inBackoff))
  | done {s' : Coordinator x} {turn : Turn} (hdue : ¬s.InBackoff row.1.key now)
      (htry : TryEnd s row.1 row.2 (s', some turn)) : TurnEnd now s row (s', .ok (row.1.key, turn))
  | failed {s' : Coordinator x} {n : ℕ} {backoff : ℚ} (hdue : ¬s.InBackoff row.1.key now)
      (hfails : s.AttemptFails row.1 row.2) (hcount : s.failures row.1.key < 1024)
      (hs' : Confined row.1.key s s') (hnext : s'.failures row.1.key = s.failures row.1.key + 1)
      (hretry : ∃ retry ≤ now + 300, s'.nextRetryTime.get? row.1.key = some retry) :
      TurnEnd now s row (s', .ok (row.1.key, .failed n backoff))
  | raised {s' : Coordinator x} {e : String} (hdue : ¬s.InBackoff row.1.key now)
      (hfails : s.AttemptFails row.1 row.2) (hcount : 1024 ≤ s.failures row.1.key)
      (hs' : Confined row.1.key s s') : TurnEnd now s row (s', .error e)

theorem confined_cleanUp (s : Coordinator x) (acc : EmailAccount) :
    Confined acc.key s (cleanUp s acc) := by
  unfold cleanUp
  rcases mapProvider x acc.provider with _ | provider
  · exact Confined.refl ..
  · exact confined_unregister ..

theorem failures_cleanUp (s : Coordinator x) (acc : EmailAccount) :
    (cleanUp s acc).consecutiveFailures = s.consecutiveFailures := by
  unfold cleanUp
  rcases mapProvider x acc.provider with _ | provider
  · rfl
  · rfl

theorem confined_onFailure (s : Coordinator x) (acc : EmailAccount) (now : ℚ) :
    Confined acc.key s (onFailure s acc now).1 := by
  refine (confined_cleanUp s acc).trans ?_
  unfold onFailure
  dsimp only
  rcases calculateBackoffSec _ with e | backoff
  · exact ⟨fun _ _ => rfl, fun k hk => Dict.get?_set_of_ne _ _ hk, fun _ _ => rfl⟩
  · exact ⟨fun _ _ => rfl, fun k hk => Dict.get?_set_of_ne _ _ hk,
      fun k hk => Dict.get?_set_of_ne _ _ hk⟩

/-- The handler counts the failure and sets the time of the next attempt; it raises
itself at the 1025th failure in a row. -/
theorem onFailure_result (s : Coordinator x) (acc : EmailAccount) (now : ℚ) :
    (s.failures acc.key < 1024 ∧
      (onFailure s acc now).1.failures acc.key = s.failures acc.key + 1 ∧
      (∃ retry ≤ now + 300, (onFailure s acc now).1.nextRetryTime.get? acc.key = some retry) ∧
      ∃ n backoff, (onFailure s acc now).2 = .ok (acc.key, .failed n backoff)) ∨
    (1024 ≤ s.failures acc.key ∧ ∃ e, (onFailure s acc now).2 = .error e) := by
  unfold onFailure
  dsimp only
  rw [failures_cleanUp, ← failures]
  rcases Nat.lt_or_ge (s.failures acc.key) 1024 with hlt | hge
  · have hback : calculateBackoffSec (s.failures acc.key + 1) =
        .ok (min (10 * 2 ^ s.failures acc.key) 300) := by
      simp [calculateBackoffSec, Nat.not_le.2 hlt]
    rw [hback]
    refine .inl ⟨hlt, by simp [failures], ⟨_, ?_, Dict.get?_set_self ..⟩, _, _, rfl⟩
    exact add_le_add_right (min_le_right _ _) now
  · refine .inr ⟨hge, "(34, 'Numerical result out of range')", ?_⟩
    simp [calculateBackoffSec, hge]

theorem turn_end (now : ℚ) (s : Coordinator x) (row : EmailAccount × Outcomes) :
    TurnEnd now s row (reconcileAccount now s row) := by
  obtain ⟨acc, env⟩ := row
  unfold reconcileAccount
  by_cases hwait : s.InBackoff acc.key now
  · rw [if_pos hwait]
    exact .waits hwait
  rw [if_neg hwait]
  have hend := tryReconcile_end s acc env
  rcases htry : tryReconcile s acc env with ⟨s', _ | turn⟩
  · rw [htry] at hend
    cases hend with
    | raised hfails hs' hcount =>
      have hconf : Confined acc.key s (onFailure s' acc now).1 :=
        hs'.trans (confined_onFailure s' acc now)
      have hsame : s'.failures acc.key = s.failures acc.key := by rw [failures, hcount, failures]
      have hresult := onFailure_result s' acc now
      rw [hsame] at hresult
      show TurnEnd now s (acc, env) (onFailure s' acc now)
      rcases hrun : onFailure s' acc now with ⟨s'', r⟩
      rw [hrun] at hconf hresult
      obtain ⟨hlt, hnext, hretry, n, backoff, rfl⟩ | ⟨hge, e, rfl⟩ := hresult
      · exact .failed hwait hfails hlt hconf hnext hretry
      · exact .raised hwait hfails hge hconf
  · rw [htry] at hend
    exact .done hwait hend

theorem TryEnd.confined {r : Coordinator x × Option Turn} (h : TryEnd s acc env r) :
    Confined acc.key s r.1 := by
  have hstarted : ∀ (s : Coordinator x) provider, Confined acc.key s (started s acc provider) := by
    intro s provider
    have hspawn := confined_spawn s acc ⟨true, true, true⟩ provider
    rwa [spawn_of_ok rfl rfl] at hspawn
  cases h with
  | spawned hmap hget henv =>
    exact (hstarted s _).trans ⟨fun _ _ => rfl, fun _ _ => rfl, fun _ _ => rfl⟩
  | unchanged hmap hget hconf => exact Confined.refl ..
  | restarted hmap hget hconf henv => exact (confined_unregister s acc _).trans (hstarted _ _)
  | raised hfails hs' hcount => exact hs'

theorem confined_reconcileAccount (now : ℚ) (s : Coordinator x) (row : EmailAccount × Outcomes) :
    Confined row.1.key s (reconcileAccount now s row).1 := by
  have hend := turn_end now s row
  generalize reconcileAccount now s row = r at hend
  cases hend with
  | waits hwait => exact Confined.refl ..
  | done hdue htry => exact htry.confined
  | failed hdue hfails hcount hs' _ _ => exact hs'
  | raised hdue hfails hcount hs' => exact hs'

/-! ## The first loop -/

section Terminate

variable {γ : Type*} (activeKeys : List AccountKey) (s)

/-- The daemons of active accounts stay, and no others. -/
theorem get?_registry_terminate (k : DaemonKey) :
    (terminate activeKeys s).registry.get? k =
      if (k.1, k.2.1) ∈ activeKeys then s.registry.get? k else none := by
  have hstep : ∀ (s : Coordinator x) d, (terminateStep activeKeys s d).registry.get? k =
      if decide (daemonAccount d ∉ activeKeys ∧ keyId id d = k) then none
      else s.registry.get? k := by
    intro s d
    unfold terminateStep
    by_cases hd : daemonAccount d ∈ activeKeys
    · simp [hd]
    · show (if daemonAccount d ∈ activeKeys then s else _).registry.get? k = _
      rw [if_neg hd]
      refine (Table.get?_remove ..).trans ?_
      simp [hd, keyId, eq_comm]
  have hfold := Loop.get_foldl_of_erasing (g := fun s : Coordinator x => s.registry.get? k) hstep s
    (s.registry.listDaemons none)
  rw [terminate, hfold]
  by_cases hk : (k.1, k.2.1) ∈ activeKeys
  · rw [if_pos hk, if_neg]
    simp only [List.any_eq_true, decide_eq_true_eq, not_exists, not_and]
    rintro d - hd rfl
    exact hd hk
  · rw [if_neg hk]
    rcases hget : s.registry.get? k with _ | d
    · simp
    · rw [if_pos]
      obtain ⟨hd, rfl⟩ := Table.get?_eq_some_iff.1 hget
      exact List.any_eq_true.2 ⟨d, Table.mem_toList.2 hd, decide_eq_true ⟨hk, rfl⟩⟩

/-- The account has a registered daemon. -/
def HasDaemon (key : AccountKey) : Prop := ∃ d ∈ s.registry.listDaemons none, daemonAccount d = key

/-- An entry about an account, in a dictionary from which the first loop deletes. -/
theorem entry_terminate {g : Coordinator x → Dict AccountKey γ} (key : AccountKey)
    (hstep : ∀ s d, g (terminateStep activeKeys s d) =
      if daemonAccount d ∈ activeKeys then g s else (g s).erase (daemonAccount d)) :
    (key ∈ activeKeys → (g (terminate activeKeys s)).get? key = (g s).get? key) ∧
    (key ∉ activeKeys → ((g (terminate activeKeys s)).get? key = none ↔
      (g s).get? key = none ∨ s.HasDaemon key)) := by
  have hget : ∀ s d, (g (terminateStep activeKeys s d)).get? key =
      if decide (daemonAccount d ∉ activeKeys ∧ daemonAccount d = key) then none
      else (g s).get? key := by
    intro s d
    rw [hstep]
    by_cases hd : daemonAccount d ∈ activeKeys
    · simp [hd]
    · rw [if_neg hd, Dict.get?_erase]
      simp [hd, eq_comm]
  have hfold := Loop.get_foldl_of_erasing (g := fun s => (g s).get? key) hget s
    (s.registry.listDaemons none)
  rw [← terminate] at hfold
  constructor
  · intro hkey
    rw [hfold, if_neg]
    simp only [List.any_eq_true, decide_eq_true_eq, not_exists, not_and]
    rintro d - hd rfl
    exact hd hkey
  · intro hkey
    have hany : (s.registry.listDaemons none).any
        (fun d => decide (daemonAccount d ∉ activeKeys ∧ daemonAccount d = key)) = true ↔
        s.HasDaemon key := by
      simp only [List.any_eq_true, decide_eq_true_eq, HasDaemon]
      refine exists_congr fun d => and_congr_right fun _ => ⟨fun h => h.2, ?_⟩
      rintro rfl
      exact ⟨hkey, rfl⟩
    rw [hfold]
    by_cases hd : s.HasDaemon key
    · rw [if_pos (hany.2 hd)]
      simp [hd]
    · rw [if_neg (mt hany.1 hd)]
      simp [hd]

theorem failures_terminate (key : AccountKey) :
    (key ∈ activeKeys → (terminate activeKeys s).consecutiveFailures.get? key =
      s.consecutiveFailures.get? key) ∧
    (key ∉ activeKeys → ((terminate activeKeys s).consecutiveFailures.get? key = none ↔
      s.consecutiveFailures.get? key = none ∨ s.HasDaemon key)) := by
  refine entry_terminate (g := fun s => s.consecutiveFailures) s activeKeys key fun s d => ?_
  unfold terminateStep
  split_ifs
  · rfl
  · rfl

theorem retry_terminate (key : AccountKey) :
    (key ∈ activeKeys → (terminate activeKeys s).nextRetryTime.get? key =
      s.nextRetryTime.get? key) ∧
    (key ∉ activeKeys → ((terminate activeKeys s).nextRetryTime.get? key = none ↔
      s.nextRetryTime.get? key = none ∨ s.HasDaemon key)) := by
  refine entry_terminate (g := fun s => s.nextRetryTime) s activeKeys key fun s d => ?_
  unfold terminateStep
  split_ifs
  · rfl
  · rfl

variable {activeKeys s}

/-- The first loop ends no backoff window of an active account. -/
theorem inBackoff_terminate {key : AccountKey} {now : ℚ} (hkey : key ∈ activeKeys) :
    (terminate activeKeys s).InBackoff key now ↔ s.InBackoff key now := by
  unfold InBackoff
  rw [(retry_terminate s activeKeys key).1 hkey]

end Terminate

/-! ## The desired state -/

/-- The keys of the registered daemons. -/
def registeredKeys (s : Coordinator x) : Finset DaemonKey :=
  ((s.registry.listDaemons none).map (keyId id)).toFinset

/-- The keys that the active accounts ask for. -/
def desiredKeys (x : SyncLib) (w : Sweep) : Finset DaemonKey :=
  (w.activeAccounts.filterMap fun row =>
    (mapProvider x row.1.provider).map fun provider => (row.1.tenantId, row.1.id, provider)).toFinset

/-- In the sweep every active account has a known provider, and no daemon fails to
stop, to be created or to start. -/
def NoFailure (x : SyncLib) (w : Sweep) : Prop :=
  ∀ row ∈ w.activeAccounts, (mapProvider x row.1.provider).isSome ∧
    row.2.stop ∧ row.2.create ∧ row.2.start

instance (w : Sweep) : Decidable (NoFailure x w) := inferInstanceAs (Decidable (∀ _ ∈ _, _))

theorem mem_registeredKeys_iff {k : DaemonKey} :
    k ∈ s.registeredKeys ↔ ∃ d ∈ s.registry.listDaemons none, keyId id d = k := by
  simp [registeredKeys]

theorem mem_desiredKeys {w : Sweep} {k : DaemonKey} :
    k ∈ desiredKeys x w ↔ ∃ row ∈ w.activeAccounts, ∃ provider,
      mapProvider x row.1.provider = some provider ∧
        (row.1.tenantId, row.1.id, provider) = k := by
  simp [desiredKeys]

theorem mem_registeredKeys {k : DaemonKey} :
    k ∈ s.registeredKeys ↔ (s.registry.get? k).isSome := by
  rw [mem_registeredKeys_iff]
  constructor
  · rintro ⟨d, hd, rfl⟩
    have hget : s.registry.get? (keyId id d) = some d := Table.mem_toList.1 hd
    simp [hget]
  · intro h
    obtain ⟨d, hget⟩ := Option.isSome_iff_exists.1 h
    obtain ⟨hd, hk⟩ := Table.get?_eq_some_iff.1 hget
    exact ⟨d, Table.mem_toList.2 hd, hk⟩

theorem mem_registeredKeys_started {k : DaemonKey} :
    k ∈ (started s acc provider).registeredKeys ↔
      k ∈ s.registeredKeys ∨ k = (acc.tenantId, acc.id, provider) := by
  have hget : (started s acc provider).registry.get? k =
      if k = (acc.tenantId, acc.id, provider) then some (daemonOf acc provider)
      else s.registry.get? k := Table.get?_insert k
  rw [mem_registeredKeys, mem_registeredKeys, hget]
  by_cases hk : k = (acc.tenantId, acc.id, provider)
  · simp [hk]
  · simp [hk]

theorem mem_registeredKeys_unregistered {k : DaemonKey} :
    k ∈ (unregistered s acc provider).registeredKeys ↔
      k ≠ (acc.tenantId, acc.id, provider) ∧ k ∈ s.registeredKeys := by
  have hget : (unregistered s acc provider).registry.get? k =
      if k = (acc.tenantId, acc.id, provider) then none else s.registry.get? k :=
    Table.get?_remove ..
  rw [mem_registeredKeys, mem_registeredKeys, hget]
  by_cases hk : k = (acc.tenantId, acc.id, provider)
  · simp [hk]
  · simp [hk]

theorem not_inBackoff_started (provider : MailboxProvider) {key : AccountKey} {now : ℚ} (h : ¬s.InBackoff key now) :
    ¬(started s acc provider).InBackoff key now := by
  rintro ⟨retry, hget, hlt⟩
  have herase : (s.nextRetryTime.erase acc.key).get? key = some retry := hget
  rw [Dict.get?_erase] at herase
  split_ifs at herase
  exact h ⟨retry, herase, hlt⟩

theorem not_attemptFails (hmap : mapProvider x acc.provider = some provider)
    (henv : env.stop ∧ env.create ∧ env.start) : ¬s.AttemptFails acc env := by
  obtain ⟨hstop, hcreate, hstart⟩ := henv
  rcases hget : s.registry.getDaemon acc.tenantId acc.id provider with _ | d
  · simp [AttemptFails, hmap, hget, hcreate, hstart]
  · simp [AttemptFails, hmap, hget, hstop, hcreate, hstart]

/-- A turn in which nothing fails adds the account's key to the registered ones, and
puts no account into a backoff window. -/
theorem turn_of_noFailure {now : ℚ} {row : EmailAccount × Outcomes}
    (hmap : mapProvider x row.1.provider = some provider)
    (henv : row.2.stop ∧ row.2.create ∧ row.2.start) (hdue : ¬s.InBackoff row.1.key now) :
    (∃ b, (reconcileAccount now s row).2 = .ok b) ∧
    (∀ k, k ∈ (reconcileAccount now s row).1.registeredKeys ↔
      k ∈ s.registeredKeys ∨ k = (row.1.tenantId, row.1.id, provider)) ∧
    ∀ key, ¬s.InBackoff key now → ¬(reconcileAccount now s row).1.InBackoff key now := by
  have hend := turn_end now s row
  generalize reconcileAccount now s row = r at hend
  cases hend with
  | waits hwait => exact absurd hwait hdue
  | failed _ hfails _ _ _ _ => exact absurd hfails (not_attemptFails hmap henv)
  | raised _ hfails _ _ => exact absurd hfails (not_attemptFails hmap henv)
  | done _ htry =>
    refine ⟨⟨_, rfl⟩, ?_⟩
    cases htry with
    | spawned hmap' _ _ =>
      obtain rfl : provider = _ := Option.some.inj (hmap.symm.trans hmap')
      exact ⟨fun _ => mem_registeredKeys_started, fun _ => not_inBackoff_started provider⟩
    | @unchanged _ d hmap' hget _ =>
      obtain rfl : provider = _ := Option.some.inj (hmap.symm.trans hmap')
      refine ⟨fun k => ⟨.inl, ?_⟩, fun _ h => h⟩
      rintro (hk | rfl)
      · exact hk
      · have hsome : s.registry.get? (row.1.tenantId, row.1.id, provider) = some d := hget
        exact mem_registeredKeys.2 (by simp [hsome])
    | restarted hmap' _ _ _ =>
      obtain rfl : provider = _ := Option.some.inj (hmap.symm.trans hmap')
      refine ⟨fun k => ?_, fun _ => not_inBackoff_started provider⟩
      rw [mem_registeredKeys_started, mem_registeredKeys_unregistered]
      tauto

/-- The second loop, when nothing fails. -/
theorem forEach_of_noFailure {now : ℚ} {rows : List (EmailAccount × Outcomes)}
    (hrows : ∀ row ∈ rows, (mapProvider x row.1.provider).isSome ∧
      row.2.stop ∧ row.2.create ∧ row.2.start)
    (hdue : ∀ row ∈ rows, ¬s.InBackoff row.1.key now) (k : DaemonKey) :
    k ∈ (Loop.forEach (reconcileAccount now) s rows).1.registeredKeys ↔
      k ∈ s.registeredKeys ∨ ∃ row ∈ rows, ∃ provider,
        mapProvider x row.1.provider = some provider ∧
          (row.1.tenantId, row.1.id, provider) = k := by
  induction rows generalizing s with
  | nil => simp [Loop.forEach]
  | cons row rows ih =>
    obtain ⟨hsome, henv⟩ := hrows row (List.mem_cons_self ..)
    obtain ⟨provider, hmap⟩ := Option.isSome_iff_exists.1 hsome
    obtain ⟨⟨b, hok⟩, hkeys, hback⟩ :=
      turn_of_noFailure hmap henv (hdue row (List.mem_cons_self ..))
    rw [Loop.forEach]
    rcases hrun : reconcileAccount now s row with ⟨s', r⟩
    rw [hrun] at hok hkeys hback
    obtain rfl : r = .ok b := hok
    have hrest := ih (s := s') (fun row' h => hrows row' (List.mem_cons_of_mem _ h))
      fun row' h => hback _ (hdue row' (List.mem_cons_of_mem _ h))
    show k ∈ (Loop.forEach (reconcileAccount now) s' rows).1.registeredKeys ↔ _
    rw [hrest, hkeys k]
    simp [hmap, or_assoc, eq_comm]

theorem reconcileOnce_registeredKeys (s : Coordinator x) (w : Sweep) :
    (reconcileOnce s w).1.registeredKeys =
      (Loop.forEach (reconcileAccount w.now) (terminate w.activeKeys s)
        w.activeAccounts).1.registeredKeys := by
  unfold reconcileOnce
  rcases Loop.forEach _ _ _ with ⟨s', e | turns⟩
  · rfl
  · rfl

/-- **What is registered after a sweep in which nothing fails**: the desired keys, and
the old ones of accounts that are still active. -/
theorem mem_registeredKeys_reconcileOnce {w : Sweep} (hw : NoFailure x w)
    (hdue : ∀ row ∈ w.activeAccounts, ¬s.InBackoff row.1.key w.now) (k : DaemonKey) :
    k ∈ (reconcileOnce s w).1.registeredKeys ↔
      k ∈ s.registeredKeys ∧ (k.1, k.2.1) ∈ w.activeKeys ∨ k ∈ desiredKeys x w := by
  have hdue' : ∀ row ∈ w.activeAccounts, ¬(terminate w.activeKeys s).InBackoff row.1.key w.now := by
    intro row hrow
    have hkey : row.1.key ∈ w.activeKeys := List.mem_map_of_mem hrow
    rw [inBackoff_terminate hkey]
    exact hdue row hrow
  have hkept : k ∈ (terminate w.activeKeys s).registeredKeys ↔
      k ∈ s.registeredKeys ∧ (k.1, k.2.1) ∈ w.activeKeys := by
    rw [mem_registeredKeys, get?_registry_terminate, mem_registeredKeys]
    by_cases hk : (k.1, k.2.1) ∈ w.activeKeys
    · simp [hk]
    · simp [hk]
  rw [reconcileOnce_registeredKeys, forEach_of_noFailure hw hdue' k, hkept, mem_desiredKeys]

/-- **The desired state is reached exactly when no account has left a provider.**  After
any history of sweeps, a sweep in which nothing fails and no active account waits
leaves the desired keys registered if and only if every daemon whose account is still
active has a provider that the account still asks for. -/
theorem registered_after_iff (history : List Sweep) (w : Sweep) (hw : NoFailure x w)
    (hdue : ∀ row ∈ w.activeAccounts,
      ¬(Machine.run reconcileOnce (init : Coordinator x) history).InBackoff row.1.key w.now) :
    (reconcileOnce (Machine.run reconcileOnce (init : Coordinator x) history) w).1.registeredKeys =
        desiredKeys x w ↔
      ∀ d ∈ (Machine.run reconcileOnce (init : Coordinator x) history).registry.listDaemons none,
        daemonAccount d ∈ w.activeKeys → keyId id d ∈ desiredKeys x w := by
  generalize Machine.run reconcileOnce (init : Coordinator x) history = s at hdue ⊢
  have hafter := mem_registeredKeys_reconcileOnce hw hdue
  constructor
  · intro heq d hd hactive
    rw [← heq]
    exact (hafter _).2 (.inl ⟨mem_registeredKeys_iff.2 ⟨d, hd, rfl⟩, hactive⟩)
  · intro h
    ext k
    rw [hafter k]
    refine ⟨?_, .inr⟩
    rintro (⟨hk, hactive⟩ | hk)
    · obtain ⟨d, hd, rfl⟩ := mem_registeredKeys_iff.1 hk
      exact h d hd hactive
    · exact hk

/-! ## An account that changes -/

/-- The fingerprints of the samples. -/
def sampleFingerprints : List (String × String) :=
  [("GMAIL:u@corp.local:t:r", "359e713b8a08c8b960aa2e7cab207553059181b7499dc71f781333cf838beda6"),
   ("IMAP:u@corp.local:t:r", "1394977523faefceaa33f2b1e1fef453fc314bbed189426f2fa292e1be85f991"),
   ("GMAIL:v@corp.local:t:r", "01ff3fde16f2e056d6a503d498722d13f198dc6a607890376596048b287be38a")]

def sampleSyncLib : SyncLib where
  lower := Text.asciiLower
  upper := Text.asciiUpper
  sha256 s := (sampleFingerprints.lookup s).getD ""

def sampleAccount (provider address : String) : EmailAccount where
  tenantId := .ofNat 1
  id := .ofNat 2
  provider := .text provider
  emailAddress := address
  accessToken := "t"
  refreshToken := "r"
  isActive := true

/-- A sweep over one account. -/
def sampleSweep (acc : EmailAccount) (env : Outcomes) (now : ℚ) : Sweep := ⟨[(acc, env)], now⟩

theorem registered_after_address_change :
    let w := sampleSweep (sampleAccount "GMAIL" "u@corp.local") ⟨true, true, true⟩ 0
    let w' := sampleSweep (sampleAccount "GMAIL" "v@corp.local") ⟨true, true, true⟩ 60
    let s := Machine.run reconcileOnce (init : Coordinator sampleSyncLib) [w]
    (reconcileOnce s w').1.registeredKeys = desiredKeys sampleSyncLib w' := by
  intro w w' s
  refine (registered_after_iff [w] w' ?_ ?_).2 ?_
  all_goals decide

/-- **A daemon of the old provider stays.**  An account moves from Gmail to IMAP; the
next sweep starts the new daemon and leaves the old one. -/
theorem old_provider_stays_registered :
    let w := sampleSweep (sampleAccount "GMAIL" "u@corp.local") ⟨true, true, true⟩ 0
    let w' := sampleSweep (sampleAccount "IMAP" "u@corp.local") ⟨true, true, true⟩ 60
    let s := Machine.run reconcileOnce (init : Coordinator sampleSyncLib) [w]
    NoFailure sampleSyncLib w' ∧ (∀ row ∈ w'.activeAccounts, ¬s.InBackoff row.1.key w'.now) ∧
      (reconcileOnce s w').1.registeredKeys ≠ desiredKeys sampleSyncLib w' := by
  decide

/-! ## Failure isolation -/

/-- **Failure isolation of one sweep.**  It completes, tries every active account that
is not in its backoff window, and keeps no retry time and no failure count of an
account that is not active. -/
def Isolated (s : Coordinator x) (w : Sweep) : Prop :=
  (∃ report, (reconcileOnce s w).2 = .ok report ∧
    ∀ row ∈ w.activeAccounts, ¬s.InBackoff row.1.key w.now →
      row.1.key ∈ report.attempted) ∧
  ∀ key, key ∈ (reconcileOnce s w).1.nextRetryTime.keys ∨
    key ∈ (reconcileOnce s w).1.consecutiveFailures.keys → key ∈ w.activeKeys

/-- The account is not tried for the 1025th time in vain. -/
def Bearable (now : ℚ) (s : Coordinator x) (row : EmailAccount × Outcomes) : Prop :=
  ¬s.InBackoff row.1.key now → s.AttemptFails row.1 row.2 → s.failures row.1.key < 1024

/-- **The sweeps that isolate failures.**  No account fails that has 1024 failures in a
row on record, and every account with an entry is active or has a daemon. -/
def Tolerable (s : Coordinator x) (w : Sweep) : Prop :=
  Machine.Always (reconcileAccount w.now) (Bearable w.now) (terminate w.activeKeys s)
    w.activeAccounts ∧
  ∀ key, key ∈ s.nextRetryTime.keys ∨ key ∈ s.consecutiveFailures.keys →
    key ∈ w.activeKeys ∨ s.HasDaemon key

theorem turn_ok_iff (now : ℚ) (s : Coordinator x) (row : EmailAccount × Outcomes) :
    (∃ b, (reconcileAccount now s row).2 = .ok b) ↔ Bearable now s row := by
  have hend := turn_end now s row
  generalize reconcileAccount now s row = r at hend
  cases hend with
  | waits hwait => exact iff_of_true ⟨_, rfl⟩ fun hdue => absurd hwait hdue
  | done hdue htry =>
    exact iff_of_true ⟨_, rfl⟩ fun _ hfails => absurd hfails htry.not_attemptFails
  | failed hdue hfails hcount hs' _ _ => exact iff_of_true ⟨_, rfl⟩ fun _ _ => hcount
  | raised hdue hfails hcount hs' =>
    refine iff_of_false (by rintro ⟨b, hb⟩; cases hb) fun h => ?_
    exact absurd (h hdue hfails) (Nat.not_lt.2 hcount)

/-- In a loop that runs to its end, every account that is due is tried. -/
theorem attempted_of_due {now : ℚ} {rows : List (EmailAccount × Outcomes)}
    {turns : List (AccountKey × Turn)} {key : AccountKey}
    (hrun : (Loop.forEach (reconcileAccount now) s rows).2 = .ok turns)
    (hkey : key ∈ rows.map fun row => row.1.key) (hdue : ¬s.InBackoff key now) :
    ∃ turn, turn ≠ Turn.inBackoff ∧ (key, turn) ∈ turns := by
  induction rows generalizing s turns with
  | nil => simp at hkey
  | cons row rows ih =>
    have hend := turn_end now s row
    have hconf := confined_reconcileAccount now s row
    rw [Loop.forEach] at hrun
    rcases hfirst : reconcileAccount now s row with ⟨s', e | b⟩
    · rw [hfirst] at hrun
      cases hrun
    rw [hfirst] at hrun hend hconf
    rcases hrest : (Loop.forEach (reconcileAccount now) s' rows).2 with e | turns'
    · simp [hrest, Except.map] at hrun
    obtain rfl : b :: turns' = turns := by simpa [hrest, Except.map] using hrun
    by_cases hk : key = row.1.key
    · subst hk
      cases hend with
      | waits hwait => exact absurd hwait hdue
      | @done _ turn _ htry =>
        refine ⟨turn, ?_, List.mem_cons_self ..⟩
        rintro rfl
        cases htry
      | @failed _ n backoff _ _ _ _ _ _ =>
        refine ⟨.failed n backoff, ?_, List.mem_cons_self ..⟩
        intro heq
        cases heq
    · have hmem : key ∈ rows.map fun row => row.1.key := by simpa [hk] using hkey
      have hdue' : ¬s'.InBackoff key now := by
        unfold InBackoff
        rw [hconf.retry key hk]
        exact hdue
      obtain ⟨turn, hturn, hmem'⟩ := ih hrest hmem hdue'
      exact ⟨turn, hturn, List.mem_cons_of_mem _ hmem'⟩

/-- The second loop leaves alone what it has no row for. -/
theorem forEach_unlisted (now : ℚ) (s : Coordinator x) {rows : List (EmailAccount × Outcomes)}
    {key : AccountKey} (hkey : key ∉ rows.map fun row => row.1.key) :
    (Loop.forEach (reconcileAccount now) s rows).1.consecutiveFailures.get? key =
        s.consecutiveFailures.get? key ∧
      (Loop.forEach (reconcileAccount now) s rows).1.nextRetryTime.get? key =
        s.nextRetryTime.get? key := by
  refine Loop.forEach_inv (I := fun s' : Coordinator x =>
    s'.consecutiveFailures.get? key = s.consecutiveFailures.get? key ∧
      s'.nextRetryTime.get? key = s.nextRetryTime.get? key) ?_ ⟨rfl, rfl⟩
  intro s' row hrow ⟨hfailures, hretry⟩
  have hne : key ≠ row.1.key := fun h => hkey (h ▸ List.mem_map_of_mem hrow)
  have hconf := confined_reconcileAccount now s' row
  exact ⟨(hconf.failures key hne).trans hfailures, (hconf.retry key hne).trans hretry⟩

theorem reconcileOnce_entries (s : Coordinator x) (w : Sweep) :
    (reconcileOnce s w).1.consecutiveFailures =
        (Loop.forEach (reconcileAccount w.now) (terminate w.activeKeys s)
          w.activeAccounts).1.consecutiveFailures ∧
      (reconcileOnce s w).1.nextRetryTime =
        (Loop.forEach (reconcileAccount w.now) (terminate w.activeKeys s)
          w.activeAccounts).1.nextRetryTime := by
  unfold reconcileOnce
  rcases Loop.forEach _ _ _ with ⟨s', e | turns⟩
  · exact ⟨rfl, rfl⟩
  · exact ⟨rfl, rfl⟩

/-- An account that is not active loses its entries exactly if it has none or has a
daemon. -/
theorem entries_gone_iff (s : Coordinator x) (w : Sweep) {key : AccountKey}
    (hkey : key ∉ w.activeKeys) :
    ¬(key ∈ (reconcileOnce s w).1.nextRetryTime.keys ∨
        key ∈ (reconcileOnce s w).1.consecutiveFailures.keys) ↔
      ((key ∈ s.nextRetryTime.keys ∨ key ∈ s.consecutiveFailures.keys) → s.HasDaemon key) := by
  obtain ⟨hfailures, hretry⟩ := reconcileOnce_entries s w
  obtain ⟨hf, hr⟩ := forEach_unlisted w.now (terminate w.activeKeys s) hkey
  have hf' := (failures_terminate s w.activeKeys key).2 hkey
  have hr' := (retry_terminate s w.activeKeys key).2 hkey
  simp only [Dict.mem_keys_iff, not_or, Option.not_isSome_iff_eq_none]
  rw [hfailures, hretry, hf, hr, hf', hr']
  by_cases hd : s.HasDaemon key
  · simp [hd]
  · simp [hd]

/-- A sweep completes with the turns of its second loop. -/
theorem reconcileOnce_ok_iff (s : Coordinator x) (w : Sweep) (turns : List (AccountKey × Turn)) :
    (Loop.forEach (reconcileAccount w.now) (terminate w.activeKeys s) w.activeAccounts).2 =
        .ok turns ↔
      ∃ report, (reconcileOnce s w).2 = .ok report ∧ report.turns = turns := by
  unfold reconcileOnce
  rcases Loop.forEach _ _ _ with ⟨s', e | turns'⟩
  · simp
  · simp

theorem completes_iff (s : Coordinator x) (w : Sweep) :
    (∃ report, (reconcileOnce s w).2 = .ok report) ↔
      Machine.Always (reconcileAccount w.now) (Bearable w.now) (terminate w.activeKeys s)
        w.activeAccounts := by
  rw [← Machine.always_congr (turn_ok_iff w.now), ← Loop.forEach_ok_iff]
  constructor
  · rintro ⟨report, hreport⟩
    exact ⟨report.turns, (reconcileOnce_ok_iff s w _).2 ⟨report, hreport, rfl⟩⟩
  · rintro ⟨turns, hturns⟩
    obtain ⟨report, hreport, -⟩ := (reconcileOnce_ok_iff s w turns).1 hturns
    exact ⟨report, hreport⟩

/-- A sweep that completes has tried every active account that was due. -/
theorem attempted_of_completes {w : Sweep} {report : SyncReport}
    (hok : (reconcileOnce s w).2 = .ok report) {row : EmailAccount × Outcomes}
    (hrow : row ∈ w.activeAccounts) (hdue : ¬s.InBackoff row.1.key w.now) :
    row.1.key ∈ report.attempted := by
  have hturns := (reconcileOnce_ok_iff s w _).2 ⟨report, hok, rfl⟩
  have hkey : row.1.key ∈ w.activeKeys := List.mem_map_of_mem hrow
  have hdue' : ¬(terminate w.activeKeys s).InBackoff row.1.key w.now := by
    rwa [inBackoff_terminate hkey]
  obtain ⟨turn, hturn, hmem⟩ := attempted_of_due hturns hkey hdue'
  have hfilter : (row.1.key, turn) ∈ report.turns.filter fun turn => turn.2 ≠ .inBackoff :=
    List.mem_filter.2 ⟨hmem, by simpa using hturn⟩
  exact List.mem_map.2 ⟨_, hfilter, rfl⟩

/-- **A sweep isolates failures exactly when it is tolerable.** -/
theorem isolated_iff (s : Coordinator x) (w : Sweep) : s.Isolated w ↔ s.Tolerable w := by
  have hgone := fun key (hkey : key ∉ w.activeKeys) => entries_gone_iff s w hkey
  constructor
  · rintro ⟨⟨report, hok, -⟩, hkeys⟩
    refine ⟨(completes_iff s w).1 ⟨report, hok⟩, fun key hkey => ?_⟩
    by_cases hactive : key ∈ w.activeKeys
    · exact .inl hactive
    · exact .inr ((hgone key hactive).1 (fun hleft => hactive (hkeys key hleft)) hkey)
  · rintro ⟨hbear, hkeys⟩
    obtain ⟨report, hok⟩ := (completes_iff s w).2 hbear
    refine ⟨⟨report, hok, fun row hrow hdue => attempted_of_completes hok hrow hdue⟩, ?_⟩
    intro key hleft
    by_contra hactive
    refine (hgone key hactive).2 (fun hkey => ?_) hleft
    exact (hkeys key hkey).resolve_left hactive

/-- **Failure isolation over a history.**  Every sweep of a history isolates failures if
and only if every one is tolerable in the state it starts from. -/
theorem isolated_throughout_iff (history : List Sweep) :
    Machine.Always reconcileOnce Isolated (init : Coordinator x) history ↔
      Machine.Always reconcileOnce Tolerable (init : Coordinator x) history :=
  Machine.always_congr isolated_iff init history

/-! ## The 1025th failure, and an account that goes away -/

/-- A sweep over one active account whose provider is unknown. -/
def hopelessSweep (acc : EmailAccount) (n : ℕ) : Sweep := ⟨[(acc, ⟨true, true, true⟩)], 300 * n⟩

theorem reconcileOnce_hopeless {n : ℕ} (hmap : mapProvider x acc.provider = none)
    (hactive : acc.isActive)
    (hdue : ∀ retry, s.nextRetryTime.get? acc.key = some retry → retry ≤ 300 * n) :
    (s.failures acc.key < 1024 ∧
      (reconcileOnce s (hopelessSweep acc n)).1.failures acc.key = s.failures acc.key + 1 ∧
      ∀ retry, (reconcileOnce s (hopelessSweep acc n)).1.nextRetryTime.get? acc.key = some retry →
        retry ≤ 300 * (n + 1 : ℕ)) ∨
    (1024 ≤ s.failures acc.key ∧ ∃ e, (reconcileOnce s (hopelessSweep acc n)).2 = .error e) := by
  have hrows : (hopelessSweep acc n).activeAccounts = [(acc, ⟨true, true, true⟩)] := by
    simp [hopelessSweep, Sweep.activeAccounts, hactive]
  have hkey : acc.key ∈ (hopelessSweep acc n).activeKeys := by simp [Sweep.activeKeys, hrows]
  have hsame : (terminate (hopelessSweep acc n).activeKeys s).failures acc.key =
      s.failures acc.key := by
    rw [failures, (failures_terminate s _ acc.key).1 hkey, failures]
  have hfails : ∀ s : Coordinator x, s.AttemptFails acc ⟨true, true, true⟩ := by
    intro s
    simp [AttemptFails, hmap]
  have hend := turn_end (hopelessSweep acc n).now (terminate (hopelessSweep acc n).activeKeys s)
    (acc, ⟨true, true, true⟩)
  unfold reconcileOnce
  rw [hrows, Loop.forEach_singleton]
  generalize reconcileAccount _ _ _ = r at hend ⊢
  cases hend with
  | waits hwait =>
    obtain ⟨retry, hget, hlt⟩ := (inBackoff_terminate hkey).1 hwait
    exact absurd (hdue retry hget) (not_le.2 hlt)
  | done _ htry => exact absurd (hfails _) htry.not_attemptFails
  | failed _ _ hcount _ hnext hretry =>
    rw [hsame] at hcount hnext
    refine .inl ⟨hcount, hnext, fun retry hget => ?_⟩
    obtain ⟨retry', hle, hget'⟩ := hretry
    obtain rfl : retry' = retry := Option.some.inj (hget'.symm.trans hget)
    refine hle.trans (le_of_eq ?_)
    push_cast
    show (300 * n : ℚ) + 300 = 300 * (n + 1)
    ring
  | raised _ _ hcount _ =>
    rw [hsame] at hcount
    exact .inr ⟨hcount, _, rfl⟩

/-- The failures of an account with an unknown provider pile up. -/
theorem failures_pile_up (hmap : mapProvider x acc.provider = none) (hactive : acc.isActive)
    {n : ℕ} (hn : n ≤ 1024) :
    (Machine.run reconcileOnce (init : Coordinator x)
        ((List.range n).map (hopelessSweep acc))).failures acc.key = n ∧
    ∀ retry, (Machine.run reconcileOnce (init : Coordinator x)
        ((List.range n).map (hopelessSweep acc))).nextRetryTime.get? acc.key = some retry →
      retry ≤ 300 * n := by
  induction n with
  | zero => exact ⟨rfl, nofun⟩
  | succ n ih =>
    obtain ⟨hcount, hretry⟩ := ih (by omega)
    rw [List.range_succ, List.map_append, Machine.run_append, List.map_singleton, Machine.run_cons,
      Machine.run_nil]
    rcases reconcileOnce_hopeless hmap hactive hretry with ⟨-, hnext, hretry'⟩ | ⟨hge, -⟩
    · exact ⟨by rw [hnext, hcount], hretry'⟩
    · omega

theorem not_isolated_of_hopeless (hmap : mapProvider x acc.provider = none)
    (hactive : acc.isActive) {n : ℕ} (hn : 1024 < n) :
    ¬Machine.Always reconcileOnce Isolated (init : Coordinator x)
      ((List.range n).map (hopelessSweep acc)) := by
  intro h
  obtain ⟨hcount, hretry⟩ := failures_pile_up hmap hactive (le_refl 1024)
  obtain ⟨m, rfl⟩ : ∃ m, n = 1024 + 1 + m := Nat.exists_eq_add_of_le hn
  rw [List.range_add, List.range_succ, List.append_assoc, List.map_append, Machine.always_append] at h
  obtain ⟨⟨report, hok, -⟩, -⟩ := h.2.1
  rcases reconcileOnce_hopeless hmap hactive hretry with ⟨hlt, -⟩ | ⟨-, e, herror⟩
  · omega
  · rw [herror] at hok
    cases hok

/-- **Both ways to fail.**  An account with an unknown provider makes the 1025th sweep
raise; and an account that fails once and is then removed stays on record. -/
theorem failures_not_isolated :
    ¬Machine.Always reconcileOnce Isolated (init : Coordinator sampleSyncLib)
      ((List.range 1025).map (hopelessSweep (sampleAccount "POP3" "u@corp.local"))) ∧
    ¬Machine.Always reconcileOnce Isolated (init : Coordinator sampleSyncLib)
      [sampleSweep (sampleAccount "GMAIL" "u@corp.local") ⟨true, true, false⟩ 0, ⟨[], 60⟩] := by
  constructor
  · exact not_isolated_of_hopeless (by decide) rfl (by omega)
  · rintro ⟨-, ⟨-, hkeys⟩, -⟩
    have hleft := hkeys (.ofNat 1, .ofNat 2) (by decide)
    revert hleft
    decide

end Coordinator
end ScamOn.IngestionGateway
