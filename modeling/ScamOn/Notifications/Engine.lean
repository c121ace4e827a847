import Mathlib.Algebra.Order.Field.Rat
import ScamOn.Lib.Dict
import ScamOn.Lib.Machine
import ScamOn.Lib.Text

/-!
# The notification engine

`NotificationEngine.dispatch` sends an alert to the channels of a tenant: it checks the
tenant's rate limit, then a deduplication cache, and then hands the alert to each
channel with retries.

* `checkRateLimit`, `checkAndUpdateDedup`, `sendWithRetries` and `dispatch` are the
  functions of the source.  What the channels answer is part of a `Dispatch`.
* `dispatch_cases` lists what a dispatch can do.
* `sendWithRetries_delivers_iff`: when a channel with retries ends in `DELIVERED`.
* `suppressed_was_sent`: a suppressed alert was sent before, in every run in which each
  alert that enters the cache reaches a channel and no alert finds the live entry of another.
* `undelivered_suppresses`: the cache is written before anything is sent.
-/

namespace ScamOn.Notifications

/-! ## Data -/

/-- `ChannelType`. -/
inductive ChannelType
  | slack | teams | webhook | email
  deriving DecidableEq, Repr

/-- The text of a `StrEnum` member. -/
def ChannelType.value : ChannelType → String
  | slack => "slack"
  | teams => "teams"
  | webhook => "webhook"
  | email => "email"

/-- `DeliveryStatus`. -/
inductive DeliveryStatus
  | delivered | failed | rateLimited | suppressed | skipped
  deriving DecidableEq, Repr

/-- `NotificationPayloadDTO`: the fields `dispatch` decides on. -/
structure NotificationPayload where
  notificationId : Uuid
  tenantId : String
  eventName : String
  incidentId : Option String
  messageId : Option String

/-- `ChannelDeliveryResultDTO`. -/
structure ChannelDeliveryResult where
  channel : ChannelType
  status : DeliveryStatus
  statusCode : Option ℤ
  error : Option String
  retriesAttempted : ℕ
  deriving DecidableEq

/-- `DispatchSummaryDTO`. -/
structure DispatchSummary where
  notificationId : Uuid
  tenantId : String
  eventName : String
  deliveredChannels : List ChannelType
  failedChannels : List ChannelType
  channelResults : Dict String ChannelDeliveryResult
  isSuppressed : Bool

/-- `TenantNotificationConfigDTO`: what the engine reads of it, within its bounds. -/
structure TenantNotificationConfig where
  tenantId : String
  enabledChannels : List ChannelType
  rateLimitPerMinute : ℤ
  threatDedupWindowSec : ℤ
  rate_ge : 1 ≤ rateLimitPerMinute
  rate_le : rateLimitPerMinute ≤ 1000
  window_ge : 0 ≤ threatDedupWindowSec

/-- The field a model rejects. -/
inductive ValidationError
  | rateLimitPerMinute
  | retriesAttempted
  deriving DecidableEq, Repr

/-- What `send_async` does: it answers, or raises with a message. -/
abbrev SendOutcome : Type := Except String ChannelDeliveryResult

/-- A call of `dispatch`, with the two readings of the clock and the outcome of the
`n`-th attempt on the `i`-th active channel. -/
structure Dispatch where
  payload : NotificationPayload
  channels : Option (List ChannelType)
  tenantConfig : Option TenantNotificationConfig
  limitNow : ℚ
  now : ℚ
  sends : ℕ → ℕ → SendOutcome

/-- `NotificationEngine`.  Of a channel adapter the engine reads its type. -/
structure Engine where
  maxRetries : ℤ
  defaultRateLimit : ℤ
  channels : Dict ChannelType ChannelType
  tenantConfigs : Dict String TenantNotificationConfig
  rateLimitRecords : Dict String (List ℚ)
  dedupCache : Dict String ℚ
  dispatchedCount : ℕ
  deliveredCount : ℕ
  failedCount : ℕ
  suppressedCount : ℕ
  rateLimitedCount : ℕ

/-- `a or b` on texts, `None` and the empty text being false. -/
def orText (a b : Option String) : Option String :=
  match a with
  | some text => if text = "" then b else some text
  | none => b

/-- `incident_id or message_id`, if there is a target at all. -/
def NotificationPayload.targetId (p : NotificationPayload) : Option String :=
  (orText p.incidentId p.messageId).filter (· ≠ "")

/-- What makes two alerts the same. -/
structure Alert where
  tenantId : String
  eventName : String
  target : String
  deriving DecidableEq

/-- `f"{tenant_id}:{event_name}:{target_id}"`. -/
def Alert.dedupKey (a : Alert) : String :=
  a.tenantId ++ ":" ++ a.eventName ++ ":" ++ a.target

def NotificationPayload.alert (p : NotificationPayload) : Option Alert :=
  p.targetId.map fun target => ⟨p.tenantId, p.eventName, target⟩

namespace Engine

/-! ## The functions of the engine -/

/-- `NotificationEngine(channels, max_retries, default_rate_limit)`. -/
def init (channels : Dict ChannelType ChannelType) (maxRetries defaultRateLimit : ℤ) : Engine :=
  ⟨maxRetries, defaultRateLimit, channels, ∅, ∅, ∅, 0, 0, 0, 0, 0⟩

/-- `register_channel`. -/
def registerChannel (s : Engine) (channel : ChannelType) : Engine :=
  { s with channels := s.channels.set channel channel }

/-- `set_tenant_config`. -/
def setTenantConfig (s : Engine) (config : TenantNotificationConfig) : Engine :=
  { s with tenantConfigs := s.tenantConfigs.set config.tenantId config }

/-- `get_tenant_config`: the fallback has the default window of 300 seconds, and the
engine's rate limit, which the model may reject. -/
def getTenantConfig (s : Engine) (tenantId : String) :
    Except ValidationError TenantNotificationConfig :=
  match s.tenantConfigs.get? tenantId with
  | some config => .ok config
  | none =>
    if h : 1 ≤ s.defaultRateLimit ∧ s.defaultRateLimit ≤ 1000 then
      .ok
        { tenantId := tenantId
          enabledChannels := [.slack, .teams, .webhook, .email]
          rateLimitPerMinute := s.defaultRateLimit
          threatDedupWindowSec := 300
          rate_ge := h.1
          rate_le := h.2
          window_ge := by decide }
    else .error .rateLimitPerMinute

/-- `tenant_config or self.get_tenant_config(payload.tenant_id)`. -/
def resolveConfig (s : Engine) (d : Dispatch) : Except ValidationError TenantNotificationConfig :=
  match d.tenantConfig with
  | some config => .ok config
  | none => s.getTenantConfig d.payload.tenantId

/-- `config.rate_limit_per_minute or self.default_rate_limit`. -/
def rateLimit (s : Engine) (config : TenantNotificationConfig) : ℤ :=
  if config.rateLimitPerMinute ≠ 0 then config.rateLimitPerMinute else s.defaultRateLimit

/-- `_check_rate_limit`: whether the tenant may send. -/
def checkRateLimit (s : Engine) (now : ℚ) (tenantId : String) (limitPerMinute : ℤ) :
    Engine × Bool :=
  let windowStart := now - 60
  let records := ((s.rateLimitRecords.get? tenantId).getD []).filter fun ts => windowStart < ts
  if limitPerMinute ≤ records.length then
    ({ s with rateLimitRecords := s.rateLimitRecords.set tenantId records }, false)
  else
    ({ s with rateLimitRecords := s.rateLimitRecords.set tenantId (records ++ [now]) }, true)

/-- `_check_and_update_dedup`: whether to suppress. -/
def checkAndUpdateDedup (s : Engine) (now : ℚ) (payload : NotificationPayload) (windowSec : ℤ) :
    Engine × Bool :=
  if windowSec ≤ 0 then (s, false)
  else
    match payload.alert with
    | none => (s, false)
    | some alert =>
      let live := s.dedupCache.filter fun p => now < p.2
      if live.contains alert.dedupKey then ({ s with dedupCache := live }, true)
      else ({ s with dedupCache := live.set alert.dedupKey (now + windowSec) }, false)

/-- The loop of `_send_with_retries`, with the attempts that remain. -/
def sendLoop (channel : ChannelType) (send : ℕ → SendOutcome) :
    ℕ → ℕ → Option ChannelDeliveryResult → Option ChannelDeliveryResult
  | 0, _, lastResult => lastResult
  | remaining + 1, attempt, _ =>
    match send attempt with
    | .ok res =>
      let res := { res with retriesAttempted := attempt }
      if res.status = .delivered ∨ res.status = .skipped then some res
      else sendLoop channel send remaining (attempt + 1) (some res)
    | .error exc =>
      sendLoop channel send remaining (attempt + 1) (some ⟨channel, .failed, none, some exc, attempt⟩)

/-- `_send_with_retries`.  With a negative `max_retries` nothing is tried, and the result
it then builds is rejected. -/
def sendWithRetries (maxRetries : ℤ) (channel : ChannelType) (send : ℕ → SendOutcome) :
    Except ValidationError ChannelDeliveryResult :=
  match sendLoop channel send (maxRetries + 1).toNat 0 none with
  | some lastResult => .ok lastResult
  | none =>
    if 0 ≤ maxRetries then
      .ok ⟨channel, .failed, none, some "Max retries exceeded", maxRetries.toNat⟩
    else .error .retriesAttempted

/-- `asyncio.gather` over the active channels, the first of them being the `i`-th. -/
def gather (maxRetries : ℤ) (sends : ℕ → ℕ → SendOutcome) :
    ℕ → List ChannelType → Except ValidationError (List (ChannelType × ChannelDeliveryResult))
  | _, [] => .ok []
  | i, channel :: rest => do
    let res ← sendWithRetries maxRetries channel (sends i)
    let results ← gather maxRetries sends (i + 1) rest
    return (channel, res) :: results

/-- `channels or config.enabled_channels`. -/
def targetChannelTypes (d : Dispatch) (config : TenantNotificationConfig) : List ChannelType :=
  match d.channels with
  | some (channel :: channels) => channel :: channels
  | _ => config.enabledChannels

def activeChannels (s : Engine) (d : Dispatch) (config : TenantNotificationConfig) :
    List ChannelType :=
  (targetChannelTypes d config).filterMap s.channels.get?

/-- The channels whose result has a status. -/
def withStatus (status : DeliveryStatus) (results : List (ChannelType × ChannelDeliveryResult)) :
    List ChannelType :=
  (results.filter fun r => r.2.status = status).map Prod.fst

/-- `channel_results`, the last result of a channel winning. -/
def resultsMap (results : List (ChannelType × ChannelDeliveryResult)) :
    Dict String ChannelDeliveryResult :=
  results.foldl (fun map r => map.set r.1.value r.2) ∅

/-- Steps 5 to 7 of `dispatch`: send on every active channel and sum up. -/
def deliver (s : Engine) (d : Dispatch) (config : TenantNotificationConfig) :
    Engine × Except ValidationError DispatchSummary :=
  match gather s.maxRetries d.sends 0 (s.activeChannels d config) with
  | .error e => (s, .error e)
  | .ok results =>
    let delivered := withStatus .delivered results
    let failed := withStatus .failed results
    ({ s with
        deliveredCount := s.deliveredCount + delivered.length
        failedCount := s.failedCount + failed.length },
      .ok
        { notificationId := d.payload.notificationId
          tenantId := d.payload.tenantId
          eventName := d.payload.eventName
          deliveredChannels := delivered
          failedChannels := failed
          channelResults := resultsMap results
          isSuppressed := false })

/-- The summary of a dispatch over the limit. -/
def rateLimitedSummary (s : Engine) (d : Dispatch) (config : TenantNotificationConfig) :
    DispatchSummary :=
  let error := "Rate limit of " ++ toString (s.rateLimit config) ++ " msgs/min exceeded"
  { notificationId := d.payload.notificationId
    tenantId := d.payload.tenantId
    eventName := d.payload.eventName
    deliveredChannels := []
    failedChannels := targetChannelTypes d config
    channelResults := resultsMap
      ((targetChannelTypes d config).map fun ch => (ch, ⟨ch, .rateLimited, none, some error, 0⟩))
    isSuppressed := false }

def suppressedSummary (d : Dispatch) : DispatchSummary :=
  { notificationId := d.payload.notificationId
    tenantId := d.payload.tenantId
    eventName := d.payload.eventName
    deliveredChannels := []
    failedChannels := []
    channelResults := ∅
    isSuppressed := true }

/-- `dispatch`. -/
def dispatch (s : Engine) (d : Dispatch) : Engine × Except ValidationError DispatchSummary :=
  let s := { s with dispatchedCount := s.dispatchedCount + 1 }
  match s.resolveConfig d with
  | .error e => (s, .error e)
  | .ok config =>
    let limited := s.checkRateLimit d.limitNow d.payload.tenantId (s.rateLimit config)
    if limited.2 = false then
      ({ limited.1 with rateLimitedCount := limited.1.rateLimitedCount + 1 },
        .ok (s.rateLimitedSummary d config))
    else
      let deduped := limited.1.checkAndUpdateDedup d.now d.payload config.threatDedupWindowSec
      if deduped.2 then
        ({ deduped.1 with suppressedCount := deduped.1.suppressedCount + 1 },
          .ok (suppressedSummary d))
      else deduped.1.deliver d config

end Engine

/-- A call on the engine. -/
inductive Call
  | dispatch (d : Dispatch)
  | registerChannel (channel : ChannelType)
  | setTenantConfig (config : TenantNotificationConfig)

/-- The alert of a call, if it is a dispatch that has one. -/
def Call.alert : Call → Option Alert
  | .dispatch d => d.payload.alert
  | _ => none

/-- One call, with the summary if it is a dispatch. -/
def Engine.step (s : Engine) : Call → Engine × Option (Except ValidationError DispatchSummary)
  | .dispatch d => ((s.dispatch d).1, some (s.dispatch d).2)
  | .registerChannel channel => (s.registerChannel channel, none)
  | .setTenantConfig config => (s.setTenantConfig config, none)

/-! ## Delivery with retries -/

/-- The attempt number `n` is answered with a status. -/
def StatusAt (send : ℕ → SendOutcome) (n : ℕ) (status : DeliveryStatus) : Prop :=
  ∃ res, send n = .ok res ∧ res.status = status

/-- One of the attempts is answered `DELIVERED`, and none before it `SKIPPED`. -/
def Delivers (maxRetries : ℤ) (send : ℕ → SendOutcome) : Prop :=
  ∃ n : ℕ, n ≤ maxRetries ∧ StatusAt send n .delivered ∧ ∀ m < n, ¬StatusAt send m .skipped

namespace Engine

/-- One of the attempts from `attempt` on is answered `DELIVERED`, and none of those before
it `SKIPPED`. -/
def DeliversWithin (send : ℕ → SendOutcome) (attempt remaining : ℕ) : Prop :=
  ∃ n, attempt ≤ n ∧ n < attempt + remaining ∧ StatusAt send n .delivered ∧
    ∀ m, attempt ≤ m → m < n → ¬StatusAt send m .skipped

/-- An attempt that settles nothing leaves the question to the later ones. -/
theorem deliversWithin_succ_iff {send : ℕ → SendOutcome} {attempt remaining : ℕ}
    (hdelivered : ¬StatusAt send attempt .delivered) (hskipped : ¬StatusAt send attempt .skipped) :
    DeliversWithin send attempt (remaining + 1) ↔ DeliversWithin send (attempt + 1) remaining := by
  constructor
  · rintro ⟨n, hle, hlt, hn, hbefore⟩
    have hne : n ≠ attempt := by
      rintro rfl
      exact hdelivered hn
    exact ⟨n, by omega, by omega, hn, fun m hm => hbefore m (by omega)⟩
  · rintro ⟨n, hle, hlt, hn, hbefore⟩
    refine ⟨n, by omega, by omega, hn, fun m hm hmn => ?_⟩
    rcases Nat.eq_or_lt_of_le hm with rfl | hm
    · exact hskipped
    · exact hbefore m hm hmn

/-- An attempt that is answered `DELIVERED` or `SKIPPED` settles it. -/
theorem deliversWithin_of_settled {send : ℕ → SendOutcome} {attempt remaining : ℕ}
    (h : StatusAt send attempt .delivered ∨ StatusAt send attempt .skipped) :
    DeliversWithin send attempt (remaining + 1) ↔ StatusAt send attempt .delivered := by
  constructor
  · rintro ⟨n, hle, -, hn, hbefore⟩
    rcases Nat.eq_or_lt_of_le hle with rfl | hlt
    · exact hn
    · exact h.resolve_right (hbefore attempt (le_refl _) hlt)
  · intro hdelivered
    exact ⟨attempt, le_refl _, by omega, hdelivered, by omega⟩

theorem statusAt_of_ok {send : ℕ → SendOutcome} {n : ℕ} {res : ChannelDeliveryResult}
    (h : send n = .ok res) (status : DeliveryStatus) :
    StatusAt send n status ↔ res.status = status := by
  constructor
  · rintro ⟨res', hres', rfl⟩
    rw [h] at hres'
    cases hres'
    rfl
  · intro hstatus
    exact ⟨res, h, hstatus⟩

theorem not_statusAt_of_error {send : ℕ → SendOutcome} {n : ℕ} {exc : String}
    (h : send n = .error exc) (status : DeliveryStatus) : ¬StatusAt send n status := by
  rintro ⟨res, hres, -⟩
  rw [h] at hres
  cases hres

theorem sendLoop_delivers_iff (channel : ChannelType) (send : ℕ → SendOutcome)
    (remaining attempt : ℕ) {last : Option ChannelDeliveryResult}
    (hlast : ∀ res, last = some res → res.status ≠ .delivered) :
    (∃ res, sendLoop channel send remaining attempt last = some res ∧ res.status = .delivered) ↔
      DeliversWithin send attempt remaining := by
  induction remaining generalizing attempt last with
  | zero =>
    constructor
    · rintro ⟨res, hres, hstatus⟩
      exact absurd hstatus (hlast res hres)
    · rintro ⟨n, hle, hlt, -⟩
      omega
  | succ remaining ih =>
    unfold sendLoop
    rcases hsend : send attempt with exc | res
    · have hnone := not_statusAt_of_error hsend
      dsimp only
      rw [ih (attempt + 1) (by rintro res hres; cases hres; simp)]
      exact (deliversWithin_succ_iff (hnone _) (hnone _)).symm
    · have hstatus := statusAt_of_ok hsend
      dsimp only
      by_cases hsettled : res.status = .delivered ∨ res.status = .skipped
      · rw [if_pos hsettled]
        rw [← hstatus, ← hstatus] at hsettled
        rw [deliversWithin_of_settled hsettled, hstatus]
        simp
      · rw [if_neg hsettled]
        rw [not_or, ← hstatus, ← hstatus] at hsettled
        rw [ih (attempt + 1) ?_]
        · exact (deliversWithin_succ_iff hsettled.1 hsettled.2).symm
        · rintro res' hres' hdelivered
          cases hres'
          exact hsettled.1 ((hstatus _).2 hdelivered)

/-- **When a channel delivers**, retries included. -/
theorem sendWithRetries_delivers_iff (maxRetries : ℤ) (channel : ChannelType)
    (send : ℕ → SendOutcome) :
    (∃ res, sendWithRetries maxRetries channel send = .ok res ∧ res.status = .delivered) ↔
      Delivers maxRetries send := by
  have hlast : ∀ res, (none : Option ChannelDeliveryResult) = some res → res.status ≠ .delivered := by
    rintro res ⟨⟩
  have hloop := sendLoop_delivers_iff channel send (maxRetries + 1).toNat 0 hlast
  have hright : DeliversWithin send 0 (maxRetries + 1).toNat ↔ Delivers maxRetries send := by
    refine exists_congr fun n => ?_
    have hn : n < 0 + (maxRetries + 1).toNat ↔ (n : ℤ) ≤ maxRetries := by omega
    simp only [hn, Nat.zero_le, true_and, forall_const]
  rw [← hright, ← hloop]
  unfold sendWithRetries
  rcases sendLoop channel send (maxRetries + 1).toNat 0 none with _ | res
  · dsimp only
    split_ifs
    · simp
    · simp
  · simp

theorem gather_delivers_iff {maxRetries : ℤ} {sends : ℕ → ℕ → SendOutcome} {i : ℕ}
    {channels : List ChannelType} {results : List (ChannelType × ChannelDeliveryResult)}
    (h : gather maxRetries sends i channels = .ok results) :
    withStatus .delivered results ≠ [] ↔
      ∃ j, j < channels.length ∧ Delivers maxRetries (sends (i + j)) := by
  induction channels generalizing i results with
  | nil =>
    cases h
    simp [withStatus]
  | cons channel rest ih =>
    unfold gather at h
    rcases hfirst : sendWithRetries maxRetries channel (sends i) with e | res
    · rw [hfirst] at h
      cases h
    rcases hrest : gather maxRetries sends (i + 1) rest with e | results'
    · rw [hfirst, hrest] at h
      cases h
    rw [hfirst, hrest] at h
    cases h
    have hres : res.status = .delivered ↔ Delivers maxRetries (sends i) := by
      rw [← sendWithRetries_delivers_iff maxRetries channel, hfirst]
      simp
    have hsplit : withStatus .delivered ((channel, res) :: results') ≠ [] ↔
        res.status = .delivered ∨ withStatus .delivered results' ≠ [] := by
      by_cases hd : res.status = .delivered
      · simp [withStatus, hd]
      · simp [withStatus, hd]
    rw [hsplit, hres, ih hrest]
    constructor
    · rintro (hhere | ⟨j, hj, hlater⟩)
      · exact ⟨0, Nat.succ_pos _, hhere⟩
      · refine ⟨j + 1, Nat.succ_lt_succ hj, ?_⟩
        rw [show i + (j + 1) = i + 1 + j by omega]
        exact hlater
    · rintro ⟨j, hj, hdelivers⟩
      rcases j with _ | j
      · exact .inl hdelivers
      · refine .inr ⟨j, Nat.lt_of_succ_lt_succ hj, ?_⟩
        rw [show i + 1 + j = i + (j + 1) by omega]
        exact hdelivers

/-- With a nonnegative `max_retries`, sending raises nothing. -/
theorem gather_ok {maxRetries : ℤ} (h : 0 ≤ maxRetries) (sends : ℕ → ℕ → SendOutcome) (i : ℕ)
    (channels : List ChannelType) : ∃ results, gather maxRetries sends i channels = .ok results := by
  induction channels generalizing i with
  | nil => exact ⟨[], rfl⟩
  | cons channel rest ih =>
    obtain ⟨res, hres⟩ : ∃ res, sendWithRetries maxRetries channel (sends i) = .ok res := by
      unfold sendWithRetries
      rcases sendLoop channel (sends i) (maxRetries + 1).toNat 0 none with _ | res
      · exact ⟨_, if_pos h⟩
      · exact ⟨res, rfl⟩
    obtain ⟨results, hresults⟩ := ih (i + 1)
    refine ⟨(channel, res) :: results, ?_⟩
    rw [gather, hres, hresults]
    rfl

/-- Some active channel delivers. -/
def Reaches (s : Engine) (d : Dispatch) (config : TenantNotificationConfig) : Prop :=
  ∃ i, i < (s.activeChannels d config).length ∧ Delivers s.maxRetries (d.sends i)

/-- An alert that reaches a channel is summed up as delivered. -/
theorem deliver_of_reaches {s : Engine} {d : Dispatch} {config : TenantNotificationConfig}
    (h : s.Reaches d config) :
    ∃ summary, (s.deliver d config).2 = .ok summary ∧ summary.deliveredChannels ≠ [] := by
  obtain ⟨i, hi, hdelivers⟩ := h
  have hretries : 0 ≤ s.maxRetries := by
    obtain ⟨n, hn, -⟩ := hdelivers
    omega
  obtain ⟨results, hresults⟩ := gather_ok hretries d.sends 0 (s.activeChannels d config)
  have hdelivered := (gather_delivers_iff hresults).2 ⟨i, hi, by rwa [Nat.zero_add]⟩
  unfold deliver
  rw [hresults]
  exact ⟨_, rfl, hdelivered⟩

/-! ## What a dispatch does -/

variable {s : Engine} {d : Dispatch} {config : TenantNotificationConfig} {alert : Alert}

/-- `is_suppressed=True` is answered. -/
def Suppressed (answer : Except ValidationError DispatchSummary) : Prop :=
  ∃ summary, answer = .ok summary ∧ summary.isSuppressed = true

instance (answer : Except ValidationError DispatchSummary) : Decidable (Suppressed answer) :=
  match answer with
  | .ok summary => decidable_of_iff (summary.isSuppressed = true) (by simp [Suppressed])
  | .error _ => isFalse (by simp [Suppressed])

/-- The dispatch asks the deduplication cache: it is within the limit, and has a target and a
window. -/
structure Consults (s : Engine) (d : Dispatch) (config : TenantNotificationConfig) (alert : Alert) :
    Prop where
  config_eq : s.resolveConfig d = .ok config
  allowed : (s.checkRateLimit d.limitNow d.payload.tenantId (s.rateLimit config)).2 = true
  window_pos : 0 < config.threatDedupWindowSec
  alert_eq : d.payload.alert = some alert

/-- The alert enters the deduplication cache, in which no live entry has its key. -/
structure Marks (s : Engine) (d : Dispatch) (config : TenantNotificationConfig) (alert : Alert) :
    Prop extends s.Consults d config alert where
  expired : ∀ exp, s.dedupCache.get? alert.dedupKey = some exp → exp ≤ d.now

theorem checkRateLimit_fst (s : Engine) (now : ℚ) (tenantId : String) (limit : ℤ) :
    ∃ records, (s.checkRateLimit now tenantId limit).1 = { s with rateLimitRecords := records } := by
  unfold checkRateLimit
  dsimp only
  split_ifs
  · exact ⟨_, rfl⟩
  · exact ⟨_, rfl⟩

theorem checkRateLimit_snd_congr {s' : Engine} (h : s'.rateLimitRecords = s.rateLimitRecords)
    (now : ℚ) (tenantId : String) (limit : ℤ) :
    (s'.checkRateLimit now tenantId limit).2 = (s.checkRateLimit now tenantId limit).2 := by
  unfold checkRateLimit
  rw [h]
  dsimp only
  split_ifs
  · rfl
  · rfl

/-- **What the deduplication does**: nothing, suppress, or enter the alert. -/
theorem checkAndUpdateDedup_cases (s : Engine) (now : ℚ) (payload : NotificationPayload)
    (windowSec : ℤ) :
    (∀ alert, payload.alert = some alert → windowSec ≤ 0) ∧
      s.checkAndUpdateDedup now payload windowSec = (s, false) ∨
    (∃ alert exp, payload.alert = some alert ∧ 0 < windowSec ∧
      s.dedupCache.get? alert.dedupKey = some exp ∧ now < exp ∧
      s.checkAndUpdateDedup now payload windowSec =
        ({ s with dedupCache := s.dedupCache.filter fun p => now < p.2 }, true)) ∨
    (∃ alert, payload.alert = some alert ∧ 0 < windowSec ∧
      (∀ exp, s.dedupCache.get? alert.dedupKey = some exp → exp ≤ now) ∧
      s.checkAndUpdateDedup now payload windowSec =
        ({ s with
            dedupCache :=
              (s.dedupCache.filter fun p => now < p.2).set alert.dedupKey (now + windowSec) },
          false)) := by
  unfold checkAndUpdateDedup
  by_cases hwindow : windowSec ≤ 0
  · exact .inl ⟨fun _ _ => hwindow, if_pos hwindow⟩
  rw [if_neg hwindow]
  rcases halert : payload.alert with _ | alert
  · refine .inl ⟨?_, rfl⟩
    rintro _ ⟨⟩
  dsimp only
  have hlive : (s.dedupCache.filter fun p => now < p.2).get? alert.dedupKey =
      (s.dedupCache.get? alert.dedupKey).filter fun exp => now < exp := Dict.get?_filter ..
  by_cases hfresh : (s.dedupCache.filter fun p => now < p.2).contains alert.dedupKey
  · rw [if_pos hfresh]
    rw [Dict.contains, hlive, Option.isSome_iff_exists] at hfresh
    obtain ⟨exp, hexp⟩ := hfresh
    obtain ⟨hget, hlt⟩ := Option.filter_eq_some_iff.1 hexp
    exact .inr (.inl ⟨alert, exp, rfl, not_le.1 hwindow, hget, by simpa using hlt, rfl⟩)
  · rw [if_neg hfresh]
    refine .inr (.inr ⟨alert, rfl, not_le.1 hwindow, fun exp hget => ?_, rfl⟩)
    rw [Dict.contains, hlive, hget] at hfresh
    by_contra hlt
    exact hfresh (by simpa using hlt)

theorem deliver_dedupCache (s : Engine) (d : Dispatch) (config : TenantNotificationConfig) :
    (s.deliver d config).1.dedupCache = s.dedupCache := by
  unfold deliver
  split <;> rfl

theorem deliver_not_suppressed (s : Engine) (d : Dispatch) (config : TenantNotificationConfig) :
    ¬Suppressed (s.deliver d config).2 := by
  rintro ⟨summary, hok, hsuppressed⟩
  unfold deliver at hok
  split at hok
  · cases hok
  · cases hok
    cases hsuppressed

/-- What is delivered depends on the channels and the retries alone. -/
theorem deliver_snd_congr {s' : Engine} (hchannels : s'.channels = s.channels)
    (hretries : s'.maxRetries = s.maxRetries) : (s'.deliver d config).2 = (s.deliver d config).2 := by
  unfold deliver activeChannels
  rw [hchannels, hretries]
  split <;> rfl

/-- **What a dispatch does**: it leaves the cache alone, suppresses, or enters the alert
into the cache and then sends it. -/
theorem dispatch_cases (s : Engine) (d : Dispatch) :
    ((∀ config alert, ¬s.Consults d config alert) ∧
      (s.dispatch d).1.dedupCache = s.dedupCache ∧ ¬Suppressed (s.dispatch d).2) ∨
    (∃ config alert exp, s.Consults d config alert ∧
      s.dedupCache.get? alert.dedupKey = some exp ∧ d.now < exp ∧
      (s.dispatch d).1.dedupCache = s.dedupCache.filter fun p => d.now < p.2) ∨
    (∃ config alert, s.Marks d config alert ∧
      (s.dispatch d).1.dedupCache = (s.dedupCache.filter fun p => d.now < p.2).set alert.dedupKey
        (d.now + config.threatDedupWindowSec) ∧
      (s.dispatch d).2 = (s.deliver d config).2) := by
  unfold dispatch
  dsimp only
  have hresolve : ({ s with dispatchedCount := s.dispatchedCount + 1 } : Engine).resolveConfig d =
      s.resolveConfig d := rfl
  rw [hresolve]
  rcases hconfig : s.resolveConfig d with e | config
  · refine .inl ⟨fun config alert hconsults => ?_, rfl, ?_⟩
    · cases hconfig.symm.trans hconsults.config_eq
    · rintro ⟨_, hok, -⟩
      cases hok
  have hsame {config' : TenantNotificationConfig} {alert : Alert}
      (hconsults : s.Consults d config' alert) : config' = config := by
    cases hconfig.symm.trans hconsults.config_eq
    rfl
  dsimp only
  obtain ⟨records, hfst⟩ := checkRateLimit_fst { s with dispatchedCount := s.dispatchedCount + 1 }
    d.limitNow d.payload.tenantId (s.rateLimit config)
  have hlimit : ({ s with dispatchedCount := s.dispatchedCount + 1 } : Engine).rateLimit config =
      s.rateLimit config := rfl
  have hallowed : (({ s with dispatchedCount := s.dispatchedCount + 1 } : Engine).checkRateLimit
      d.limitNow d.payload.tenantId (s.rateLimit config)).2 =
      (s.checkRateLimit d.limitNow d.payload.tenantId (s.rateLimit config)).2 :=
    checkRateLimit_snd_congr (by rfl) ..
  rw [hlimit, hallowed, hfst]
  rcases hlimited : (s.checkRateLimit d.limitNow d.payload.tenantId (s.rateLimit config)).2 with _ | _
  · refine .inl ⟨fun config' alert hconsults => ?_, rfl, ?_⟩
    · obtain rfl := hsame hconsults
      cases hlimited.symm.trans hconsults.allowed
    · rintro ⟨_, hok, hsuppressed⟩
      cases hok
      cases hsuppressed
  simp only [Bool.true_eq_false, if_false]
  generalize hs' : ({ s with
    rateLimitRecords := records, dispatchedCount := s.dispatchedCount + 1 } : Engine) = s'
  have hcache : s'.dedupCache = s.dedupCache := by rw [← hs']
  have hchannels : s'.channels = s.channels := by rw [← hs']
  have hretries : s'.maxRetries = s.maxRetries := by rw [← hs']
  rcases checkAndUpdateDedup_cases s' d.now d.payload config.threatDedupWindowSec with
    ⟨hclosed, hdedup⟩ | ⟨alert, exp, halert, hwindow, hget, hlt, hdedup⟩ |
    ⟨alert, halert, hwindow, hexpired, hdedup⟩
  · simp only [hdedup, Bool.false_eq_true, if_false]
    refine .inl ⟨fun config' alert hconsults => ?_, (deliver_dedupCache ..).trans hcache,
      deliver_not_suppressed _ _ _⟩
    obtain rfl := hsame hconsults
    exact absurd hconsults.window_pos (not_lt.2 (hclosed alert hconsults.alert_eq))
  · simp only [hdedup, hcache, if_true]
    rw [hcache] at hget
    exact .inr (.inl ⟨config, alert, exp, ⟨hconfig, hlimited, hwindow, halert⟩, hget, hlt, trivial⟩)
  · simp only [hdedup, hcache, Bool.false_eq_true, if_false]
    rw [hcache] at hexpired
    refine .inr (.inr ⟨config, alert, ⟨⟨hconfig, hlimited, hwindow, halert⟩, hexpired⟩, ?_, ?_⟩)
    · exact deliver_dedupCache ..
    · exact deliver_snd_congr hchannels hretries

/-! ## Runs -/

/-- An engine with the history of its calls. -/
abbrev History : Type :=
  Engine × List (Machine.Record Engine Call (Option (Except ValidationError DispatchSummary)))

/-- The record is of a dispatch of this alert that was delivered on a channel, and whose
window is still open. -/
def SentWithin (r : Machine.Record Engine Call (Option (Except ValidationError DispatchSummary)))
    (alert : Alert) (now : ℚ) : Prop :=
  ∃ d config summary, r.action = .dispatch d ∧ d.payload.alert = some alert ∧
    r.state.resolveConfig d = .ok config ∧ now < d.now + config.threatDedupWindowSec ∧
    r.answer = some (.ok summary) ∧ summary.deliveredChannels ≠ []

/-- If a dispatch is suppressed, the same alert was sent before. -/
def SuppressedWasSent (h : History) : Call → Prop
  | .dispatch d => Suppressed (h.1.dispatch d).2 →
      ∃ alert, d.payload.alert = some alert ∧ ∃ r ∈ h.2, SentWithin r alert d.now
  | _ => True

/-- The record is of a dispatch that entered the cache under a key. -/
def EntersUnder (key : String)
    (r : Machine.Record Engine Call (Option (Except ValidationError DispatchSummary))) : Prop :=
  ∃ d config alert, r.action = .dispatch d ∧ r.state.Marks d config alert ∧ alert.dedupKey = key

/-- An alert that enters the cache reaches a channel, and an alert that finds a live entry under
its key is the alert that was last entered there. -/
def SendsWhatItMarks (h : History) : Call → Prop
  | .dispatch d =>
    (∀ config alert, h.1.Marks d config alert → h.1.Reaches d config) ∧
    ∀ config alert exp, h.1.Consults d config alert →
      h.1.dedupCache.get? alert.dedupKey = some exp → d.now < exp →
      ∀ r, Machine.IsLast (EntersUnder alert.dedupKey) h.2 r → r.action.alert = some alert
  | _ => True

/-- Every entry of the cache is of an alert that was sent, and expires with its window. -/
def Backed (h : History) : Prop :=
  ∀ key exp, h.1.dedupCache.get? key = some exp →
    ∃ r, Machine.IsLast (EntersUnder key) h.2 r ∧
      ∃ alert, ∀ now < exp, SentWithin r alert now

theorem SentWithin.alert_eq {now : ℚ}
    {r : Machine.Record Engine Call (Option (Except ValidationError DispatchSummary))}
    (hsent : SentWithin r alert now) : r.action.alert = some alert := by
  obtain ⟨d, -, -, haction, halert, -⟩ := hsent
  rw [haction]
  exact halert

theorem backed_step {h : History} {c : Call} (hbacked : Backed h) (hc : SendsWhatItMarks h c) :
    Backed (Machine.recorded step h c).1 := by
  intro key exp hget
  -- an entry that was there before, and under whose key nothing is entered, keeps its record
  have hold (hget : h.1.dedupCache.get? key = some exp)
      (hnot : ¬EntersUnder key ⟨h.1, c, (h.1.step c).2⟩) :
      ∃ r, Machine.IsLast (EntersUnder key) (Machine.recorded step h c).1.2 r ∧
        ∃ alert, ∀ now < exp, SentWithin r alert now := by
    obtain ⟨r, hr, hsent⟩ := hbacked key exp hget
    exact ⟨r, hr.concat hnot, hsent⟩
  have hlive {now : ℚ} (hget : (h.1.dedupCache.filter fun p => now < p.2).get? key = some exp) :
      h.1.dedupCache.get? key = some exp := by
    rw [Dict.get?_filter] at hget
    exact (Option.filter_eq_some_iff.1 hget).1
  cases c with
  | registerChannel channel =>
    refine hold hget ?_
    rintro ⟨_, _, _, haction, -⟩
    cases haction
  | setTenantConfig config =>
    refine hold hget ?_
    rintro ⟨_, _, _, haction, -⟩
    cases haction
  | dispatch d =>
    have hcache : (h.1.dispatch d).1.dedupCache.get? key = some exp := hget
    rcases dispatch_cases h.1 d with
      ⟨hclosed, hsame, -⟩ | ⟨config, alert, exp', hconsults, hfound, hlt, hfiltered⟩ |
      ⟨config, alert, hmarks, hset, hanswer⟩
    · rw [hsame] at hcache
      refine hold hcache ?_
      rintro ⟨_, config, alert, ⟨⟩, hmarks, -⟩
      exact hclosed config alert hmarks.toConsults
    · rw [hfiltered] at hcache
      refine hold (hlive hcache) ?_
      rintro ⟨_, _, alert', ⟨⟩, hmarks, -⟩
      cases hconsults.alert_eq.symm.trans hmarks.alert_eq
      exact absurd hlt (not_lt.2 (hmarks.expired exp' hfound))
    · rw [hset, Dict.get?_set] at hcache
      split_ifs at hcache with hkey
      · obtain ⟨summary, hsummary, hdelivered⟩ := deliver_of_reaches (hc.1 config alert hmarks)
        refine ⟨_, Machine.isLast_concat _ ⟨d, config, alert, rfl, hmarks, hkey.symm⟩, alert, ?_⟩
        intro now hnow
        refine ⟨d, config, summary, rfl, hmarks.alert_eq, hmarks.config_eq, ?_, ?_, hdelivered⟩
        · rw [Option.some.inj hcache]
          exact hnow
        · exact congrArg some (hanswer.trans hsummary)
      · refine hold (hlive hcache) ?_
        rintro ⟨_, _, alert', ⟨⟩, hmarks', rfl⟩
        cases hmarks.alert_eq.symm.trans hmarks'.alert_eq
        exact hkey rfl

theorem suppressedWasSent_of_backed {h : History} {c : Call} (hbacked : Backed h)
    (hc : SendsWhatItMarks h c) : SuppressedWasSent h c := by
  cases c with
  | registerChannel channel => trivial
  | setTenantConfig config => trivial
  | dispatch d =>
    intro hsuppressed
    rcases dispatch_cases h.1 d with
      ⟨-, -, hnot⟩ | ⟨config, alert, exp, hconsults, hget, hlt, -⟩ | ⟨config, alert, -, -, hanswer⟩
    · exact absurd hsuppressed hnot
    · obtain ⟨r, hr, alert', hsent⟩ := hbacked _ _ hget
      -- the live entry was made for the same alert
      have halert := hc.2 config alert exp hconsults hget hlt r hr
      cases halert.symm.trans (hsent d.now hlt).alert_eq
      exact ⟨alert, hconsults.alert_eq, r, hr.mem, hsent d.now hlt⟩
    · rw [hanswer] at hsuppressed
      exact absurd hsuppressed (deliver_not_suppressed _ _ _)

/-- **A suppressed alert was sent.**  In every run in which the alerts that enter the cache
each reach a channel, and no alert finds the live entry of another under its key, a dispatch is
suppressed only if the same alert was delivered on a channel and its window is still open. -/
theorem suppressed_was_sent (channels : Dict ChannelType ChannelType)
    (maxRetries defaultRateLimit : ℤ) (calls : List Call)
    (h : Machine.Always (Machine.recorded step) SendsWhatItMarks
      (init channels maxRetries defaultRateLimit, []) calls) :
    Machine.Always (Machine.recorded step) SuppressedWasSent
      (init channels maxRetries defaultRateLimit, []) calls := by
  refine Machine.always_of_inv (I := Backed) (fun _ _ => backed_step)
    (fun _ _ => suppressedWasSent_of_backed) ?_ h
  intro key exp hget
  cases hget

-- two alerts can share a key
example : (⟨"acme:eu", "threat", "inc_1"⟩ : Alert).dedupKey =
    (⟨"acme", "eu:threat", "inc_1"⟩ : Alert).dedupKey := by
  decide

/-- An engine with one channel, three retries and a limit of sixty. -/
def sampleEngine : Engine := init ((∅ : Dict ChannelType ChannelType).set .slack .slack) 3 60

/-- An alert about an incident, which the channel always answers in the same way. -/
def sampleDispatch (now : ℚ) (status : DeliveryStatus) : Dispatch where
  payload := ⟨⟨1⟩, "tenant_dedup", "malicious_threat_flagged", some "inc_duplicate_99", none⟩
  channels := some [.slack]
  tenantConfig := none
  limitNow := now
  now := now
  sends := fun _ _ => .ok ⟨.slack, status, none, none, 0⟩

/-- The alert is sent, and again ten seconds later. -/
def sampleCalls (status : DeliveryStatus) : List Call :=
  [.dispatch (sampleDispatch 0 status), .dispatch (sampleDispatch 10 status)]

theorem sample_second_suppressed (status : DeliveryStatus) :
    Suppressed
      ((sampleEngine.dispatch (sampleDispatch 0 status)).1.dispatch (sampleDispatch 10 status)).2 := by
  cases status <;> decide +kernel

theorem suppressed_was_sent_sampleCalls :
    Suppressed ((sampleEngine.dispatch (sampleDispatch 0 .delivered)).1.dispatch
      (sampleDispatch 10 .delivered)).2 ∧
    Machine.Always (Machine.recorded step) SuppressedWasSent (sampleEngine, [])
      (sampleCalls .delivered) := by
  refine ⟨sample_second_suppressed _, suppressed_was_sent _ 3 60 _ ⟨⟨?_, ?_⟩, ⟨?_, ?_⟩, trivial⟩⟩
  · intro config alert _
    exact ⟨0, Nat.one_pos, 0, by decide, ⟨_, rfl, rfl⟩, by omega⟩
  · intro config alert exp _ hget
    cases hget
  · intro config alert _
    exact ⟨0, Nat.one_pos, 0, by decide, ⟨_, rfl, rfl⟩, by omega⟩
  · intro config alert exp hconsults _ _ r hr
    cases List.mem_singleton.1 hr.mem
    exact hconsults.alert_eq

/-- **An alert that nobody got is suppressed.**  The only channel fails on every attempt;
ten seconds later the same alert is taken for a duplicate. -/
theorem undelivered_suppresses :
    ¬Machine.Always (Machine.recorded step) SuppressedWasSent (sampleEngine, [])
      (sampleCalls .failed) := by
  rintro ⟨-, hsecond, -⟩
  obtain ⟨alert, -, r, hr, d, config, summary, hd, -, -, -, hanswer, hdelivered⟩ :=
    hsecond (sample_second_suppressed .failed)
  cases List.mem_singleton.1 hr
  cases hanswer
  exact hdelivered rfl

end Engine

end ScamOn.Notifications
