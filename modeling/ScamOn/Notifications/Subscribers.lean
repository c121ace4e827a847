import ScamOn.Lib.Cooldown
import ScamOn.Notifications.Engine
import ScamOn.Remediation.Dispatcher

/-!
# Alerts about remediations

`RemediationEngine.execute_remediation` publishes what has become of a request, and a
`NotificationEventSubscriber` on the same bus makes an alert of it and hands it to the notification
engine, before the request returns.

* `eventOf` is the event of a result, `noticeOf` the alert of an event.
* `socStep` is one request of the two engines together.
* `dedupKey_alertFor_eq_iff`: what two alerts are taken for the same by.
* `suppressed_iff_announced`: an alert is suppressed exactly if another one on the same e-mail was
  let through in the last five minutes, whatever the outcomes of the two requests are.
* `replays_announced_once`: requests that are answered from the audit trail are announced under a
  common name, so that only one of a tenant is let through in five minutes.
-/

namespace ScamOn.Notifications

open Remediation (ActionTaken ActionStatus AuditRepository DispatchCall RemediationDispatcher
  RemediationResult dispatchRemediation)

/-! ## Events and alerts -/

/-- `NotificationPriority`. -/
inductive NotificationPriority
  | low | info | medium | high | critical
  deriving DecidableEq, Repr

/-- The text of an `ActionStatus`. -/
def statusText : ActionStatus → String
  | .requested => "REQUESTED"
  | .policyValidated => "POLICY_VALIDATED"
  | .pendingApproval => "PENDING_APPROVAL"
  | .approved => "APPROVED"
  | .dispatching => "DISPATCHING"
  | .executed => "EXECUTED"
  | .verifying => "VERIFYING"
  | .verified => "VERIFIED"
  | .rejected => "REJECTED"
  | .failed => "FAILED"
  | .retrying => "RETRYING"
  | .failedPermanently => "FAILED_PERMANENTLY"

/-- `RemediationExecutedEvent` and `RemediationPendingApprovalEvent`. -/
inductive RemediationEvent
  | executed (tenantId : Uuid) (messageId : String) (actionTaken : ActionTaken)
      (adapterName : String) (externalReferenceId : Option String) (status : String)
  | pendingApproval (tenantId : Uuid) (messageId : String) (requestedAction : ActionTaken)
      (reason : String)

/-- The event that `execute_remediation` publishes. -/
def eventOf (r : RemediationResult) : RemediationEvent :=
  if r.actionStatus = .pendingApproval then
    .pendingApproval r.tenantId r.messageId r.requestedAction
      "High-impact action requires human authorization"
  else
    .executed r.tenantId r.messageId r.approvedAction r.executingAdapter r.externalReferenceId
      (statusText r.actionStatus)

/-- `NotificationPayloadDTO`, as the subscriber fills it. -/
structure Notice where
  tenantId : String
  eventName : String
  title : String
  message : String
  priority : NotificationPriority
  messageId : String
  metadata : List (String × String)

/-- `event_type`. -/
def executedType : String := "scamon.prod.remediation.executed.v1"

def pendingApprovalType : String := "scamon.prod.remediation.pending_approval.v1"

/-- `handle_remediation_executed` and `handle_remediation_pending_approval`. -/
def noticeOf : RemediationEvent → Notice
  | .executed tenantId messageId actionTaken adapterName externalReferenceId status =>
    { tenantId := tenantId.str
      eventName := executedType
      title := "Remediation Executed: " ++ Text.asciiUpper actionTaken.value
      message := "Security remediation action '" ++ actionTaken.value ++
        "' was executed by adapter '" ++ adapterName ++ "' with status '" ++ status ++ "'."
      priority := if status = "SUCCESS" then .high else .critical
      messageId := messageId
      metadata := [("action", actionTaken.value), ("adapter", adapterName), ("status", status),
        ("ref_id", (orText externalReferenceId (some "none")).getD "none")] }
  | .pendingApproval tenantId messageId requestedAction reason =>
    { tenantId := tenantId.str
      eventName := pendingApprovalType
      title := "Action Approval Required: " ++ Text.asciiUpper requestedAction.value
      message := "High-impact remediation action '" ++ requestedAction.value ++
        "' requires authorization. Reason: " ++ reason
      priority := .critical
      messageId := messageId
      metadata := [("requested_action", requestedAction.value), ("reason", reason)] }

/-- What the notification engine decides on. -/
def Notice.payload (n : Notice) (notificationId : Uuid) : NotificationPayload :=
  ⟨notificationId, n.tenantId, n.eventName, none, some n.messageId⟩

/-! ## The two engines together -/

/-- A request, with the identifier, the clock and the channels that its alert meets. -/
structure AlertCall where
  remediation : DispatchCall
  notificationId : Uuid
  limitNow : ℚ
  now : ℚ
  sends : ℕ → ℕ → SendOutcome

/-- A remediation engine and a notification engine. -/
structure Soc where
  dispatcher : RemediationDispatcher
  auditRepo : AuditRepository
  notifications : Engine

/-- What a request returns, and what its alert came to; a request that raises has none, and a
handler that raises is caught by the bus. -/
structure SocAnswer where
  result : Except String RemediationResult
  summary : Option (Except ValidationError DispatchSummary)

/-- The alert about a result. -/
def AlertCall.alertOf (c : AlertCall) (r : RemediationResult) : Dispatch where
  payload := (noticeOf (eventOf r)).payload c.notificationId
  channels := none
  tenantConfig := none
  limitNow := c.limitNow
  now := c.now
  sends := c.sends

/-- `execute_remediation`, with the subscriber on its bus. -/
def socStep (sha256 : String → String) (s : Soc) (c : AlertCall) : Soc × SocAnswer :=
  let o := dispatchRemediation sha256 s.dispatcher s.auditRepo c.remediation
  match o.result with
  | .error exc => (⟨o.dispatcher, o.auditRepo, s.notifications⟩, ⟨.error exc, none⟩)
  | .ok r =>
    let dispatched := s.notifications.dispatch (c.alertOf r)
    (⟨o.dispatcher, o.auditRepo, dispatched.1⟩, ⟨.ok r, some dispatched.2⟩)

/-- Before the first request. -/
def Soc.init (dispatcher : RemediationDispatcher) (channels : Dict ChannelType ChannelType)
    (maxRetries defaultRateLimit : ℤ) : Soc :=
  ⟨dispatcher, ⟨[]⟩, .init channels maxRetries defaultRateLimit⟩

/-! ## An alert under the default configuration -/

namespace Engine

variable {s : Engine} {d : Dispatch} {alert : Alert}

/-- No tenant is configured, and the limit of the engine is one that a configuration may have. -/
structure Default (s : Engine) : Prop where
  configs : s.tenantConfigs = ∅
  limit_ge : 1 ≤ s.defaultRateLimit
  limit_le : s.defaultRateLimit ≤ 1000

/-- The tenant of the alert is within the limit. -/
def WithinLimit (s : Engine) (d : Dispatch) : Prop :=
  (s.checkRateLimit d.limitNow d.payload.tenantId s.defaultRateLimit).2 = true

/-- What is the same after an alert. -/
theorem Default.deliver (hs : s.Default) (d : Dispatch) (config : TenantNotificationConfig) :
    (s.deliver d config).1.Default := by
  unfold Engine.deliver
  split
  · exact hs
  · exact ⟨hs.configs, hs.limit_ge, hs.limit_le⟩

/-- The configuration of a tenant. -/
theorem Default.resolveConfig (hs : s.Default) (hd : d.tenantConfig = none) :
    ∃ config, s.resolveConfig d = .ok config ∧ config.threatDedupWindowSec = 300 ∧
      s.rateLimit config = s.defaultRateLimit := by
  have hlimit : 1 ≤ s.defaultRateLimit ∧ s.defaultRateLimit ≤ 1000 := ⟨hs.limit_ge, hs.limit_le⟩
  have hne : s.defaultRateLimit ≠ 0 := by omega
  unfold Engine.resolveConfig getTenantConfig
  rw [hd, hs.configs]
  simp only [Dict.get?_empty, dif_pos hlimit]
  exact ⟨_, rfl, rfl, if_pos hne⟩

/-- The alert after the limit has been checked. -/
def deduplicate (s : Engine) (d : Dispatch) (config : TenantNotificationConfig) :
    Engine × Except ValidationError DispatchSummary :=
  let deduped := s.checkAndUpdateDedup d.now d.payload config.threatDedupWindowSec
  if deduped.2 then
    ({ deduped.1 with suppressedCount := deduped.1.suppressedCount + 1 }, .ok (suppressedSummary d))
  else deduped.1.deliver d config

/-- A dispatch stops at the limit, or goes on to the deduplication. -/
theorem Default.dispatch_eq (hs : s.Default) (hd : d.tenantConfig = none) :
    ∃ config s', config.threatDedupWindowSec = 300 ∧ s'.Default ∧ s'.dedupCache = s.dedupCache ∧
      (¬s.WithinLimit d → (s.dispatch d).1 = s' ∧ ¬Suppressed (s.dispatch d).2) ∧
      (s.WithinLimit d → s.dispatch d = s'.deduplicate d config) := by
  obtain ⟨config, hconfig, hwindow, hrate⟩ := hs.resolveConfig hd
  obtain ⟨records, hfst⟩ := checkRateLimit_fst { s with dispatchedCount := s.dispatchedCount + 1 }
    d.limitNow d.payload.tenantId s.defaultRateLimit
  have hsnd : (({ s with dispatchedCount := s.dispatchedCount + 1 } : Engine).checkRateLimit
      d.limitNow d.payload.tenantId s.defaultRateLimit).2 =
      (s.checkRateLimit d.limitNow d.payload.tenantId s.defaultRateLimit).2 :=
    checkRateLimit_snd_congr (by rfl) ..
  have hresolve : ({ s with dispatchedCount := s.dispatchedCount + 1 } : Engine).resolveConfig d =
      .ok config := hconfig
  have hrate' : ({ s with dispatchedCount := s.dispatchedCount + 1 } : Engine).rateLimit config =
      s.defaultRateLimit := hrate
  unfold dispatch WithinLimit
  dsimp only
  rw [hresolve]
  dsimp only
  rw [hrate', hsnd, hfst]
  cases (s.checkRateLimit d.limitNow d.payload.tenantId s.defaultRateLimit).2 with
  | false =>
    refine ⟨config, _, hwindow, ?_, ?_, fun _ => ⟨rfl, ?_⟩, fun h => absurd h Bool.false_ne_true⟩
    · exact ⟨hs.configs, hs.limit_ge, hs.limit_le⟩
    · rfl
    · rintro ⟨_, hok, hsuppressed⟩
      cases hok
      cases hsuppressed
  | true =>
    refine ⟨config, _, hwindow, ?_, ?_, fun h => absurd rfl h, fun _ => rfl⟩
    · exact ⟨hs.configs, hs.limit_ge, hs.limit_le⟩
    · rfl

/-- An alert without a target is not suppressed, and leaves the cache alone. -/
theorem Default.dispatch_of_no_target (hs : s.Default) (hd : d.tenantConfig = none)
    (halert : d.payload.alert = none) :
    (s.dispatch d).1.Default ∧ ¬Suppressed (s.dispatch d).2 ∧
      (s.dispatch d).1.dedupCache = s.dedupCache := by
  obtain ⟨config, s', hwindow, hdefault, hcache, hlimited, hallowed⟩ := hs.dispatch_eq hd
  by_cases hwithin : s.WithinLimit d
  · have hpos : ¬config.threatDedupWindowSec ≤ 0 := by omega
    have hdedup : s'.deduplicate d config = s'.deliver d config := by
      simp only [deduplicate, checkAndUpdateDedup, if_neg hpos, halert, Bool.false_eq_true,
        if_false]
    rw [hallowed hwithin, hdedup]
    exact ⟨hdefault.deliver d config, deliver_not_suppressed _ _ _,
      (deliver_dedupCache ..).trans hcache⟩
  · obtain ⟨hstate, hanswer⟩ := hlimited hwithin
    rw [hstate]
    exact ⟨hdefault, hanswer, hcache⟩

theorem checkAndUpdateDedup_of_live {now : ℚ} {payload : NotificationPayload} {windowSec : ℤ}
    (hwindow : 0 < windowSec) (halert : payload.alert = some alert)
    (hlive : Cooldown.Live s.dedupCache now alert.dedupKey) :
    s.checkAndUpdateDedup now payload windowSec =
      ({ s with dedupCache := Cooldown.prune s.dedupCache now }, true) := by
  have hcontains : (s.dedupCache.filter fun p => now < p.2).contains alert.dedupKey = true :=
    Cooldown.contains_prune_iff.2 hlive
  unfold checkAndUpdateDedup
  rw [if_neg (not_le.2 hwindow), halert]
  exact if_pos hcontains

theorem checkAndUpdateDedup_of_not_live {now : ℚ} {payload : NotificationPayload} {windowSec : ℤ}
    (hwindow : 0 < windowSec) (halert : payload.alert = some alert)
    (hlive : ¬Cooldown.Live s.dedupCache now alert.dedupKey) :
    s.checkAndUpdateDedup now payload windowSec =
      ({ s with
          dedupCache := (Cooldown.prune s.dedupCache now).set alert.dedupKey (now + windowSec) },
        false) := by
  have hcontains : ¬(s.dedupCache.filter fun p => now < p.2).contains alert.dedupKey = true :=
    fun h => hlive (Cooldown.contains_prune_iff.1 h)
  unfold checkAndUpdateDedup
  rw [if_neg (not_le.2 hwindow), halert]
  exact if_neg hcontains

/-- **What becomes of an alert** that has a target, and what it leaves in the cache. -/
theorem Default.dispatch_cases (hs : s.Default) (hd : d.tenantConfig = none)
    (halert : d.payload.alert = some alert) :
    (s.dispatch d).1.Default ∧
      ((¬s.WithinLimit d ∧ ¬Suppressed (s.dispatch d).2 ∧
          (s.dispatch d).1.dedupCache = s.dedupCache) ∨
        (s.WithinLimit d ∧ Cooldown.Live s.dedupCache d.now alert.dedupKey ∧
          Suppressed (s.dispatch d).2 ∧
          (s.dispatch d).1.dedupCache = Cooldown.prune s.dedupCache d.now) ∨
        (s.WithinLimit d ∧ ¬Cooldown.Live s.dedupCache d.now alert.dedupKey ∧
          ¬Suppressed (s.dispatch d).2 ∧
          (s.dispatch d).1.dedupCache =
            (Cooldown.prune s.dedupCache d.now).set alert.dedupKey (d.now + 300))) := by
  obtain ⟨config, s', hwindow, hdefault, hcache, hlimited, hallowed⟩ := hs.dispatch_eq hd
  have hpos : 0 < config.threatDedupWindowSec := by omega
  by_cases hwithin : s.WithinLimit d
  · rw [hallowed hwithin, deduplicate]
    by_cases hlive : Cooldown.Live s.dedupCache d.now alert.dedupKey
    · rw [← hcache] at hlive
      rw [checkAndUpdateDedup_of_live hpos halert hlive, ← hcache]
      exact ⟨⟨hdefault.configs, hdefault.limit_ge, hdefault.limit_le⟩,
        .inr (.inl ⟨hwithin, hlive, ⟨_, rfl, rfl⟩, rfl⟩)⟩
    · rw [← hcache] at hlive
      rw [checkAndUpdateDedup_of_not_live hpos halert hlive, ← hcache, hwindow]
      refine ⟨Default.deliver ⟨?_, ?_, ?_⟩ d config, .inr (.inr ⟨hwithin, hlive,
        deliver_not_suppressed _ _ _, (deliver_dedupCache ..).trans (by norm_num)⟩)⟩
      · exact hdefault.configs
      · exact hdefault.limit_ge
      · exact hdefault.limit_le
  · obtain ⟨hstate, hanswer⟩ := hlimited hwithin
    rw [hstate]
    exact ⟨hdefault, .inl ⟨hwithin, hanswer, hcache⟩⟩

end Engine

/-! ## The names of alerts -/

/-- The event type of the alert about a result. -/
def eventTypeOf (r : RemediationResult) : String :=
  if r.actionStatus = .pendingApproval then pendingApprovalType else executedType

/-- What the alert about a result is deduplicated by. -/
def alertFor (r : RemediationResult) : Alert :=
  ⟨r.tenantId.str, eventTypeOf r, r.messageId⟩

/-- The alerts about two results are taken for the same: they name the same message of the same
tenant, and both or neither of them ask for approval. -/
structure SameName (r r' : RemediationResult) : Prop where
  tenant : r.tenantId = r'.tenantId
  message : r.messageId = r'.messageId
  approval : r.actionStatus = .pendingApproval ↔ r'.actionStatus = .pendingApproval

/-- No status is the text that would make an alert less than critical. -/
theorem statusText_ne_success (status : ActionStatus) : statusText status ≠ "SUCCESS" := by
  cases status <;> decide

/-- **The alert about a result**: how it is named, and how urgent it is. -/
theorem noticeOf_eventOf (r : RemediationResult) :
    (noticeOf (eventOf r)).tenantId = r.tenantId.str ∧
      (noticeOf (eventOf r)).eventName = eventTypeOf r ∧
      (noticeOf (eventOf r)).messageId = r.messageId ∧
      (noticeOf (eventOf r)).priority = .critical := by
  unfold eventOf eventTypeOf
  by_cases hpending : r.actionStatus = .pendingApproval
  · rw [if_pos hpending, if_pos hpending]
    exact ⟨rfl, rfl, rfl, rfl⟩
  · rw [if_neg hpending, if_neg hpending]
    exact ⟨rfl, rfl, rfl, if_neg (statusText_ne_success _)⟩

theorem alert_alertOf (c : AlertCall) (r : RemediationResult) :
    (c.alertOf r).payload.alert = if r.messageId = "" then none else some (alertFor r) := by
  obtain ⟨htenant, hevent, hmessage, -⟩ := noticeOf_eventOf r
  have hpayload : (c.alertOf r).payload =
      ⟨c.notificationId, r.tenantId.str, eventTypeOf r, none, some r.messageId⟩ := by
    rw [← htenant, ← hevent, ← hmessage]
    rfl
  rw [hpayload, NotificationPayload.alert, NotificationPayload.targetId, orText]
  by_cases hempty : r.messageId = ""
  · rw [if_pos hempty, hempty]
    rfl
  · rw [if_neg hempty, Option.filter_some, if_pos (decide_eq_true hempty)]
    rfl

theorem colon_notMem_eventTypeOf (r : RemediationResult) : ':' ∉ (eventTypeOf r).toList := by
  unfold eventTypeOf
  split_ifs
  · decide
  · decide

theorem eventTypeOf_eq_iff (r r' : RemediationResult) :
    eventTypeOf r = eventTypeOf r' ↔
      (r.actionStatus = .pendingApproval ↔ r'.actionStatus = .pendingApproval) := by
  have hne : pendingApprovalType ≠ executedType := by decide
  unfold eventTypeOf
  by_cases h : r.actionStatus = .pendingApproval
  · by_cases h' : r'.actionStatus = .pendingApproval
    · simp [h, h']
    · simp [h, h', hne]
  · by_cases h' : r'.actionStatus = .pendingApproval
    · simp [h, h', hne.symm]
    · simp [h, h']

/-- **The key of an alert determines its name**, whatever the message is called. -/
theorem dedupKey_alertFor_eq_iff (r r' : RemediationResult) :
    (alertFor r).dedupKey = (alertFor r').dedupKey ↔ SameName r r' := by
  constructor
  · intro hkey
    have hchars := congrArg String.toList hkey
    simp only [alertFor, Alert.dedupKey, String.toList_append, Uuid.toList_str,
      List.append_assoc] at hchars
    obtain ⟨htenant, hrest⟩ := Uuid.chars_append_inj hchars
    have hcut : (eventTypeOf r).toList ++ ':' :: r.messageId.toList =
        (eventTypeOf r').toList ++ ':' :: r'.messageId.toList := by
      simpa using List.append_cancel_left hrest
    -- no event type holds a colon
    obtain ⟨hevent, hmessage⟩ := Text.append_cons_inj_left
      (colon_notMem_eventTypeOf r) (colon_notMem_eventTypeOf r') hcut
    exact ⟨htenant, String.toList_inj.1 hmessage,
      (eventTypeOf_eq_iff r r').1 (String.toList_inj.1 hevent)⟩
  · intro hsame
    rw [alertFor, alertFor, hsame.tenant, hsame.message,
      (eventTypeOf_eq_iff r r').2 hsame.approval]

/-! ## Runs -/

/-- The two engines with the history of their requests. -/
abbrev SocHistory : Type :=
  Soc × List (Machine.Record Soc AlertCall SocAnswer)

/-- The alert about a result was neither over the limit nor suppressed. -/
def LetThrough (rec : Machine.Record Soc AlertCall SocAnswer) (r : RemediationResult) : Prop :=
  ∃ answer, rec.answer = ⟨.ok r, some answer⟩ ∧
    rec.state.notifications.WithinLimit (rec.action.alertOf r) ∧ ¬Engine.Suppressed answer

/-- The keys that have entered the cache, and when. -/
def letThroughLog (history : List (Machine.Record Soc AlertCall SocAnswer)) : Set (String × ℚ) :=
  {e | ∃ rec ∈ history, ∃ r, LetThrough rec r ∧ r.messageId ≠ "" ∧
    e = ((alertFor r).dedupKey, rec.action.now)}

/-- The request is not older than those before it. -/
def InOrder (h : SocHistory) (c : AlertCall) : Prop :=
  ∀ rec ∈ h.2, rec.action.now ≤ c.now

/-- The cache says which alerts were let through. -/
structure Faithful (h : SocHistory) : Prop where
  default : h.1.notifications.Default
  tracks : ∀ now, (∀ rec ∈ h.2, rec.action.now ≤ now) →
    Cooldown.Tracks 300 now h.1.notifications.dedupCache (letThroughLog h.2)

/-- The alert about a result is suppressed exactly if its tenant is within the limit and an alert of
the same name was let through in the last five minutes. -/
def SuppressedIffAnnounced (sha256 : String → String) (h : SocHistory) (c : AlertCall) : Prop :=
  ∀ r answer, (socStep sha256 h.1 c).2 = ⟨.ok r, some answer⟩ →
    (noticeOf (eventOf r)).priority = .critical ∧
      (Engine.Suppressed answer ↔
        h.1.notifications.WithinLimit (c.alertOf r) ∧ r.messageId ≠ "" ∧
          ∃ rec ∈ h.2, ∃ r', LetThrough rec r' ∧ SameName r' r ∧ c.now < rec.action.now + 300)

theorem letThroughLog_concat (history : List (Machine.Record Soc AlertCall SocAnswer))
    (rec : Machine.Record Soc AlertCall SocAnswer) :
    letThroughLog (history ++ [rec]) = letThroughLog history ∪ letThroughLog [rec] := by
  ext e
  constructor
  · rintro ⟨rec', hrec, hlet⟩
    rcases List.mem_append.1 hrec with hold | hnew
    · exact .inl ⟨rec', hold, hlet⟩
    · exact .inr ⟨rec', hnew, hlet⟩
  · rintro (⟨rec', hrec, hlet⟩ | ⟨rec', hrec, hlet⟩)
    · exact ⟨rec', List.mem_append_left _ hrec, hlet⟩
    · exact ⟨rec', List.mem_append_right _ hrec, hlet⟩

/-- The keys that have to wait are those of the alerts that were let through. -/
theorem waits_iff {history : List (Machine.Record Soc AlertCall SocAnswer)} {r : RemediationResult}
    {now : ℚ} (hmessage : r.messageId ≠ "") :
    Cooldown.Waits 300 (letThroughLog history) now (alertFor r).dedupKey ↔
      ∃ rec ∈ history, ∃ r', LetThrough rec r' ∧ SameName r' r ∧ now < rec.action.now + 300 := by
  constructor
  · rintro ⟨t, ⟨rec, hrec, r', hlet, -, heq⟩, hnow⟩
    obtain ⟨hkey, htime⟩ := Prod.mk.inj heq
    rw [htime] at hnow
    exact ⟨rec, hrec, r', hlet, (dedupKey_alertFor_eq_iff r' r).1 hkey.symm, hnow⟩
  · rintro ⟨rec, hrec, r', hlet, hsame, hnow⟩
    refine ⟨rec.action.now, ⟨rec, hrec, r', hlet, ?_, ?_⟩, hnow⟩
    · rw [hsame.message]
      exact hmessage
    · rw [(dedupKey_alertFor_eq_iff r' r).2 hsame]

/-- What a request does to the notification engine. -/
theorem socStep_cases (sha256 : String → String) (s : Soc) (c : AlertCall) :
    (∃ exc, (socStep sha256 s c).1.notifications = s.notifications ∧
      (socStep sha256 s c).2 = ⟨.error exc, none⟩) ∨
    ∃ r, (socStep sha256 s c).1.notifications = (s.notifications.dispatch (c.alertOf r)).1 ∧
      (socStep sha256 s c).2 = ⟨.ok r, some (s.notifications.dispatch (c.alertOf r)).2⟩ := by
  unfold socStep
  dsimp only
  cases (dispatchRemediation sha256 s.dispatcher s.auditRepo c.remediation).result with
  | error exc => exact .inl ⟨exc, rfl, rfl⟩
  | ok r => exact .inr ⟨r, rfl, rfl⟩

section Step

variable {sha256 : String → String} {h : SocHistory} {c : AlertCall}

/-- The record of a request. -/
def recordOf (sha256 : String → String) (h : SocHistory) (c : AlertCall) :
    Machine.Record Soc AlertCall SocAnswer :=
  ⟨h.1, c, (socStep sha256 h.1 c).2⟩

theorem letThroughLog_singleton_of_not
    (hnot : ∀ r, r.messageId ≠ "" → ¬LetThrough (recordOf sha256 h c) r) :
    letThroughLog [recordOf sha256 h c] = ∅ := by
  ext e
  constructor
  · rintro ⟨rec, hrec, r, hlet, hmessage, -⟩
    rw [List.mem_singleton.1 hrec] at hlet
    exact absurd hlet (hnot r hmessage)
  · intro hmem
    exact absurd hmem (Set.notMem_empty e)

theorem letThroughLog_singleton {r : RemediationResult} (hmessage : r.messageId ≠ "")
    (hlet : LetThrough (recordOf sha256 h c) r) :
    letThroughLog [recordOf sha256 h c] = {((alertFor r).dedupKey, c.now)} := by
  ext e
  constructor
  · rintro ⟨rec, hrec, r', ⟨answer', hanswer', -⟩, -, rfl⟩
    rw [List.mem_singleton.1 hrec] at hanswer' ⊢
    obtain ⟨answer, hanswer, -⟩ := hlet
    have hsame := (SocAnswer.mk.inj (hanswer'.symm.trans hanswer)).1
    rw [Except.ok.inj hsame]
    rfl
  · intro he
    rw [Set.mem_singleton_iff.1 he]
    exact ⟨_, List.mem_singleton_self _, r, hlet, hmessage, rfl⟩

/-- A step that leaves the table and the announcements as they are keeps them together. -/
theorem Faithful.concat (hdefault : (socStep sha256 h.1 c).1.notifications.Default)
    (htracks : Cooldown.Tracks 300 c.now (socStep sha256 h.1 c).1.notifications.dedupCache
      (letThroughLog (h.2 ++ [recordOf sha256 h c]))) :
    Faithful (Machine.recorded (socStep sha256) h c).1 := by
  refine ⟨hdefault, fun now hnow => ?_⟩
  have hlast : c.now ≤ now := hnow _ (List.mem_append_right _ (List.mem_singleton_self _))
  exact htracks.mono hlast

theorem faithful_step (hinv : Faithful h) (horder : InOrder h c) :
    Faithful (Machine.recorded (socStep sha256) h c).1 := by
  have htracks := hinv.tracks c.now horder
  rcases socStep_cases sha256 h.1 c with ⟨exc, hstate, hanswer⟩ | ⟨r, hstate, hanswer⟩
  · apply Faithful.concat
    · rw [hstate]
      exact hinv.default
    · have hnone : letThroughLog [recordOf sha256 h c] = ∅ := by
        apply letThroughLog_singleton_of_not
        rintro r - ⟨answer, heq, -⟩
        cases hanswer.symm.trans heq
      rw [hstate, letThroughLog_concat, hnone, Set.union_empty]
      exact htracks
  · -- the record lets `r` through exactly if the dispatch does
    have hlet : ∀ r', LetThrough (recordOf sha256 h c) r' ↔
        r' = r ∧ h.1.notifications.WithinLimit (c.alertOf r) ∧
          ¬Engine.Suppressed (h.1.notifications.dispatch (c.alertOf r)).2 := by
      intro r'
      constructor
      · rintro ⟨answer, heq, hwithin, hnot⟩
        cases hanswer.symm.trans heq
        exact ⟨rfl, hwithin, hnot⟩
      · rintro ⟨rfl, hwithin, hnot⟩
        exact ⟨_, hanswer, hwithin, hnot⟩
    by_cases hmessage : r.messageId = ""
    · have halert : (c.alertOf r).payload.alert = none := by
        rw [alert_alertOf, if_pos hmessage]
      obtain ⟨hdefault, -, hcache⟩ := hinv.default.dispatch_of_no_target rfl halert
      have hnone : letThroughLog [recordOf sha256 h c] = ∅ := by
        apply letThroughLog_singleton_of_not
        intro r' hmessage' hthrough
        rw [((hlet r').1 hthrough).1] at hmessage'
        exact hmessage' hmessage
      apply Faithful.concat
      · rw [hstate]
        exact hdefault
      · rw [hstate, hcache, letThroughLog_concat, hnone, Set.union_empty]
        exact htracks
    · have halert : (c.alertOf r).payload.alert = some (alertFor r) := by
        rw [alert_alertOf, if_neg hmessage]
      obtain ⟨hdefault, hcases⟩ := hinv.default.dispatch_cases rfl halert
      apply Faithful.concat
      · rw [hstate]
        exact hdefault
      · rw [hstate, letThroughLog_concat]
        rcases hcases with ⟨hover, -, hcache⟩ | ⟨-, -, hsuppressed, hcache⟩ |
          ⟨hwithin, hfree, hnot, hcache⟩
        · have hnone : letThroughLog [recordOf sha256 h c] = ∅ :=
            letThroughLog_singleton_of_not fun r' _ hthrough => hover ((hlet r').1 hthrough).2.1
          rw [hcache, hnone, Set.union_empty]
          exact htracks
        · have hnone : letThroughLog [recordOf sha256 h c] = ∅ :=
            letThroughLog_singleton_of_not fun r' _ hthrough =>
              ((hlet r').1 hthrough).2.2 hsuppressed
          rw [hcache, hnone, Set.union_empty]
          exact htracks.prune
        · rw [hcache, letThroughLog_singleton hmessage ((hlet r).2 ⟨rfl, hwithin, hnot⟩),
            Set.union_singleton]
          exact htracks.announce hfree

theorem suppressedIffAnnounced_of_faithful (hinv : Faithful h) (horder : InOrder h c) :
    SuppressedIffAnnounced sha256 h c := by
  intro r answer heq
  refine ⟨(noticeOf_eventOf r).2.2.2, ?_⟩
  rcases socStep_cases sha256 h.1 c with ⟨exc, -, hanswer⟩ | ⟨r', -, hanswer⟩
  · cases hanswer.symm.trans heq
  cases hanswer.symm.trans heq
  by_cases hmessage : r.messageId = ""
  · have halert : (c.alertOf r).payload.alert = none := by
      rw [alert_alertOf, if_pos hmessage]
    obtain ⟨-, hnot, -⟩ := hinv.default.dispatch_of_no_target rfl halert
    constructor
    · intro hsuppressed
      exact absurd hsuppressed hnot
    · rintro ⟨-, hne, -⟩
      exact absurd hmessage hne
  · have halert : (c.alertOf r).payload.alert = some (alertFor r) := by
      rw [alert_alertOf, if_neg hmessage]
    obtain ⟨-, hcases⟩ := hinv.default.dispatch_cases rfl halert
    have hlive := (hinv.tracks c.now horder c.now (le_refl _) (alertFor r).dedupKey).trans
      (waits_iff hmessage)
    rcases hcases with ⟨hover, hnot, -⟩ | ⟨hwithin, hopen, hsuppressed, -⟩ |
      ⟨hwithin, hfree, hnot, -⟩
    · constructor
      · intro hsuppressed
        exact absurd hsuppressed hnot
      · rintro ⟨hwithin, -⟩
        exact absurd hwithin hover
    · constructor
      · intro _
        exact ⟨hwithin, hmessage, hlive.1 hopen⟩
      · intro _
        exact hsuppressed
    · constructor
      · intro hsuppressed
        exact absurd hsuppressed hnot
      · rintro ⟨-, -, hearlier⟩
        exact absurd (hlive.2 hearlier) hfree

end Step

section Runs

variable (sha256 : String → String) (dispatcher : RemediationDispatcher)
  (channels : Dict ChannelType ChannelType) (maxRetries defaultRateLimit : ℤ)

theorem faithful_init (hge : 1 ≤ defaultRateLimit) (hle : defaultRateLimit ≤ 1000) :
    Faithful (Soc.init dispatcher channels maxRetries defaultRateLimit, []) := by
  refine ⟨⟨rfl, hge, hle⟩, fun now _ => ?_⟩
  have hnone : letThroughLog [] = ∅ := by
    ext e
    constructor
    · rintro ⟨rec, hrec, -⟩
      cases hrec
    · intro hmem
      exact absurd hmem (Set.notMem_empty e)
  rw [hnone]
  exact Cooldown.tracks_empty

/-- Along a run in which the clock does not run backwards, a property of the requests that the cache
gives holds of every one of them. -/
theorem always_of_faithful {P : SocHistory → AlertCall → Prop}
    (hP : ∀ h c, Faithful h → InOrder h c → P h c) (hge : 1 ≤ defaultRateLimit)
    (hle : defaultRateLimit ≤ 1000) {calls : List AlertCall}
    (horder : calls.Pairwise fun c c' => c.now ≤ c'.now) :
    Machine.Always (Machine.recorded (socStep sha256)) P
      (Soc.init dispatcher channels maxRetries defaultRateLimit, []) calls := by
  refine Machine.always_of_inv (I := Faithful) (C := InOrder) (fun _ _ => faithful_step) hP
    (faithful_init _ _ _ _ hge hle) ?_
  apply Machine.always_recorded_of_pairwise _ _ horder
  intro rec hrec
  cases hrec

/-- **An alert is suppressed exactly if another of its name was let through** in the last five
minutes: about the same message of the same tenant, whatever became of the two requests.  All these
alerts are critical ones. -/
theorem suppressed_iff_announced (hge : 1 ≤ defaultRateLimit) (hle : defaultRateLimit ≤ 1000)
    (calls : List AlertCall) (horder : calls.Pairwise fun c c' => c.now ≤ c'.now) :
    Machine.Always (Machine.recorded (socStep sha256)) (SuppressedIffAnnounced sha256)
      (Soc.init dispatcher channels maxRetries defaultRateLimit, []) calls :=
  always_of_faithful _ _ _ _ _ (fun _ _ => suppressedIffAnnounced_of_faithful) hge hle horder

end Runs

/-- A real quarantine, requested at a time and answered by a channel that fails. -/
def sampleAlertCall (now : ℚ) : AlertCall where
  remediation := Remediation.sampleQuarantine false
  notificationId := ⟨1⟩
  limitNow := now
  now := now
  sends := fun _ _ => .ok ⟨.slack, .failed, none, none, 0⟩

def sampleSoc : Soc :=
  .init Remediation.sampleDispatcher ((∅ : Dict ChannelType ChannelType).set .slack .slack) 3 60

theorem pairwise_sampleAlertCalls :
    [sampleAlertCall 0, sampleAlertCall 60, sampleAlertCall 120].Pairwise
      fun c c' => c.now ≤ c'.now := by
  norm_num [sampleAlertCall]

/-- The first request is carried out, the others are answered from the audit trail; the third alert
is suppressed, though the second reached nobody. -/
theorem suppressed_iff_announced_sample :
    ((Machine.outputs (socStep Remediation.sampleSha256) sampleSoc
        [sampleAlertCall 0, sampleAlertCall 60, sampleAlertCall 120]).map fun a =>
          a.summary.map fun answer => decide (Engine.Suppressed answer)) =
      [some false, some false, some true] ∧
    Machine.Always (Machine.recorded (socStep Remediation.sampleSha256))
      (SuppressedIffAnnounced Remediation.sampleSha256) (sampleSoc, [])
      [sampleAlertCall 0, sampleAlertCall 60, sampleAlertCall 120] :=
  ⟨by decide +kernel, suppressed_iff_announced _ _ _ _ _ (by decide) (by decide) _
    pairwise_sampleAlertCalls⟩

/-! ## Requests that are answered from the audit trail -/

/-- The request is answered with a result that was filed before. -/
def Replay (sha256 : String → String) (rec : Machine.Record Soc AlertCall SocAnswer)
    (r : RemediationResult) : Prop :=
  rec.state.auditRepo.getByIdempotencyKey rec.action.remediation.tenantId
    (rec.action.remediation.key sha256) = some r ∧ r.Effective

/-- The alert about a replay names no message of the tenant, and five minutes have passed since the
last one about a replay for this tenant was let through. -/
def ReplaysSpaced (sha256 : String → String) (h : SocHistory) (c : AlertCall) : Prop :=
  ∀ r, Replay sha256 (recordOf sha256 h c) r → LetThrough (recordOf sha256 h c) r →
    (noticeOf (eventOf r)).messageId = "msg_cached" ∧
      ∀ rec ∈ h.2, ∀ r', Replay sha256 rec r' → LetThrough rec r' →
        rec.action.remediation.tenantId = c.remediation.tenantId →
        rec.action.now + 300 ≤ c.now

/-- The fields of a filed result that the alert is named by. -/
theorem Replay.name {sha256 : String → String} {rec : Machine.Record Soc AlertCall SocAnswer}
    {r : RemediationResult} (h : Replay sha256 rec r) :
    r.tenantId = rec.action.remediation.tenantId ∧ r.messageId = "msg_cached" ∧
      r.actionStatus ≠ .pendingApproval := by
  obtain ⟨hget, heffective⟩ := h
  obtain ⟨r₀, -, hr⟩ := Option.map_eq_some_iff.1 hget
  refine ⟨by rw [← hr], by rw [← hr], ?_⟩
  rcases heffective with hstatus | hstatus
  · rw [hstatus]
    decide
  · rw [hstatus]
    decide

theorem replaysSpaced_of_faithful {sha256 : String → String} {h : SocHistory} {c : AlertCall}
    (hinv : Faithful h) (horder : InOrder h c) : ReplaysSpaced sha256 h c := by
  intro r hreplay hlet
  obtain ⟨htenant, hmessage, hstatus⟩ := hreplay.name
  refine ⟨(noticeOf_eventOf r).2.2.1.trans hmessage, fun rec hrec r' hreplay' hlet' hsame => ?_⟩
  obtain ⟨htenant', hmessage', hstatus'⟩ := hreplay'.name
  obtain ⟨answer, hanswer, hwithin, hnot⟩ := hlet
  have hname : SameName r' r := by
    refine ⟨?_, hmessage'.trans hmessage.symm, iff_of_false hstatus' hstatus⟩
    rw [htenant', htenant]
    exact hsame
  obtain ⟨-, hiff⟩ := suppressedIffAnnounced_of_faithful hinv horder r answer hanswer
  by_contra hlate
  refine hnot (hiff.2 ⟨hwithin, ?_, rec, hrec, r', hlet', hname, not_le.1 hlate⟩)
  rw [hmessage]
  decide

/-- **Replays are announced once.**  Whatever requests of a tenant are answered from the audit
trail, about whichever incidents, the alerts about them go by the one name `msg_cached`, and one of
them is let through in five minutes. -/
theorem replays_announced_once (sha256 : String → String) (dispatcher : RemediationDispatcher)
    (channels : Dict ChannelType ChannelType) (maxRetries defaultRateLimit : ℤ)
    (hge : 1 ≤ defaultRateLimit) (hle : defaultRateLimit ≤ 1000)
    (calls : List AlertCall) (horder : calls.Pairwise fun c c' => c.now ≤ c'.now) :
    Machine.Always (Machine.recorded (socStep sha256)) (ReplaysSpaced sha256)
      (Soc.init dispatcher channels maxRetries defaultRateLimit, []) calls :=
  always_of_faithful _ _ _ _ _ (fun _ _ => replaysSpaced_of_faithful) hge hle horder

theorem replays_announced_once_sample :
    Machine.Always (Machine.recorded (socStep Remediation.sampleSha256))
      (ReplaysSpaced Remediation.sampleSha256) (sampleSoc, [])
      [sampleAlertCall 0, sampleAlertCall 60, sampleAlertCall 120] :=
  replays_announced_once _ _ _ _ _ (by decide) (by decide) _ pairwise_sampleAlertCalls

end ScamOn.Notifications
