import Mathlib.Algebra.Order.Field.Rat
import ScamOn.Lib.SlidingWindow
import ScamOn.Notifications.Engine

/-!
# The rate limit of the notification engine

`NotificationEngine._check_rate_limit` keeps, for each tenant, the times of the alerts it
let through, and throws away those that are a minute old.  Here a run of such checks is
compared with its whole history.

* `checkStep` is a check as a step of a machine; `allowedCalls` is the ghost history of a
  tenant: the instants of its checks that were answered `True`.
* `recent_run`: what the engine keeps is the part of the history that is recent.
* `rateLimit_window`: no minute holds more alerts of a tenant than its limit, a check is
  refused only after a full minute, and the tenants do not see each other.
-/

namespace ScamOn.Notifications

open Machine SlidingWindow

/-- A call of `_check_rate_limit`, with what the clock shows. -/
structure RateCheck where
  now : ℚ
  tenantId : String
  deriving DecidableEq

/-- A call for a tenant whose limit is fixed. -/
def checkStep (limit : String → ℕ) (s : Engine) (c : RateCheck) : Engine × Bool :=
  s.checkRateLimit c.now c.tenantId (limit c.tenantId)

/-- The tenant's checks that are answered `True`. -/
def allowedCalls (limit : String → ℕ) (s : Engine) (calls : List RateCheck) (tenantId : String) :
    List RateCheck :=
  selected (checkStep limit) (fun c allowed => c.tenantId = tenantId && allowed) s calls

/-- How many of the checks fall into a set of instants. -/
abbrev countIn (S : Set ℚ) [DecidablePred (· ∈ S)] (calls : List RateCheck) : ℕ :=
  load RateCheck.now (fun _ => 1) S calls

/-- The times kept for a tenant. -/
def Engine.records (s : Engine) (tenantId : String) : List ℚ :=
  (s.rateLimitRecords.get? tenantId).getD []

/-- The kept times that are less than a minute old. -/
def Engine.recent (s : Engine) (tenantId : String) (now : ℚ) : List ℚ :=
  (s.records tenantId).filter fun ts => now - 60 < ts

variable {limit : String → ℕ} {s : Engine} {c : RateCheck} {tenantId : String}

theorem countIn_eq_length (S : Set ℚ) [DecidablePred (· ∈ S)] (calls : List RateCheck) :
    countIn S calls = (calls.filter (·.now ∈ S)).length := by
  simp [countIn, load]

/-! ## One check -/

theorem answer_checkStep :
    (checkStep limit s c).2 = decide ((s.recent c.tenantId c.now).length < limit c.tenantId) := by
  unfold checkStep Engine.checkRateLimit Engine.recent Engine.records
  dsimp only
  split_ifs with hfull
  · simpa using hfull
  · simpa using hfull

/-- **What a check leaves behind**: the recent times of its tenant, with its own if it is
let through; nothing changes for the other tenants. -/
theorem records_checkStep :
    (checkStep limit s c).1.records tenantId =
      if tenantId = c.tenantId then
        s.recent tenantId c.now ++ (if (checkStep limit s c).2 then [c.now] else [])
      else s.records tenantId := by
  unfold checkStep Engine.checkRateLimit Engine.recent Engine.records
  dsimp only
  split_ifs with hfull htenant htenant
  all_goals simp_all [Dict.get?_set]

/-! ## A run of checks -/

variable {calls : List RateCheck} {now : ℚ}

theorem allowedCalls_concat :
    allowedCalls limit s (calls ++ [c]) tenantId =
      allowedCalls limit s calls tenantId ++
        (if c.tenantId = tenantId && (checkStep limit (run (checkStep limit) s calls) c).2 then
          [c] else []) := selected_concat ..

theorem mem_of_mem_allowedCalls (h : c ∈ allowedCalls limit s calls tenantId) : c ∈ calls :=
  (selected_sublist ..).subset h

/-- Purging at an earlier instant loses nothing that is recent later. -/
theorem filter_recent_of_le {earlier later : ℚ} (h : earlier ≤ later) (times : List ℚ) :
    (times.filter fun ts => earlier - 60 < ts).filter (fun ts => later - 60 < ts) =
      times.filter fun ts => later - 60 < ts := by
  rw [List.filter_filter]
  refine List.filter_congr fun ts _ => ?_
  rw [Bool.eq_iff_iff, Bool.and_eq_true, decide_eq_true_eq, decide_eq_true_eq]
  exact ⟨fun hts => hts.1, fun hts => ⟨hts, (sub_le_sub_right h 60).trans_lt hts⟩⟩

/-- **The engine keeps the recent part of the history.** -/
theorem recent_run (hnew : s.records tenantId = [])
    (hsorted : calls.Pairwise fun c d => c.now ≤ d.now) (hnow : ∀ c ∈ calls, c.now ≤ now) :
    (run (checkStep limit) s calls).recent tenantId now =
      ((allowedCalls limit s calls tenantId).map RateCheck.now).filter fun ts => now - 60 < ts := by
  induction calls using List.reverseRecOn generalizing now with
  | nil => simp [Engine.recent, hnew, allowedCalls, selected]
  | append_singleton calls c ih =>
    obtain ⟨hsortedOld, -, hlast⟩ := List.pairwise_append.1 hsorted
    have hold : ∀ d ∈ calls, d.now ≤ c.now := fun d hd => hlast d hd c (by simp)
    have hc : c.now ≤ now := hnow c (by simp)
    rw [run_append, allowedCalls_concat, List.map_append, List.filter_append]
    show (checkStep limit (run (checkStep limit) s calls) c).1.recent tenantId now = _
    rw [Engine.recent, records_checkStep]
    by_cases htenant : tenantId = c.tenantId
    · rw [if_pos htenant, List.filter_append, ih hsortedOld hold, filter_recent_of_le hc, htenant,
        decide_eq_true rfl, Bool.true_and]
      congr 1
      split_ifs <;> rfl
    · have hne : ¬c.tenantId = tenantId := fun h => htenant h.symm
      rw [if_neg htenant, if_neg (by simp [hne]), List.map_nil, List.filter_nil, List.append_nil]
      exact ih hsortedOld fun d hd => hnow d (List.mem_append_left _ hd)

/-- What the engine keeps is the load of the minute before. -/
theorem length_recent_run (hnew : s.records tenantId = [])
    (hsorted : calls.Pairwise fun c d => c.now ≤ d.now) (hnow : ∀ c ∈ calls, c.now ≤ now) :
    ((run (checkStep limit) s calls).recent tenantId now).length =
      countIn (Set.Ioc (now - 60) now) (allowedCalls limit s calls tenantId) := by
  rw [recent_run hnew hsorted hnow, countIn_eq_length, List.filter_map, List.length_map]
  congr 1
  refine List.filter_congr fun c hc => ?_
  have hle : c.now ≤ now := hnow c (mem_of_mem_allowedCalls hc)
  simp [hle]

/-- Whenever a check is let through, the minute before holds no more than the limit. -/
theorem allowedCalls_trailing (hnew : s.records tenantId = [])
    (hsorted : calls.Pairwise fun c d => c.now ≤ d.now) :
    TrailingWithin RateCheck.now (fun _ => 1) 60 (limit tenantId)
      (allowedCalls limit s calls tenantId) := by
  induction calls using List.reverseRecOn with
  | nil =>
    intro pre x hpre
    simp [allowedCalls, selected] at hpre
  | append_singleton calls c ih =>
    obtain ⟨hsortedOld, -, hlast⟩ := List.pairwise_append.1 hsorted
    have hold : ∀ d ∈ calls, d.now ≤ c.now := fun d hd => hlast d hd c (by simp)
    rw [allowedCalls_concat]
    split_ifs with hallowed
    · rw [Bool.and_eq_true, decide_eq_true_eq] at hallowed
      obtain ⟨rfl, hanswer⟩ := hallowed
      refine trailingWithin_concat.2 ⟨ih hsortedOld, ?_⟩
      rw [answer_checkStep, decide_eq_true_eq, length_recent_run hnew hsortedOld hold] at hanswer
      have hself : c.now ∈ Set.Ioc (c.now - 60) c.now := ⟨sub_lt_self _ (by norm_num), le_refl _⟩
      rw [load_append, load_cons, if_pos hself, load_nil, add_zero]
      exact Nat.lt_iff_add_one_le.1 hanswer
    · rw [List.append_nil]
      exact ih hsortedOld

/-! ## Tenants apart -/

/-- Engines that keep the same times for a tenant answer its checks alike. -/
theorem answer_congr {s' : Engine} (h : s.records c.tenantId = s'.records c.tenantId) :
    (checkStep limit s c).2 = (checkStep limit s' c).2 := by
  rw [answer_checkStep, answer_checkStep, Engine.recent, Engine.recent, h]

theorem records_congr {s' : Engine} (h : s.records tenantId = s'.records tenantId) :
    (checkStep limit s c).1.records tenantId = (checkStep limit s' c).1.records tenantId := by
  rw [records_checkStep, records_checkStep]
  by_cases htenant : tenantId = c.tenantId
  · subst htenant
    rw [if_pos rfl, if_pos rfl, Engine.recent, Engine.recent, h, answer_congr h]
  · rw [if_neg htenant, if_neg htenant, h]

/-- The answers to a tenant's checks are those it would get alone. -/
theorem answers_alone (limit : String → ℕ) (s : Engine) (calls : List RateCheck)
    (tenantId : String) :
    answersTo (checkStep limit) (fun c => c.tenantId = tenantId) s calls =
      outputs (checkStep limit) s (calls.filter fun c => c.tenantId = tenantId) := by
  have hmine : ∀ c ∈ calls.filter (fun c => c.tenantId = tenantId),
      decide (c.tenantId = tenantId) = true := fun c hc => (List.mem_filter.1 hc).2
  rw [← answersTo_eq_outputs hmine]
  let R : Engine → Engine → Prop := fun s s' => s.records tenantId = s'.records tenantId
  refine answersTo_filter (R := R) (fun _ _ h => h) ?_ ?_ ?_ rfl
  · intro c _ _ s s' hR
    exact records_congr hR
  · intro c _ hc s s' hR
    have hne : tenantId ≠ c.tenantId := fun h => hc (by simp [h])
    show (checkStep limit s c).1.records tenantId = s'.records tenantId
    rw [records_checkStep, if_neg hne]
    exact hR
  · intro c _ hc s s' hR
    rw [decide_eq_true_eq] at hc
    subst hc
    exact answer_congr hR

/-! ## The window -/

/-- **The window slides.**  In no minute are more checks of a tenant let through than its
limit; a check is refused only when that many were let through in the minute before; and
the answers to a tenant's checks are those it would get alone. -/
theorem rateLimit_window (limit : String → ℕ) (channels : Dict ChannelType ChannelType)
    (maxRetries defaultRateLimit : ℤ) (calls : List RateCheck)
    (hsorted : calls.Pairwise fun c d => c.now ≤ d.now) :
    let s := Engine.init channels maxRetries defaultRateLimit
    (∀ tenantId start,
      countIn (Set.Ico start (start + 60)) (allowedCalls limit s calls tenantId) ≤ limit tenantId ∧
      countIn (Set.Ioc start (start + 60)) (allowedCalls limit s calls tenantId) ≤
        limit tenantId) ∧
    (∀ pre c, pre ++ [c] <+: calls → (checkStep limit (run (checkStep limit) s pre) c).2 = false →
      limit c.tenantId ≤
        countIn (Set.Ioc (c.now - 60) c.now) (allowedCalls limit s pre c.tenantId)) ∧
    (∀ tenantId, answersTo (checkStep limit) (fun c => c.tenantId = tenantId) s calls =
      outputs (checkStep limit) s (calls.filter fun c => c.tenantId = tenantId)) := by
  intro s
  have hnew : ∀ tenantId, s.records tenantId = [] := fun _ => rfl
  refine ⟨fun tenantId => ?_, fun pre c hpre hrefused => ?_, fun tenantId => ?_⟩
  · have hsublist : (allowedCalls limit s calls tenantId).Sublist calls := selected_sublist _ s calls
    have hsortedAllowed := hsorted.sublist hsublist
    exact (respects_iff_trailing (Nat.zero_le _) (fun _ _ => Nat.zero_le _) hsortedAllowed).2
      (allowedCalls_trailing (hnew tenantId) hsorted)
  · obtain ⟨hsortedPre, -, hlast⟩ := List.pairwise_append.1 (hsorted.sublist hpre.sublist)
    rw [answer_checkStep, decide_eq_false_iff_not, not_lt] at hrefused
    rwa [← length_recent_run (hnew c.tenantId) hsortedPre fun d hd => hlast d hd c (by simp)]
  · exact answers_alone limit s calls tenantId

/-- Two alerts a minute: the third has to wait until the first is a minute old. -/
theorem rateLimit_window_two :
    let limit : String → ℕ := fun _ => 2
    let calls : List RateCheck := [⟨0, "t"⟩, ⟨10, "t"⟩, ⟨20, "t"⟩, ⟨60, "t"⟩]
    outputs (checkStep limit) (Engine.init ∅ 3 60) calls = [true, true, false, true] ∧
      countIn (Set.Ico 5 (5 + 60)) (allowedCalls limit (Engine.init ∅ 3 60) calls "t") ≤ 2 :=
  ⟨by decide +kernel, ((rateLimit_window (fun _ => 2) ∅ 3 60
    [⟨0, "t"⟩, ⟨10, "t"⟩, ⟨20, "t"⟩, ⟨60, "t"⟩] (by norm_num)).1 "t" 5).1⟩

end ScamOn.Notifications
