import Mathlib.Data.List.Induction
import ScamOn.Common.RedisClient

/-!
# The observation cache

`ThreatIntelRedisCache` keeps observations of indicators under keys of tenant, type and target, in
an in-memory Redis client.

* `formatKey` is the key of an indicator; it is the cleaning that joins targets.
* `lastSet` is the data that was last set under a key, until it is deleted or found expired, and
  `get?_storeAfter` says that this is what the store holds.
* `cache_isolated`: in every run in which nobody asks for, or deletes, a target whose cleaned form
  still holds live data of another target, no data is mixed up.
-/

namespace ScamOn.Common

/-- What an observation is about. -/
structure Indicator where
  tenantId : Uuid
  iocType : String
  target : String
  deriving DecidableEq

/-! ## Keys -/

section Keys

variable (lower : String → String)

/-- `[a-zA-Z0-9_.-]`. -/
def isKeyChar (c : Char) : Bool :=
  ('a' ≤ c ∧ c ≤ 'z') || ('A' ≤ c ∧ c ≤ 'Z') || ('0' ≤ c ∧ c ≤ '9') || ['_', '.', '-'].contains c

/-- `target.strip().lower()`. -/
def normalTarget (target : String) : String := lower (Text.strip target)

/-- `clean_target`. -/
def cleanTarget (target : String) : String :=
  String.ofList ((normalTarget lower target).toList.map fun c => if isKeyChar c then c else '_')

/-- `format_key`. -/
def formatKey (i : Indicator) : String :=
  "scamon:" ++ i.tenantId.str ++ ":threat_intel:" ++ lower i.iocType ++ ":" ++
    cleanTarget lower i.target

/-- The same tenant, the same type up to case, the same target up to case and blanks around it. -/
def SameIndicator (i j : Indicator) : Prop :=
  i.tenantId = j.tenantId ∧ lower i.iocType = lower j.iocType ∧
    normalTarget lower i.target = normalTarget lower j.target

instance (i j : Indicator) : Decidable (SameIndicator lower i j) :=
  inferInstanceAs (Decidable (_ ∧ _ ∧ _))

variable {lower}

end Keys

/-! ## Calls -/

/-- The calls of the cache. -/
inductive CacheCall
  | getObservation (i : Indicator)
  | setObservation (i : Indicator) (dataJson : String) (ttlSec : ℚ)
  | deleteObservation (i : Indicator)

/-- A call and the instant at which it runs. -/
structure TimedCall where
  now : ℚ
  call : CacheCall

/-- What a call returns or raises. -/
inductive CacheReply
  | data (d : Option String)
  | stored (b : Bool)
  | removed (n : ℤ)
  | raises
  deriving DecidableEq

section Runs

variable (lower : String → String)

/-- What the cache makes of the reply of the client. -/
def CacheReply.ofReply : Reply → CacheReply
  | .value none => .data none
  | .value (some (.str s)) => .data (some s)
  | .value (some (.bytes b)) =>
    match String.fromUTF8? b with
    | some s => .data (some s)
    | none => .raises
  | .flag b => .stored b
  | .int n => .removed n
  | _ => .raises

/-- The operation of a call. -/
def CacheCall.op : CacheCall → Op
  | .getObservation i => .get (formatKey lower i)
  | .setObservation i dataJson ttlSec =>
    .set (formatKey lower i) (.str dataJson) (some ttlSec) none false false
  | .deleteObservation i => .delete [formatKey lower i]

/-- `get_observation`, `set_observation` and `delete_observation`. -/
def cacheStep (s : Store) (a : TimedCall) : Store × CacheReply :=
  ((step s ⟨a.now, a.call.op lower⟩).1, .ofReply (step s ⟨a.now, a.call.op lower⟩).2)

/-- The store after some calls. -/
def storeAfter (past : List TimedCall) : Store := Machine.run (cacheStep lower) ∅ past

/-- Data under a key: whose it is, and the instant at which its time to live ends. -/
structure Held where
  owner : Indicator
  data : String
  expiry : ℚ

/-- The entry of the store in which data is kept. -/
def Held.entry (h : Held) : Entry := ⟨.str h.data, some h.expiry⟩

/-- What a call leaves of the data under a key. -/
def leaves (key : String) (found : Option Held) : TimedCall → Option Held
  | ⟨now, .getObservation i⟩ =>
    if key = formatKey lower i then found.filter fun h => now ≤ h.expiry else found
  | ⟨now, .setObservation i dataJson ttlSec⟩ =>
    if key = formatKey lower i then some ⟨i, dataJson, now + ttlSec⟩ else found
  | ⟨_, .deleteObservation i⟩ => if key = formatKey lower i then none else found

/-- The data last set under a key, until it is deleted, or a get finds its time over. -/
def lastSet (past : List TimedCall) (key : String) : Option Held :=
  past.foldl (leaves lower key) none

/-- The data that lives under a key at an instant. -/
def liveUnder (past : List TimedCall) (now : ℚ) (key : String) : Option Held :=
  (lastSet lower past key).filter fun h => now ≤ h.expiry

/-- The history of a run. -/
def history (past : List TimedCall) (a : TimedCall) : List TimedCall × Unit := (past ++ [a], ())

/-- A call does not mix indicators up: it returns only data that was stored for its indicator, and
removes no live data of another one. -/
structure Isolated (past : List TimedCall) (a : TimedCall) : Prop where
  get : ∀ i d, a.call = .getObservation i →
    (cacheStep lower (storeAfter lower past) a).2 = .data (some d) →
    ∃ now j ttlSec, ⟨now, .setObservation j d ttlSec⟩ ∈ past ∧ SameIndicator lower j i
  delete : ∀ i key h, a.call = .deleteObservation i → liveUnder lower past a.now key = some h →
    ¬SameIndicator lower h.owner i →
    (cacheStep lower (storeAfter lower past) a).1.get? key = (storeAfter lower past).get? key

/-- The indicator that a get or a delete names. -/
def CacheCall.asksFor : CacheCall → Option Indicator
  | .getObservation i | .deleteObservation i => some i
  | .setObservation .. => none

/-- The data that lives under the key of a get or a delete, if any, is that of the same indicator. -/
def KeepsApart (past : List TimedCall) (a : TimedCall) : Prop :=
  ∀ i ∈ a.call.asksFor, ∀ h ∈ liveUnder lower past a.now (formatKey lower i),
    SameIndicator lower h.owner i

instance (past : List TimedCall) (a : TimedCall) : Decidable (KeepsApart lower past a) :=
  inferInstanceAs (Decidable (∀ i ∈ a.call.asksFor,
    ∀ h ∈ liveUnder lower past a.now (formatKey lower i), SameIndicator lower h.owner i))

variable {lower} {past : List TimedCall} {a : TimedCall} {key : String}

theorem storeAfter_concat (past : List TimedCall) (a : TimedCall) :
    storeAfter lower (past ++ [a]) = (cacheStep lower (storeAfter lower past) a).1 := by
  rw [storeAfter, Machine.run_append]
  rfl

theorem lastSet_concat (past : List TimedCall) (a : TimedCall) (key : String) :
    lastSet lower (past ++ [a]) key = leaves lower key (lastSet lower past key) a := by
  rw [lastSet, List.foldl_append]
  rfl

theorem mem_of_lastSet {h : Held} (hlast : lastSet lower past key = some h) :
    ∃ now ttlSec, ⟨now, .setObservation h.owner h.data ttlSec⟩ ∈ past := by
  induction past using List.reverseRecOn with
  | nil => cases hlast
  | append_singleton past a ih =>
    rw [lastSet_concat] at hlast
    have hkept (hold : lastSet lower past key = some h) :
        ∃ now ttlSec, ⟨now, .setObservation h.owner h.data ttlSec⟩ ∈ past ++ [a] := by
      obtain ⟨now, ttlSec, hmem⟩ := ih hold
      exact ⟨now, ttlSec, List.mem_append_left _ hmem⟩
    obtain ⟨now, call⟩ := a
    cases call with
    | getObservation i =>
      rw [leaves] at hlast
      split_ifs at hlast
      · exact hkept (Option.filter_eq_some_iff.1 hlast).1
      · exact hkept hlast
    | setObservation i dataJson ttlSec =>
      rw [leaves] at hlast
      split_ifs at hlast
      · cases hlast
        exact ⟨now, ttlSec, List.mem_append_right _ (List.mem_singleton_self _)⟩
      · exact hkept hlast
    | deleteObservation i =>
      rw [leaves] at hlast
      split_ifs at hlast
      exact hkept hlast

/-- A get leaves the data that has not expired. -/
theorem getEntry_entry (now : ℚ) (found : Option Held) :
    (getEntry now (found.map Held.entry)).1 =
      (found.filter fun h => now ≤ h.expiry).map Held.entry := by
  cases found with
  | none => rfl
  | some h =>
    by_cases hlive : now ≤ h.expiry
    · simp [getEntry, Entry.Expired, Held.entry, Option.filter, hlive, not_lt.2 hlive]
    · simp [getEntry, Entry.Expired, Held.entry, Option.filter, hlive, not_le.1 hlive]

/-- **The store** holds what was last set. -/
theorem get?_storeAfter (past : List TimedCall) (key : String) :
    (storeAfter lower past).get? key = (lastSet lower past key).map Held.entry := by
  induction past using List.reverseRecOn with
  | nil => rfl
  | append_singleton past a ih =>
    rw [storeAfter_concat, lastSet_concat]
    obtain ⟨now, call⟩ := a
    cases call with
    | getObservation i =>
      change ((storeAfter lower past).access (formatKey lower i) (getEntry now)).1.get? key = _
      rw [Dict.get?_access, leaves]
      split_ifs with hkey
      · rw [← hkey, ih, getEntry_entry]
      · exact ih
    | setObservation i dataJson ttlSec =>
      change ((storeAfter lower past).access (formatKey lower i)
        (setEntry now (.str dataJson) (some ttlSec) none false false)).1.get? key = _
      rw [Dict.get?_access, leaves]
      split_ifs with hkey
      · rfl
      · exact ih
    | deleteObservation i =>
      change ((storeAfter lower past).access (formatKey lower i) deleteEntry).1.get? key = _
      rw [Dict.get?_access, leaves]
      split_ifs with hkey
      · cases (storeAfter lower past).get? (formatKey lower i) <;> rfl
      · exact ih

/-- A get returns the data that lives under its key. -/
theorem liveUnder_of_get {i : Indicator} {now : ℚ} {d : String}
    (h : (cacheStep lower (storeAfter lower past) ⟨now, .getObservation i⟩).2 = .data (some d)) :
    ∃ held, liveUnder lower past now (formatKey lower i) = some held ∧ held.data = d := by
  have hreply : CacheReply.ofReply ((storeAfter lower past).access (formatKey lower i)
      (getEntry now)).2 = .data (some d) := h
  rw [Dict.access_snd, get?_storeAfter] at hreply
  cases hlast : lastSet lower past (formatKey lower i) with
  | none =>
    rw [hlast] at hreply
    cases hreply
  | some held =>
    rw [hlast] at hreply
    by_cases hlive : now ≤ held.expiry
    · refine ⟨held, by simp [liveUnder, hlast, Option.filter, hlive], ?_⟩
      simpa [getEntry, Entry.Expired, Held.entry, not_lt.2 hlive, CacheReply.ofReply] using hreply
    · simp [getEntry, Entry.Expired, Held.entry, not_le.1 hlive, CacheReply.ofReply] at hreply

/-- **One call** that keeps indicators apart does not mix them up. -/
theorem KeepsApart.isolated (h : KeepsApart lower past a) : Isolated lower past a := by
  obtain ⟨now, call⟩ := a
  constructor
  · rintro i d rfl hreply
    obtain ⟨held, hlive, rfl⟩ := liveUnder_of_get hreply
    obtain ⟨now', ttlSec, hmem⟩ := mem_of_lastSet (Option.filter_eq_some_iff.1 hlive).1
    exact ⟨now', held.owner, ttlSec, hmem, h i rfl held hlive⟩
  · rintro i key held rfl hlive hother
    have hkey : key ≠ formatKey lower i := by
      rintro rfl
      exact hother (h i rfl held hlive)
    exact get?_step_of_notMem (fun hmem => hkey (List.mem_singleton.1 hmem)) _

end Runs

/-- **The cache keeps indicators apart** in every run in which no get and no delete names an
indicator whose key holds live data of another one. -/
theorem cache_isolated (lower : String → String) (calls : List TimedCall)
    (h : Machine.Always history (KeepsApart lower) [] calls) :
    Machine.Always history (Isolated lower) [] calls :=
  Machine.always_of_inv (I := fun _ => True) (fun _ _ _ _ => trivial)
    (fun _ _ _ hcall => hcall.isolated) trivial h

/-! ## Two runs -/

/-- A URL of the first tenant. -/
def urlIndicator (target : String) : Indicator := ⟨Uuid.ofNat 1, "url", target⟩

/-- Data is stored for one URL, read in another spelling of it, and deleted; then a URL with the
same key is asked for, once after the delete, and once when later data has expired. -/
theorem cache_isolated_url :
    Machine.Always history (Isolated Text.asciiLower) []
      [⟨0, .setObservation (urlIndicator "http://a.b/x") "ok" 60⟩,
        ⟨1, .getObservation (urlIndicator " HTTP://A.b/x ")⟩,
        ⟨2, .deleteObservation (urlIndicator "http://a.b/x")⟩,
        ⟨3, .getObservation (urlIndicator "http://a.b?x")⟩,
        ⟨4, .setObservation (urlIndicator "http://a.b/x") "ok" 60⟩,
        ⟨65, .getObservation (urlIndicator "http://a.b?x")⟩] :=
  cache_isolated _ _ ⟨by decide +kernel, by decide +kernel, by decide +kernel, by decide +kernel,
    by decide +kernel, by decide +kernel, trivial⟩

/-- A URL with a slash and one with a question mark have one key: the one is answered with the data of
the other, and deleted with it. -/
theorem urls_mixed_up :
    ¬SameIndicator Text.asciiLower (urlIndicator "http://a.b/x") (urlIndicator "http://a.b?x") ∧
      Machine.outputs (cacheStep Text.asciiLower) ∅
        [⟨0, .setObservation (urlIndicator "http://a.b/x") "clean" 60⟩,
          ⟨1, .getObservation (urlIndicator "http://a.b?x")⟩,
          ⟨2, .deleteObservation (urlIndicator "http://a.b?x")⟩,
          ⟨3, .getObservation (urlIndicator "http://a.b/x")⟩] =
        [.stored true, .data (some "clean"), .removed 1, .data none] := by
  decide +kernel

end ScamOn.Common
