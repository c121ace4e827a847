import Mathlib.Data.Set.Function
import ScamOn.Lib.Machine
import ScamOn.IngestionGateway.Dedup

/-!
# The calls of the deduplication engine

All that a client can ask of `IngestionDeduplicationEngine`: besides
`check_and_mark` with a lifetime of its choice, the questions that delete an
expired entry on the way (`is_duplicate`, `get_record`), `mark_seen`, which
overwrites the mark, and the two that go over the whole store.

* `DedupEngine.step` is one call at one instant; `get?_step` says what it does to
  the entry under one key.
* `AdmittedOnce` says that a message is admitted a second time only when its first
  lifetime has run out, or after a call that excuses it.
* `admitted_once_and_apart`: this holds of every run, if a `mark_seen` whose own
  lifetime has run out is an excuse too; and what is asked about other messages
  changes no answer.
* `mark_seen_readmits` shows that the excuse is needed.
-/

namespace ScamOn.IngestionGateway

/-! ## Calls and answers -/

/-- A message, as a client names it. -/
structure MessageRef where
  tenantId : Uuid
  accountId : Uuid
  providerMessageId : String
  deriving DecidableEq

/-- What the engine tells messages apart by. -/
def MessageRef.ident (m : MessageRef) : Uuid × Uuid × String :=
  (m.tenantId, m.accountId, Text.strip m.providerMessageId)

def MessageRef.seed (m : MessageRef) : String := rawSeed m.tenantId m.accountId m.providerMessageId

def MessageRef.key (sha256 : String → String) (m : MessageRef) : String :=
  computeDedupKey sha256 m.tenantId m.accountId m.providerMessageId

/-- The record a mark consists of. -/
def MessageRef.record (sha256 : String → String) (m : MessageRef) : DedupRecord :=
  ⟨m.key sha256, m.tenantId, m.accountId, Text.strip m.providerMessageId⟩

/-- A call of the engine. -/
inductive DedupCall
  | checkAndMark (m : MessageRef) (ttlSec : Option ℤ)
  | isDuplicate (m : MessageRef)
  | getRecord (m : MessageRef)
  | markSeen (m : MessageRef) (ttlSec : Option ℤ)
  | pruneExpired
  | clear (tenantId : Option Uuid)
  deriving DecidableEq

/-- A call and the instant at which it is made. -/
structure TimedCall where
  now : ℚ
  call : DedupCall

/-- What a call returns. -/
inductive DedupAnswer
  | bool (b : Bool)
  | record (r : Option DedupRecord)
  | count (n : ℕ)
  | none
  deriving DecidableEq

/-- The message a call is about; `prune_expired` and `clear` are about none. -/
def DedupCall.message? : DedupCall → Option MessageRef
  | checkAndMark m _ | isDuplicate m | getRecord m | markSeen m _ => some m
  | pruneExpired | clear _ => none

namespace DedupEngine

/-- An entry of the store: the record, and when it expires. -/
abbrev Mark : Type := DedupRecord × ℚ

/-! ## The operations on an entry -/

/-- `is_duplicate` and `get_record` find a live mark and delete an expired one. -/
def lookupMark (now : ℚ) : Option Mark → Option Mark × Option DedupRecord
  | none => (none, none)
  | some (record, expiry) =>
    if now < expiry then (some (record, expiry), some record) else (none, none)

/-- `check_and_mark` leaves a live mark as it is, and sets a new one otherwise. -/
def checkMark (now : ℚ) (fresh : Mark) : Option Mark → Option Mark × Bool
  | none => (some fresh, true)
  | some (record, expiry) => if now < expiry then (some (record, expiry), false) else (some fresh, true)

/-! ## The engine -/

/-- `ttl_sec if ttl_sec is not None else self.default_ttl_sec`. -/
def ttlOr (e : DedupEngine) (ttlSec : Option ℤ) : ℚ := (ttlSec.getD e.defaultTtlSec : ℤ)

section Operations

variable (sha256 : String → String) (e : DedupEngine) (now : ℚ) (m : MessageRef)

/-- `is_duplicate`. -/
def isDuplicate : DedupEngine × Bool :=
  let found := e.store.access (m.key sha256) (lookupMark now)
  ({ e with store := found.1 }, found.2.isSome)

/-- `get_record`. -/
def getRecord : DedupEngine × Option DedupRecord :=
  let found := e.store.access (m.key sha256) (lookupMark now)
  ({ e with store := found.1 }, found.2)

/-- `mark_seen`. -/
def markSeen (ttlSec : Option ℤ) : DedupEngine × Bool :=
  ({ e with store := e.store.set (m.key sha256) (m.record sha256, now + e.ttlOr ttlSec) }, true)

/-- `check_and_mark`, with the lifetime it is given. -/
def checkAndMarkFor (ttlSec : Option ℤ) : DedupEngine × Bool :=
  let found := e.store.access (m.key sha256)
    (checkMark now (m.record sha256, now + e.ttlOr ttlSec))
  ({ e with
      store := found.1
      totalChecked := e.totalChecked + 1
      totalDuplicates := if found.2 then e.totalDuplicates else e.totalDuplicates + 1 }, found.2)

/-- `prune_expired`. -/
def pruneExpired : DedupEngine × ℕ :=
  let live := e.store.filter fun p => now < p.2.2
  ({ e with store := live }, e.store.entries.length - live.entries.length)

/-- `clear`. -/
def clear (tenantId : Option Uuid) : DedupEngine :=
  match tenantId with
  | none => { e with store := ∅ }
  | some tenant => { e with store := e.store.filter fun p => p.2.1.tenantId ≠ tenant }

end Operations

/-- One call. -/
def step (sha256 : String → String) (e : DedupEngine) (c : TimedCall) : DedupEngine × DedupAnswer :=
  match c.call with
  | .checkAndMark m ttlSec =>
    let done := e.checkAndMarkFor sha256 c.now m ttlSec
    (done.1, .bool done.2)
  | .isDuplicate m =>
    let done := e.isDuplicate sha256 c.now m
    (done.1, .bool done.2)
  | .getRecord m =>
    let done := e.getRecord sha256 c.now m
    (done.1, .record done.2)
  | .markSeen m ttlSec =>
    let done := e.markSeen sha256 c.now m ttlSec
    (done.1, .bool done.2)
  | .pruneExpired =>
    let done := e.pruneExpired c.now
    (done.1, .count done.2)
  | .clear tenantId => (e.clear tenantId, .none)

/-- Without a lifetime of its own, `check_and_mark` gives the default one. -/
theorem checkAndMarkFor_none (sha256 : String → String) (e : DedupEngine) (now : ℚ)
    (m : MessageRef) : e.checkAndMarkFor sha256 now m none =
      e.checkAndMark sha256 now m.tenantId m.accountId m.providerMessageId := by
  rcases hget : e.store.get? (m.key sha256) with _ | ⟨record, expiry⟩
  · have hmarked : ¬e.Marked now (m.key sha256) := by simp [Marked, hget]
    rw [checkAndMark_of_not_marked hmarked]
    simp [checkAndMarkFor, Dict.access, hget, checkMark]
    rfl
  · by_cases hlive : now < expiry
    · have hmarked : e.Marked now (m.key sha256) := ⟨_, hget, hlive⟩
      rw [checkAndMark_of_marked hmarked]
      simp [checkAndMarkFor, Dict.access, hget, checkMark, hlive, Dict.set_eq_self hget]
    · have hmarked : ¬e.Marked now (m.key sha256) := by simpa [Marked, hget] using hlive
      rw [checkAndMark_of_not_marked hmarked]
      simp [checkAndMarkFor, Dict.access, hget, checkMark, hlive]
      rfl

/-! ## One entry -/

section Entry

variable (sha256 : String → String)

/-- What a call does to the mark under one key: a call about a message with that key
does what it is for, one about another message nothing, and the other two keep it
or delete it. -/
def markAfter (defaultTtlSec : ℤ) (c : TimedCall) (key : String) (mark : Option Mark) :
    Option Mark :=
  match c.call with
  | .checkAndMark m ttlSec =>
    if key = m.key sha256 then
      (checkMark c.now (m.record sha256, c.now + (ttlSec.getD defaultTtlSec : ℤ)) mark).1
    else mark
  | .isDuplicate m | .getRecord m =>
    if key = m.key sha256 then (lookupMark c.now mark).1 else mark
  | .markSeen m ttlSec =>
    if key = m.key sha256 then
      some (m.record sha256, c.now + (ttlSec.getD defaultTtlSec : ℤ))
    else mark
  | .pruneExpired => mark.filter fun p => c.now < p.2
  | .clear none => none
  | .clear (some tenant) => mark.filter fun p => p.1.tenantId ≠ tenant

theorem get?_step (e : DedupEngine) (c : TimedCall) (key : String) :
    (e.step sha256 c).1.store.get? key =
      markAfter sha256 e.defaultTtlSec c key (e.store.get? key) := by
  obtain ⟨now, call⟩ := c
  have haccess : ∀ {ρ : Type} (m : MessageRef) (f : Option Mark → Option Mark × ρ),
      (e.store.access (m.key sha256) f).1.get? key =
        if key = m.key sha256 then (f (e.store.get? key)).1 else e.store.get? key := by
    intro ρ m f
    rw [Dict.get?_access]
    split_ifs with hkey
    · rw [hkey]
    · rfl
  cases call with
  | checkAndMark m ttlSec => exact haccess m _
  | isDuplicate m => exact haccess m _
  | getRecord m => exact haccess m _
  | markSeen m ttlSec => exact Dict.get?_set ..
  | pruneExpired => exact Dict.get?_filter ..
  | clear tenantId =>
    cases tenantId with
    | none => rfl
    | some tenant => exact Dict.get?_filter ..

variable {sha256} in
/-- A call about a message leaves the marks under other keys alone. -/
theorem markAfter_of_ne {defaultTtlSec : ℤ} {c : TimedCall} {m : MessageRef} {key : String}
    (hc : c.call.message? = some m) (hkey : key ≠ m.key sha256) (mark : Option Mark) :
    markAfter sha256 defaultTtlSec c key mark = mark := by
  obtain ⟨now, call⟩ := c
  cases call with
  | checkAndMark m' ttlSec =>
    obtain rfl : m' = m := Option.some.inj hc
    exact if_neg hkey
  | isDuplicate m' =>
    obtain rfl : m' = m := Option.some.inj hc
    exact if_neg hkey
  | getRecord m' =>
    obtain rfl : m' = m := Option.some.inj hc
    exact if_neg hkey
  | markSeen m' ttlSec =>
    obtain rfl : m' = m := Option.some.inj hc
    exact if_neg hkey
  | pruneExpired => cases hc
  | clear tenantId => cases hc

@[simp] theorem defaultTtlSec_step (e : DedupEngine) (c : TimedCall) :
    (e.step sha256 c).1.defaultTtlSec = e.defaultTtlSec := by
  obtain ⟨now, call⟩ := c
  cases call with
  | clear tenantId =>
    cases tenantId with
    | none => rfl
    | some tenant => rfl
  | _ => rfl

/-- The answer to a call about a message is read off the mark under its key. -/
theorem answer_eq_of_mark_eq {e e' : DedupEngine} {c : TimedCall} {m : MessageRef}
    (hc : c.call.message? = some m)
    (hmark : e.store.get? (m.key sha256) = e'.store.get? (m.key sha256))
    (httl : e.defaultTtlSec = e'.defaultTtlSec) :
    (e.step sha256 c).2 = (e'.step sha256 c).2 := by
  obtain ⟨now, call⟩ := c
  cases call with
  | checkAndMark m' ttlSec =>
    obtain rfl : m' = m := Option.some.inj hc
    simp [step, checkAndMarkFor, ttlOr, hmark, httl]
  | isDuplicate m' =>
    obtain rfl : m' = m := Option.some.inj hc
    simp [step, isDuplicate, hmark]
  | getRecord m' =>
    obtain rfl : m' = m := Option.some.inj hc
    simp [step, getRecord, hmark]
  | markSeen m' ttlSec => rfl
  | pruneExpired => cases hc
  | clear tenantId => cases hc

end Entry

/-! ## Admission -/

/-- The seeds that the calls of a run hash. -/
def seeds (calls : List TimedCall) : Set String :=
  { text | ∃ c ∈ calls, ∃ m, c.call.message? = some m ∧ m.seed = text }

section Admission

variable (sha256 : String → String) (defaultTtlSec : ℤ)

/-- **Admitted once.**  Of two calls of `check_and_mark` for one message that both
answer NEW, the second comes when the lifetime given by the first has run out, or
there is a call between them that `excuses` it. -/
def AdmittedOnce (excuses : MessageRef → ℚ → TimedCall → Prop) (calls : List TimedCall) : Prop :=
  ∀ before between after t t' m m' ttlSec ttlSec',
    calls = before ++ ⟨t, .checkAndMark m ttlSec⟩ ::
      (between ++ ⟨t', .checkAndMark m' ttlSec'⟩ :: after) →
    m.ident = m'.ident →
    ((Machine.run (step sha256) (init defaultTtlSec) before).step sha256
      ⟨t, .checkAndMark m ttlSec⟩).2 = .bool true →
    ((Machine.run (step sha256) (init defaultTtlSec)
      (before ++ ⟨t, .checkAndMark m ttlSec⟩ :: between)).step sha256
      ⟨t', .checkAndMark m' ttlSec'⟩).2 = .bool true →
    t + (ttlSec.getD defaultTtlSec : ℤ) ≤ t' ∨ ∃ c ∈ between, excuses m t' c

/-- A `clear` that covers the message's tenant. -/
def Clears (m : MessageRef) (c : TimedCall) : Prop :=
  c.call = .clear none ∨ c.call = .clear (some m.tenantId)

/-- A `mark_seen` of the message whose own lifetime has run out by `t`. -/
def RemarkedUntil (m : MessageRef) (t : ℚ) (c : TimedCall) : Prop :=
  ∃ m' ttlSec, c.call = .markSeen m' ttlSec ∧ m'.ident = m.ident ∧
    c.now + (ttlSec.getD defaultTtlSec : ℤ) ≤ t

/-- **Apart.**  The answers about a message are the same when the calls about all
other messages are left out. -/
def Apart (calls : List TimedCall) : Prop :=
  ∀ i : Uuid × Uuid × String,
    let mine (c : TimedCall) : Bool := c.call.message?.map MessageRef.ident = some i
    let relevant (c : TimedCall) : Bool := mine c ∨ c.call.message? = none
    Machine.answersTo (step sha256) mine (init defaultTtlSec) calls =
      Machine.answersTo (step sha256) mine (init defaultTtlSec) (calls.filter relevant)

theorem key_eq_of_ident_eq {m m' : MessageRef} (h : m.ident = m'.ident) :
    m.key sha256 = m'.key sha256 := by
  obtain ⟨ht, ha, hm⟩ : m.tenantId = m'.tenantId ∧ m.accountId = m'.accountId ∧
      Text.strip m.providerMessageId = Text.strip m'.providerMessageId := by
    simpa [MessageRef.ident] using h
  rw [MessageRef.key, MessageRef.key, ht, ha]
  exact computeDedupKey_congr sha256 _ _ hm

variable {sha256 defaultTtlSec}

/-- Messages of a run with one key are one message. -/
theorem ident_eq_of_key_eq {calls : List TimedCall} (hsha : Set.InjOn sha256 (seeds calls))
    {c c' : TimedCall} {m m' : MessageRef} (hc : c ∈ calls) (hm : c.call.message? = some m)
    (hc' : c' ∈ calls) (hm' : c'.call.message? = some m')
    (hkey : m.key sha256 = m'.key sha256) : m.ident = m'.ident := by
  have hseed : m.seed = m'.seed := hsha ⟨c, hc, m, hm, rfl⟩ ⟨c', hc', m', hm', rfl⟩ hkey
  obtain ⟨ht, ha, hid⟩ := rawSeed_inj hseed
  simp [MessageRef.ident, ht, ha, hid]

theorem apart (calls : List TimedCall) (hsha : Set.InjOn sha256 (seeds calls)) :
    Apart sha256 defaultTtlSec calls := by
  intro i mine relevant
  -- related engines hold the same mark for the message `i`, as far as it occurs in the run
  let R (e e' : DedupEngine) : Prop := e.defaultTtlSec = e'.defaultTtlSec ∧
    ∀ c ∈ calls, ∀ m, c.call.message? = some m → m.ident = i →
      e.store.get? (m.key sha256) = e'.store.get? (m.key sha256)
  have hmine : ∀ c : TimedCall, mine c = true ↔ ∃ m, c.call.message? = some m ∧ m.ident = i := by
    intro c
    simp [mine]
  refine Machine.answersTo_filter (R := R) ?_ ?_ ?_ ?_ ⟨rfl, fun _ _ _ _ _ => rfl⟩
  · intro c _ hc
    simp [relevant, hc]
  · rintro c _ _ e e' ⟨httl, hmark⟩
    refine ⟨by simp [httl], fun c' hc' m hm hi => ?_⟩
    rw [get?_step, get?_step, httl, hmark c' hc' m hm hi]
  · rintro c hc hrel e e' ⟨httl, hmark⟩
    refine ⟨by simp [httl], fun c' hc' m hm hi => ?_⟩
    obtain ⟨m', hm', hne⟩ : ∃ m', c.call.message? = some m' ∧ m'.ident ≠ i := by
      rcases hcm : c.call.message? with _ | m'
      · simp [relevant, hcm] at hrel
      · refine ⟨m', rfl, fun h => hrel ?_⟩
        simp [relevant, (hmine c).2 ⟨m', hcm, h⟩]
    have hkey : m.key sha256 ≠ m'.key sha256 := fun hkey =>
      hne ((ident_eq_of_key_eq hsha hc' hm hc hm' hkey).symm.trans hi)
    rw [get?_step, markAfter_of_ne hm' hkey]
    exact hmark c' hc' m hm hi
  · rintro c hc hc' e e' ⟨httl, hmark⟩
    obtain ⟨m, hm, hi⟩ := (hmine c).1 hc'
    exact answer_eq_of_mark_eq sha256 hm (hmark c hc m hm hi) httl

/-- A mark that outlasts `t`, of the message's tenant. -/
def Outlasts (sha256 : String → String) (m : MessageRef) (t : ℚ) (e : DedupEngine) : Prop :=
  ∃ mark, e.store.get? (m.key sha256) = some mark ∧ t < mark.2 ∧ mark.1.tenantId = m.tenantId

/-- No call up to `t` ends a mark that outlasts `t`, unless it is an excuse. -/
theorem outlasts_step {e : DedupEngine} {c : TimedCall} {m : MessageRef} {t : ℚ}
    (hsame : ∀ m', c.call.message? = some m' → m'.key sha256 = m.key sha256 → m'.ident = m.ident)
    (hnow : c.now ≤ t) (hclear : ¬Clears m c) (hmark : ¬RemarkedUntil e.defaultTtlSec m t c)
    (h : Outlasts sha256 m t e) : Outlasts sha256 m t (e.step sha256 c).1 := by
  obtain ⟨⟨record, expiry⟩, hget, hlt, htenant⟩ := h
  have hlive : c.now < expiry := hnow.trans_lt hlt
  unfold Outlasts
  rw [get?_step, hget]
  obtain ⟨now, call⟩ := c
  cases call with
  | checkAndMark m' ttlSec =>
    refine ⟨(record, expiry), ?_, hlt, htenant⟩
    simp [markAfter, checkMark, hlive]
  | isDuplicate m' =>
    refine ⟨(record, expiry), ?_, hlt, htenant⟩
    simp [markAfter, lookupMark, hlive]
  | getRecord m' =>
    refine ⟨(record, expiry), ?_, hlt, htenant⟩
    simp [markAfter, lookupMark, hlive]
  | markSeen m' ttlSec =>
    by_cases hkey : m.key sha256 = m'.key sha256
    · -- the mark is overwritten by one that outlasts `t` as well
      have hident := hsame m' rfl hkey.symm
      have hlater : t < now + (ttlSec.getD e.defaultTtlSec : ℤ) := by
        by_contra hle
        exact hmark ⟨m', ttlSec, rfl, hident, not_lt.1 hle⟩
      refine ⟨(m'.record sha256, now + (ttlSec.getD e.defaultTtlSec : ℤ)), ?_, hlater, ?_⟩
      · simp only [markAfter, if_pos hkey]
      · exact congrArg Prod.fst hident
    · exact ⟨(record, expiry), by simp only [markAfter, if_neg hkey], hlt, htenant⟩
  | pruneExpired =>
    refine ⟨(record, expiry), ?_, hlt, htenant⟩
    simp [markAfter, hlive]
  | clear tenantId =>
    cases tenantId with
    | none => exact absurd (.inl rfl) hclear
    | some tenant =>
      have hne : record.tenantId ≠ tenant := by
        intro heq
        exact hclear (.inr (by rw [← heq, htenant]))
      refine ⟨(record, expiry), ?_, hlt, htenant⟩
      simp [markAfter, hne]

theorem defaultTtlSec_run (sha256 : String → String) (e : DedupEngine) (calls : List TimedCall) :
    (Machine.run (step sha256) e calls).defaultTtlSec = e.defaultTtlSec := by
  induction calls generalizing e with
  | nil => rfl
  | cons c calls ih => rw [Machine.run_cons, ih, defaultTtlSec_step]

theorem outlasts_run {calls : List TimedCall} {e : DedupEngine} {m : MessageRef} {t : ℚ}
    (hsame : ∀ c ∈ calls, ∀ m', c.call.message? = some m' → m'.key sha256 = m.key sha256 →
      m'.ident = m.ident)
    (hnow : ∀ c ∈ calls, c.now ≤ t)
    (hexcuse : ∀ c ∈ calls, ¬(Clears m c ∨ RemarkedUntil e.defaultTtlSec m t c))
    (h : Outlasts sha256 m t e) : Outlasts sha256 m t (Machine.run (step sha256) e calls) := by
  induction calls generalizing e with
  | nil => exact h
  | cons c calls ih =>
    have hmem : c ∈ c :: calls := List.mem_cons_self ..
    obtain ⟨hclear, hmark⟩ := not_or.1 (hexcuse c hmem)
    refine ih (fun c' hc' => hsame c' (List.mem_cons_of_mem _ hc'))
      (fun c' hc' => hnow c' (List.mem_cons_of_mem _ hc')) ?_
      (outlasts_step (hsame c hmem) (hnow c hmem) hclear hmark h)
    intro c' hc'
    rw [defaultTtlSec_step]
    exact hexcuse c' (List.mem_cons_of_mem _ hc')

/-- After an answer NEW the message is marked, for the lifetime that was given. -/
theorem mark_of_new {e : DedupEngine} {t : ℚ} {m : MessageRef} {ttlSec : Option ℤ}
    (h : (e.step sha256 ⟨t, .checkAndMark m ttlSec⟩).2 = .bool true) :
    (e.step sha256 ⟨t, .checkAndMark m ttlSec⟩).1.store.get? (m.key sha256) =
      some (m.record sha256, t + (ttlSec.getD e.defaultTtlSec : ℤ)) := by
  rw [get?_step]
  simp only [step, checkAndMarkFor, Dict.access_snd, DedupAnswer.bool.injEq] at h
  rcases hget : e.store.get? (m.key sha256) with _ | ⟨record, expiry⟩
  · simp [markAfter, checkMark]
  · rw [hget] at h
    have hdead : ¬t < expiry := by
      intro hlive
      simp [checkMark, hlive] at h
    simp [markAfter, checkMark, hdead]

/-- A message whose mark is alive is not new. -/
theorem not_new_of_outlasts {e : DedupEngine} {t : ℚ} {m m' : MessageRef} {ttlSec : Option ℤ}
    (hident : m.ident = m'.ident) (h : Outlasts sha256 m t e) :
    (e.step sha256 ⟨t, .checkAndMark m' ttlSec⟩).2 ≠ .bool true := by
  obtain ⟨⟨record, expiry⟩, hget, hlt, -⟩ := h
  rw [key_eq_of_ident_eq sha256 hident] at hget
  simp [step, checkAndMarkFor, hget, checkMark, hlt]

theorem admittedOnce (calls : List TimedCall)
    (hsorted : calls.Pairwise fun c c' => c.now ≤ c'.now)
    (hsha : Set.InjOn sha256 (seeds calls)) :
    AdmittedOnce sha256 defaultTtlSec
      (fun m t c => Clears m c ∨ RemarkedUntil defaultTtlSec m t c) calls := by
  rintro before between after t t' m m' ttlSec ttlSec' rfl hident hfirst hsecond
  by_contra hcon
  obtain ⟨hearly, hexcuse⟩ := not_or.1 hcon
  have httl := defaultTtlSec_run sha256 (init defaultTtlSec) before
  have hmark := mark_of_new hfirst
  rw [httl] at hmark
  -- the mark set by the first call outlasts the second, and nothing between ends it
  have houtlasts : Outlasts sha256 m t' ((Machine.run (step sha256) (init defaultTtlSec) before).step
      sha256 ⟨t, .checkAndMark m ttlSec⟩).1 := ⟨_, hmark, not_le.1 hearly, rfl⟩
  have hbetween := (List.pairwise_append.1 (List.pairwise_cons.1
    (List.pairwise_append.1 hsorted).2.1).2).2.2
  have hfirstMem : (⟨t, .checkAndMark m ttlSec⟩ : TimedCall) ∈ before ++
      ⟨t, .checkAndMark m ttlSec⟩ :: (between ++ ⟨t', .checkAndMark m' ttlSec'⟩ :: after) := by simp
  have hrun : Outlasts sha256 m t' (Machine.run (step sha256) (init defaultTtlSec)
      (before ++ ⟨t, .checkAndMark m ttlSec⟩ :: between)) := by
    rw [Machine.run_append, Machine.run_cons]
    refine outlasts_run ?_ ?_ ?_ houtlasts
    · intro c hc m'' hm'' hkey
      exact ident_eq_of_key_eq hsha (by simp [hc]) hm'' hfirstMem rfl hkey
    · intro c hc
      exact hbetween c hc _ (List.mem_cons_self ..)
    · intro c hc hexc
      rw [defaultTtlSec_step, httl] at hexc
      exact hexcuse ⟨c, hc, hexc⟩
  exact not_new_of_outlasts hident hrun hsecond

/-- **Exactly-once admission.**  In every run at nondecreasing times, with a hash that
tells the run's seeds apart: a message is admitted twice only when the first
lifetime has run out, after a `clear` of its tenant, or after a `mark_seen` of it
whose own lifetime has run out; and what is asked about other messages changes no
answer about it. -/
theorem admitted_once_and_apart (calls : List TimedCall)
    (hsorted : calls.Pairwise fun c c' => c.now ≤ c'.now)
    (hsha : Set.InjOn sha256 (seeds calls)) :
    AdmittedOnce sha256 defaultTtlSec
      (fun m t c => Clears m c ∨ RemarkedUntil defaultTtlSec m t c) calls ∧
    Apart sha256 defaultTtlSec calls :=
  ⟨admittedOnce calls hsorted hsha, apart calls hsha⟩

end Admission

/-! ## A message marked again -/

def sampleRef : MessageRef := ⟨.ofNat 1, .ofNat 2, "1"⟩

/-- What SHA-256 makes of the sample's seed, the only one that the sample hashes. -/
def sampleDigest (_ : String) : String :=
  "39e4ebf90322759bc2f32bd7a54eb3e7c5751ec9ebe296e3a26ef2b371ec6dff"

/-- The message is checked, marked again for one second, and checked once more. -/
def sampleCalls : List TimedCall :=
  [⟨0, .checkAndMark sampleRef (some 100)⟩, ⟨1, .markSeen sampleRef (some 1)⟩,
    ⟨3, .checkAndMark sampleRef (some 100)⟩]

theorem seeds_sampleCalls {text : String} (h : text ∈ seeds sampleCalls) :
    text = sampleRef.seed := by
  obtain ⟨c, hc, m, hm, rfl⟩ := h
  simp only [sampleCalls, List.mem_cons, List.not_mem_nil, or_false] at hc
  rcases hc with rfl | rfl | rfl
  · cases hm; rfl
  · cases hm; rfl
  · cases hm; rfl

theorem admitted_once_sampleCalls :
    AdmittedOnce sampleDigest 86400
      (fun m t c => Clears m c ∨ RemarkedUntil 86400 m t c) sampleCalls ∧
    Apart sampleDigest 86400 sampleCalls := by
  refine admitted_once_and_apart sampleCalls (by decide +kernel) ?_
  intro a ha b hb _
  rw [seeds_sampleCalls ha, seeds_sampleCalls hb]

/-- **`mark_seen` ends a lifetime early.**  A message admitted for 100 seconds is marked
again for one; two seconds later it is admitted a second time. -/
theorem mark_seen_readmits :
    ¬AdmittedOnce sampleDigest 86400 (fun m _ c => Clears m c) sampleCalls := by
  intro h
  rcases h [] [⟨1, .markSeen sampleRef (some 1)⟩] [] 0 3 sampleRef sampleRef (some 100)
    (some 100) rfl rfl (by decide +kernel) (by decide +kernel) with hlate | ⟨c, hc, hclear⟩
  · revert hlate
    decide +kernel
  · obtain rfl := List.mem_singleton.1 hc
    rcases hclear with h | h
    · cases h
    · cases h

end DedupEngine
end ScamOn.IngestionGateway
