import Mathlib.Data.List.Infix
import ScamOn.Lib.Dict
import ScamOn.Lib.Machine
import ScamOn.Lib.Rounding
import ScamOn.Lib.Text

/-!
# The in-memory Redis client

`InMemoryRedisClient` keeps a dictionary from keys to values with an optional
expiry time.  Nothing removes an entry when its time has passed: each operation
looks at the entries it touches and drops the expired ones, or should.

* `step` runs one operation at one instant; the operations are written entry by
  entry, through `Dict.access`.
* `referenceStep` is the store in which expired keys are absent: it removes every
  expired entry first and then runs the same operation.
* `replies_eq_reference_iff` compares the two over whole runs.  `DELETE` and
  `EXPIRE` do not test for expiry at all, and `TTL` drops the fraction of the
  remaining time before it looks at the sign, so the replies agree exactly in the
  runs that keep clear of these three: `HeedsExpiry`.
* `deleted_after_expiry` is the shortest run outside.
-/

namespace ScamOn.Common

/-! ## Data -/

/-- A stored value, `str | bytes`. -/
inductive Value
  | str (s : String)
  | bytes (b : ByteArray)
  deriving DecidableEq

/-- A value with its expiry time. -/
structure Entry where
  value : Value
  expiry : Option ℚ
  deriving DecidableEq

/-- The test `expiry is not None and now > expiry`. -/
def Entry.Expired (now : ℚ) (e : Entry) : Prop := ∃ x ∈ e.expiry, x < now

instance (now : ℚ) (e : Entry) : Decidable (e.Expired now) :=
  inferInstanceAs (Decidable (∃ x ∈ e.expiry, x < now))

/-- `InMemoryRedisClient._store`. -/
abbrev Store := Dict String Entry

/-- What an operation returns or raises. -/
inductive Reply
  | value (v : Option Value)
  | flag (b : Bool)
  | int (n : ℤ)
  | valueError
  | unicodeDecodeError
  deriving DecidableEq

/-- A script argument, `str | int`. -/
inductive ScriptArg
  | str (s : String)
  | int (n : ℤ)
  deriving DecidableEq

/-! ## Operations on an entry -/

def getEntry (now : ℚ) : Option Entry → Option Entry × Reply
  | none => (none, .value none)
  | some e => if e.Expired now then (none, .value none) else (some e, .value (some e.value))

/-- The expiry time that `ex` (seconds) or else `px` (milliseconds) asks for. -/
def expiryTs (now : ℚ) (ex px : Option ℚ) : Option ℚ :=
  match ex, px with
  | some s, _ => some (now + s)
  | none, some ms => some (now + ms / 1000)
  | none, none => none

/-- What `set` finds: a live entry, or nothing (an expired entry is deleted). -/
def liveEntry (now : ℚ) : Option Entry → Option Entry
  | none => none
  | some e => if e.Expired now then none else some e

def setEntry (now : ℚ) (value : Value) (ex px : Option ℚ) (nx xx : Bool) (entry : Option Entry) :
    Option Entry × Reply :=
  let found := liveEntry now entry
  if nx && found.isSome then (found, .flag false)
  else if xx && found.isNone then (found, .flag false)
  else (some ⟨value, expiryTs now ex px⟩, .flag true)

def deleteEntry : Option Entry → Option Entry × ℕ
  | none => (none, 0)
  | some _ => (none, 1)

def ttlEntry (now : ℚ) : Option Entry → Option Entry × Reply
  | none => (none, .int (-2))
  | some e =>
    match e.expiry with
    | none => (some e, .int (-1))
    | some x =>
      let remaining := truncate (x - now)
      if remaining < 0 then (none, .int (-2)) else (some e, .int remaining)

def existsEntry (now : ℚ) : Option Entry → Option Entry × ℕ
  | none => (none, 0)
  | some e => if e.Expired now then (none, 0) else (some e, 1)

/-- `int(val)`. -/
def Value.int? : Value → Option ℤ
  | .str s => Text.intOfStr? s
  | .bytes b => Text.intOfBytes? b

def incrEntry (now : ℚ) (amount : ℤ) (entry : Option Entry) : Option Entry × Reply :=
  let base : Entry := (liveEntry now entry).getD ⟨.str "0", none⟩
  let intVal := match base.value.int? with
    | some n => n + amount
    | none => amount
  match Text.strOfInt? intVal with
  | some text => (some ⟨.str text, base.expiry⟩, .int intVal)
  | none => (entry, .valueError)

def expireEntry (now seconds : ℚ) : Option Entry → Option Entry × Reply
  | none => (none, .flag false)
  | some e => (some { e with expiry := some (now + seconds) }, .flag true)

/-- The release script: delete the key if it holds the expected owner. -/
def releaseEntry (now : ℚ) (expectedOwner : String) : Option Entry → Option Entry × Reply
  | none => (none, .int 0)
  | some e =>
    if e.Expired now then (none, .int 0)
    else
      match e.value with
      | .str s => if s = expectedOwner then (none, .int 1) else (some e, .int 0)
      | .bytes b =>
        match String.fromUTF8? b with
        | some s => if s = expectedOwner then (none, .int 1) else (some e, .int 0)
        | none => (some e, .unicodeDecodeError)

/-! ## Operations on the store -/

/-- A loop over keys that adds up what it finds under each. -/
def countKeys (f : Option Entry → Option Entry × ℕ) : Store → List String → Store × ℕ
  | s, [] => (s, 0)
  | s, k :: ks =>
    let first := s.access k f
    let rest := countKeys f first.1 ks
    (rest.1, first.2 + rest.2)

/-- The two spellings of a lookup by which `eval_script` recognises the script. -/
def looksUp (script : String) : Bool :=
  "redis.call('get'".toList <:+: script.toList ∨ "redis.call(\"get\"".toList <:+: script.toList

/-- `str(args[0]) if args else ""`. -/
def expectedOwner? : List ScriptArg → Option String
  | [] => some ""
  | .str s :: _ => some s
  | .int n :: _ => Text.strOfInt? n

def evalScript (s : Store) (now : ℚ) (script : String) (keys : List String)
    (args : List ScriptArg) : Store × Reply :=
  if looksUp script then
    match keys with
    | [] => (s, .int 0)
    | target :: _ =>
      match expectedOwner? args with
      | some owner => s.access target (releaseEntry now owner)
      | none => (s, .valueError)
  else (s, .int 1)

/-- The operations of the client. -/
inductive Op
  | get (key : String)
  | set (key : String) (value : Value) (ex px : Option ℚ) (nx xx : Bool)
  | delete (keys : List String)
  | ttl (key : String)
  | exists (keys : List String)
  | incr (key : String) (amount : ℤ)
  | expire (key : String) (seconds : ℚ)
  | evalScript (script : String) (keys : List String) (args : List ScriptArg)

/-- An operation and the instant at which it runs. -/
structure TimedOp where
  now : ℚ
  op : Op

/-- One operation of `InMemoryRedisClient`. -/
def step (s : Store) (a : TimedOp) : Store × Reply :=
  match a.op with
  | .get key => s.access key (getEntry a.now)
  | .set key value ex px nx xx => s.access key (setEntry a.now value ex px nx xx)
  | .delete keys => ((countKeys deleteEntry s keys).1, .int (countKeys deleteEntry s keys).2)
  | .ttl key => s.access key (ttlEntry a.now)
  | .exists keys =>
    ((countKeys (existsEntry a.now) s keys).1, .int (countKeys (existsEntry a.now) s keys).2)
  | .incr key amount => s.access key (incrEntry a.now amount)
  | .expire key seconds => s.access key (expireEntry a.now seconds)
  | .evalScript script keys args => evalScript s a.now script keys args

/-- The keys an operation may read or write. -/
def Op.keys : Op → List String
  | .get key | .set key .. | .ttl key | .incr key _ | .expire key _ => [key]
  | .delete keys | .exists keys | .evalScript _ keys _ => keys

theorem get?_countKeys_of_notMem {f : Option Entry → Option Entry × ℕ} {k : String}
    {ks : List String} (h : k ∉ ks) (s : Store) : (countKeys f s ks).1.get? k = s.get? k := by
  induction ks generalizing s with
  | nil => rfl
  | cons k' ks ih =>
    have hne : k ≠ k' := fun heq => h (heq ▸ List.mem_cons_self ..)
    have hrest : k ∉ ks := fun hmem => h (List.mem_cons_of_mem _ hmem)
    exact (ih hrest _).trans (by rw [Dict.get?_access, if_neg hne])

/-- An operation leaves every other key alone. -/
theorem get?_step_of_notMem {a : TimedOp} {k : String} (h : k ∉ a.op.keys) (s : Store) :
    (step s a).1.get? k = s.get? k := by
  obtain ⟨now, op⟩ := a
  cases op with
  | get key | set key value ex px nx xx | ttl key | incr key amount | expire key seconds =>
    have hne : k ≠ key := fun heq => h (heq ▸ List.mem_cons_self ..)
    exact (Dict.get?_access ..).trans (if_neg hne)
  | delete keys | «exists» keys => exact get?_countKeys_of_notMem h s
  | evalScript script keys args =>
    simp only [step, evalScript]
    split
    · cases keys with
      | nil => rfl
      | cons target rest =>
        cases expectedOwner? args with
        | none => rfl
        | some owner =>
          have hne : k ≠ target := fun heq => h (heq ▸ List.mem_cons_self ..)
          exact (Dict.get?_access ..).trans (if_neg hne)
    · rfl

/-- The store without its expired entries. -/
def purge (now : ℚ) (s : Store) : Store := s.filter fun p => ¬p.2.Expired now

/-- The reference: expired keys are absent before the operation runs. -/
def referenceStep (s : Store) (a : TimedOp) : Store × Reply := step (purge a.now s) a

/-! ## Stale entries -/

/-- An entry that is stored although its time has passed. -/
def Stale (now : ℚ) (entry : Option Entry) : Prop := ∃ e ∈ entry, e.Expired now

instance (now : ℚ) (entry : Option Entry) : Decidable (Stale now entry) :=
  inferInstanceAs (Decidable (∃ e ∈ entry, e.Expired now))

theorem liveEntry_of_stale {now : ℚ} {entry : Option Entry} (h : Stale now entry) :
    liveEntry now entry = none := by
  obtain ⟨e, rfl, he⟩ := h
  exact if_pos he

theorem liveEntry_of_not_stale {now : ℚ} {entry : Option Entry} (h : ¬Stale now entry) :
    liveEntry now entry = entry := by
  cases entry with
  | none => rfl
  | some e => exact if_neg fun he => h ⟨e, rfl, he⟩

theorem liveEntry_idem (now : ℚ) (entry : Option Entry) :
    liveEntry now (liveEntry now entry) = liveEntry now entry := by
  by_cases h : Stale now entry
  · rw [liveEntry_of_stale h]
    rfl
  · rw [liveEntry_of_not_stale h, liveEntry_of_not_stale h]

/-- What is live later is live now. -/
theorem liveEntry_liveEntry_of_le {now later : ℚ} (h : now ≤ later) (entry : Option Entry) :
    liveEntry later (liveEntry now entry) = liveEntry later entry := by
  by_cases hstale : Stale now entry
  · have hlater : Stale later entry := by
      obtain ⟨e, he, x, hx, hlt⟩ := hstale
      exact ⟨e, he, x, hx, hlt.trans_le h⟩
    rw [liveEntry_of_stale hstale, liveEntry_of_stale hlater]
    rfl
  · rw [liveEntry_of_not_stale hstale]

theorem get?_purge (now : ℚ) (s : Store) (k : String) :
    (purge now s).get? k = liveEntry now (s.get? k) := by
  rw [purge, Dict.get?_filter]
  cases s.get? k with
  | none => rfl
  | some e =>
    by_cases he : e.Expired now
    · simp [Option.filter, liveEntry, he]
    · simp [Option.filter, liveEntry, he]

/-- Two stores with the same live entries. -/
def SameLive (now : ℚ) (s r : Store) : Prop :=
  ∀ k, liveEntry now (s.get? k) = liveEntry now (r.get? k)

/-- `r` holds the live entries of `s` and nothing else. -/
def LivePart (now : ℚ) (s r : Store) : Prop := ∀ k, r.get? k = liveEntry now (s.get? k)

theorem SameLive.mono {now later : ℚ} {s r : Store} (h : SameLive now s r) (hle : now ≤ later) :
    SameLive later s r := by
  intro k
  rw [← liveEntry_liveEntry_of_le hle (s.get? k), h k, liveEntry_liveEntry_of_le hle]

theorem SameLive.livePart_purge {now : ℚ} {s r : Store} (h : SameLive now s r) :
    LivePart now s (purge now r) := by
  intro k
  rw [get?_purge, h k]

theorem LivePart.sameLive {now : ℚ} {s r : Store} (h : LivePart now s r) : SameLive now s r := by
  intro k
  rw [h k, liveEntry_idem]

/-! ## Operations that see a stale entry as absent -/

section Access

variable {β : Type*} {now : ℚ} {s r : Store} {key : String} {f : Option Entry → Option Entry × β}

/-- An operation on one entry keeps the stores in step if it leaves of a stale
entry what it leaves of none. -/
theorem sameLive_access (h : LivePart now s r)
    (hf : ∀ e, s.get? key = some e → e.Expired now →
      liveEntry now (f (some e)).1 = liveEntry now (f none).1) :
    SameLive now (s.access key f).1 (r.access key f).1 := by
  intro k
  rw [Dict.get?_access, Dict.get?_access]
  split_ifs with hk
  · rw [h key]
    by_cases hstale : Stale now (s.get? key)
    · obtain ⟨e, he, hexpired⟩ := hstale
      rw [liveEntry_of_stale ⟨e, he, hexpired⟩, he]
      exact hf e he hexpired
    · rw [liveEntry_of_not_stale hstale]
  · exact h.sameLive k

/-- The replies agree if a stale entry is answered as none. -/
theorem access_reply_eq_iff {C : Prop} (h : LivePart now s r)
    (hf : ∀ e, s.get? key = some e → e.Expired now → ((f (some e)).2 = (f none).2 ↔ C))
    (hC : ¬Stale now (s.get? key) → C) :
    (s.access key f).2 = (r.access key f).2 ↔ C := by
  rw [Dict.access_snd, Dict.access_snd, h key]
  by_cases hstale : Stale now (s.get? key)
  · obtain ⟨e, he, hexpired⟩ := hstale
    rw [liveEntry_of_stale ⟨e, he, hexpired⟩, he]
    exact hf e he hexpired
  · rw [liveEntry_of_not_stale hstale]
    exact iff_of_true rfl (hC hstale)

/-- An operation that treats a stale entry as none is right without condition. -/
theorem access_sound (h : LivePart now s r)
    (hf : ∀ e, e.Expired now → (f (some e)).2 = (f none).2 ∧
      liveEntry now (f (some e)).1 = liveEntry now (f none).1) :
    ((s.access key f).2 = (r.access key f).2 ↔ True) ∧
      (True → SameLive now (s.access key f).1 (r.access key f).1) := by
  constructor
  · exact access_reply_eq_iff h (fun e _ he => iff_of_true (hf e he).1 trivial) fun _ => trivial
  · intro _
    exact sameLive_access h fun e _ he => (hf e he).2

end Access

theorem getEntry_expired {now : ℚ} {e : Entry} (h : e.Expired now) :
    getEntry now (some e) = getEntry now none := if_pos h

theorem setEntry_expired {now : ℚ} {e : Entry} (h : e.Expired now) (value : Value)
    (ex px : Option ℚ) (nx xx : Bool) :
    setEntry now value ex px nx xx (some e) = setEntry now value ex px nx xx none := by
  unfold setEntry
  rw [liveEntry_of_stale ⟨e, rfl, h⟩]
  rfl

theorem existsEntry_expired {now : ℚ} {e : Entry} (h : e.Expired now) :
    existsEntry now (some e) = existsEntry now none := if_pos h

theorem releaseEntry_expired {now : ℚ} {e : Entry} (h : e.Expired now) (owner : String) :
    releaseEntry now owner (some e) = releaseEntry now owner none := if_pos h

/-- An increment that fails to write its text leaves the stale entry where it is. -/
theorem incrEntry_expired {now : ℚ} {e : Entry} (h : e.Expired now) (amount : ℤ) :
    (incrEntry now amount (some e)).2 = (incrEntry now amount none).2 ∧
      liveEntry now (incrEntry now amount (some e)).1 =
        liveEntry now (incrEntry now amount none).1 := by
  have hlive : liveEntry now (some e) = none := if_pos h
  unfold incrEntry
  rw [hlive]
  simp only [liveEntry, Option.getD_none]
  split
  · exact ⟨rfl, rfl⟩
  · exact ⟨rfl, hlive⟩

/-- The remaining time of an expired entry is dropped to `0` unless a whole
second has passed. -/
theorem ttlEntry_expired {now x : ℚ} {e : Entry} (hx : e.expiry = some x) :
    ttlEntry now (some e) =
      if x ≤ now - 1 then (none, .int (-2)) else (some e, .int (truncate (x - now))) := by
  unfold ttlEntry
  simp only [hx]
  have hiff : truncate (x - now) < 0 ↔ x ≤ now - 1 := by
    rw [truncate_neg_iff]
    constructor
    · intro h
      linarith
    · intro h
      linarith
  by_cases h : x ≤ now - 1
  · rw [if_pos (hiff.2 h), if_pos h]
  · rw [if_neg (mt hiff.1 h), if_neg h]

/-! ## Loops over keys -/

section CountKeys

variable {now : ℚ} {s r : Store} {f : Option Entry → Option Entry × ℕ}

theorem countKeys_cons_snd (k : String) (ks : List String) :
    (countKeys f s (k :: ks)).2 = (f (s.get? k)).2 + (countKeys f (s.access k f).1 ks).2 := by
  show (s.access k f).2 + _ = _
  rw [Dict.access_snd]

/-- An operation on one entry that works on live parts keeps them live parts. -/
theorem livePart_access (hf : ∀ entry, (f (liveEntry now entry)).1 = liveEntry now (f entry).1)
    (k : String) (h : LivePart now s r) : LivePart now (s.access k f).1 (r.access k f).1 := by
  intro k'
  rw [Dict.get?_access, Dict.get?_access]
  split_ifs
  · rw [h k, hf]
  · exact h k'

theorem livePart_countKeys (hf : ∀ entry, (f (liveEntry now entry)).1 = liveEntry now (f entry).1)
    (ks : List String) (h : LivePart now s r) :
    LivePart now (countKeys f s ks).1 (countKeys f r ks).1 := by
  induction ks generalizing s r with
  | nil => exact h
  | cons k ks ih => exact ih (livePart_access hf k h)

theorem existsEntry_live (now : ℚ) (entry : Option Entry) :
    (existsEntry now (liveEntry now entry)).2 = (existsEntry now entry).2 ∧
      (existsEntry now (liveEntry now entry)).1 = liveEntry now (existsEntry now entry).1 := by
  by_cases hstale : Stale now entry
  · rw [liveEntry_of_stale hstale]
    obtain ⟨e, rfl, he⟩ := hstale
    rw [existsEntry_expired he]
    exact ⟨rfl, rfl⟩
  · rw [liveEntry_of_not_stale hstale]
    refine ⟨rfl, ?_⟩
    cases entry with
    | none => rfl
    | some e =>
      have he : ¬e.Expired now := fun he => hstale ⟨e, rfl, he⟩
      simp [existsEntry, liveEntry, he]

theorem exists_count (ks : List String) (h : LivePart now s r) :
    (countKeys (existsEntry now) s ks).2 = (countKeys (existsEntry now) r ks).2 := by
  induction ks generalizing s r with
  | nil => rfl
  | cons k ks ih =>
    have hrest := ih (livePart_access (fun entry => (existsEntry_live now entry).2) k h)
    rw [countKeys_cons_snd, countKeys_cons_snd, hrest, h k, (existsEntry_live now _).1]

@[simp] theorem deleteEntry_fst (entry : Option Entry) : (deleteEntry entry).1 = none := by
  cases entry with
  | none => rfl
  | some e => rfl

theorem deleteEntry_live (now : ℚ) (entry : Option Entry) :
    (deleteEntry (liveEntry now entry)).1 = liveEntry now (deleteEntry entry).1 := by
  rw [deleteEntry_fst, deleteEntry_fst]
  rfl

/-- Deleting one key counts it if it is stored, stale or not. -/
theorem deleteEntry_count (now : ℚ) (entry : Option Entry) :
    (deleteEntry (liveEntry now entry)).2 ≤ (deleteEntry entry).2 ∧
      ((deleteEntry entry).2 = (deleteEntry (liveEntry now entry)).2 ↔ ¬Stale now entry) := by
  by_cases hstale : Stale now entry
  · rw [liveEntry_of_stale hstale]
    refine ⟨Nat.zero_le _, iff_of_false ?_ (not_not.2 hstale)⟩
    obtain ⟨e, rfl, -⟩ := hstale
    exact Nat.one_ne_zero
  · rw [liveEntry_of_not_stale hstale]
    exact ⟨le_refl _, iff_of_true rfl hstale⟩

/-- After a key is deleted, the keys still to come are as stale as before. -/
theorem forall_not_stale_access (k : String) (ks : List String) :
    (¬Stale now (s.get? k) ∧ ∀ k' ∈ ks, ¬Stale now ((s.access k deleteEntry).1.get? k')) ↔
      ∀ k' ∈ k :: ks, ¬Stale now (s.get? k') := by
  simp only [Dict.get?_access, deleteEntry_fst, List.forall_mem_cons]
  refine and_congr_right fun hk => forall₂_congr fun k' _ => ?_
  by_cases heq : k' = k
  · rw [if_pos heq, heq]
    refine iff_of_true ?_ hk
    rintro ⟨e, he, -⟩
    cases he
  · rw [if_neg heq]

/-- Deleting counts at least the live keys, and more if a stale one is among them. -/
theorem delete_count (ks : List String) (h : LivePart now s r) :
    (countKeys deleteEntry r ks).2 ≤ (countKeys deleteEntry s ks).2 ∧
      ((countKeys deleteEntry s ks).2 = (countKeys deleteEntry r ks).2 ↔
        ∀ k ∈ ks, ¬Stale now (s.get? k)) := by
  induction ks generalizing s r with
  | nil => simp [countKeys]
  | cons k ks ih =>
    obtain ⟨hle, hiff⟩ := ih (livePart_access (deleteEntry_live now) k h)
    obtain ⟨hone, hone_iff⟩ := deleteEntry_count now (s.get? k)
    rw [← h k] at hone hone_iff
    rw [countKeys_cons_snd, countKeys_cons_snd, ← forall_not_stale_access, ← hiff, ← hone_iff]
    constructor
    · omega
    · omega

end CountKeys

/-! ## Whole runs -/

/-- The operation does not come across a stale entry where the client fails to
test for one: `DELETE` and `EXPIRE` on a stale key, and `TTL` on a key whose
time passed less than a second ago. -/
def HeedsExpiry (s : Store) (a : TimedOp) : Prop :=
  match a.op with
  | .delete keys => ∀ k ∈ keys, ¬Stale a.now (s.get? k)
  | .expire key _ => ¬Stale a.now (s.get? key)
  | .ttl key => ¬∃ e ∈ s.get? key, ∃ x ∈ e.expiry, a.now - 1 < x ∧ x < a.now
  | _ => True

instance (s : Store) : ∀ a, Decidable (HeedsExpiry s a)
  | ⟨now, .delete keys⟩ => inferInstanceAs (Decidable (∀ k ∈ keys, ¬Stale now (s.get? k)))
  | ⟨now, .expire key _⟩ => inferInstanceAs (Decidable (¬Stale now (s.get? key)))
  | ⟨now, .ttl key⟩ =>
    inferInstanceAs (Decidable (¬∃ e ∈ s.get? key, ∃ x ∈ e.expiry, now - 1 < x ∧ x < now))
  | ⟨_, .get ..⟩ | ⟨_, .set ..⟩ | ⟨_, .exists ..⟩ | ⟨_, .incr ..⟩ | ⟨_, .evalScript ..⟩ =>
    isTrue trivial

theorem ttl_sound {now : ℚ} {s r : Store} (h : LivePart now s r) (key : String) :
    ((s.access key (ttlEntry now)).2 = (r.access key (ttlEntry now)).2 ↔
      ¬∃ e ∈ s.get? key, ∃ x ∈ e.expiry, now - 1 < x ∧ x < now) ∧
    ((¬∃ e ∈ s.get? key, ∃ x ∈ e.expiry, now - 1 < x ∧ x < now) →
      SameLive now (s.access key (ttlEntry now)).1 (r.access key (ttlEntry now)).1) := by
  constructor
  · refine access_reply_eq_iff h (fun e he hexpired => ?_) fun hlive => ?_
    · obtain ⟨x, hx, hlt⟩ := hexpired
      rw [ttlEntry_expired hx, he]
      by_cases hlong : x ≤ now - 1
      · rw [if_pos hlong]
        refine iff_of_true rfl ?_
        rintro ⟨e', he', x', hx', hrecent, -⟩
        obtain rfl := Option.mem_some_iff.1 he'
        obtain rfl := Option.mem_unique hx hx'
        linarith
      · rw [if_neg hlong]
        refine iff_of_false ?_ (not_not.2 ⟨e, rfl, x, hx, not_le.1 hlong, hlt⟩)
        have hnonneg : 0 ≤ truncate (x - now) := by
          by_contra hneg
          have := truncate_neg_iff.1 (not_le.1 hneg)
          exact hlong (by linarith)
        intro heq
        have hminus : truncate (x - now) = -2 := Reply.int.inj heq
        omega
    · rintro ⟨e, he, x, hx, -, hlt⟩
      exact hlive ⟨e, he, x, hx, hlt⟩
  · intro hnone
    refine sameLive_access h fun e he hexpired => ?_
    obtain ⟨x, hx, hlt⟩ := hexpired
    have hlong : x ≤ now - 1 := by
      by_contra hrecent
      exact hnone ⟨e, he, x, hx, not_le.1 hrecent, hlt⟩
    rw [ttlEntry_expired hx, if_pos hlong]
    rfl

theorem delete_sound {now : ℚ} {s r : Store} (h : LivePart now s r) (ks : List String) :
    (Reply.int (countKeys deleteEntry s ks).2 = .int (countKeys deleteEntry r ks).2 ↔
      ∀ k ∈ ks, ¬Stale now (s.get? k)) ∧
    SameLive now (countKeys deleteEntry s ks).1 (countKeys deleteEntry r ks).1 := by
  rw [Reply.int.injEq, Int.natCast_inj]
  exact ⟨(delete_count ks h).2, (livePart_countKeys (deleteEntry_live now) ks h).sameLive⟩

theorem expire_sound {now : ℚ} {s r : Store} (h : LivePart now s r) (key : String) (seconds : ℚ) :
    ((s.access key (expireEntry now seconds)).2 = (r.access key (expireEntry now seconds)).2 ↔
      ¬Stale now (s.get? key)) ∧
    (¬Stale now (s.get? key) →
      SameLive now (s.access key (expireEntry now seconds)).1
        (r.access key (expireEntry now seconds)).1) := by
  constructor
  · refine access_reply_eq_iff h (fun e he hexpired => ?_) id
    refine iff_of_false ?_ (not_not.2 ⟨e, he, hexpired⟩)
    intro heq
    cases heq
  · intro hlive
    refine sameLive_access h fun e he hexpired => ?_
    exact absurd ⟨e, he, hexpired⟩ hlive

/-- **One operation.**  Run on a store and on its live part, an operation gives
the same reply exactly when it heeds expiry, and then keeps the two in step. -/
theorem step_livePart {s r : Store} {a : TimedOp} (h : LivePart a.now s r) :
    ((step s a).2 = (step r a).2 ↔ HeedsExpiry s a) ∧
      (HeedsExpiry s a → SameLive a.now (step s a).1 (step r a).1) := by
  obtain ⟨now, op⟩ := a
  cases op with
  | get key =>
    refine access_sound h fun e he => ?_
    rw [getEntry_expired he]
    exact ⟨rfl, rfl⟩
  | set key value ex px nx xx =>
    refine access_sound h fun e he => ?_
    rw [setEntry_expired he]
    exact ⟨rfl, rfl⟩
  | delete keys => exact ⟨(delete_sound h keys).1, fun _ => (delete_sound h keys).2⟩
  | ttl key => exact ttl_sound h key
  | «exists» keys =>
    refine ⟨iff_of_true ?_ trivial, fun _ => ?_⟩
    · show Reply.int _ = Reply.int _
      rw [exists_count keys h]
    · exact (livePart_countKeys (fun entry => (existsEntry_live now entry).2) keys h).sameLive
  | incr key amount => exact access_sound h fun e he => incrEntry_expired he amount
  | expire key seconds => exact expire_sound h key seconds
  | evalScript script keys args =>
    simp only [step, HeedsExpiry, evalScript]
    split
    · cases keys with
      | nil => exact ⟨iff_of_true rfl trivial, fun _ => h.sameLive⟩
      | cons target rest =>
        cases expectedOwner? args with
        | none => exact ⟨iff_of_true rfl trivial, fun _ => h.sameLive⟩
        | some owner =>
          refine access_sound h fun e he => ?_
          rw [releaseEntry_expired he]
          exact ⟨rfl, rfl⟩
    · exact ⟨iff_of_true rfl trivial, fun _ => h.sameLive⟩

/-- **Expired keys are absent, where the client looks.**  For every sequence of
operations at nondecreasing times on a fresh client, all replies are those of
the reference store exactly when every operation heeds expiry. -/
theorem replies_eq_reference_iff (ops : List TimedOp)
    (hsorted : ops.Pairwise fun a b => a.now ≤ b.now) :
    Machine.outputs step ∅ ops = Machine.outputs referenceStep ∅ ops ↔
      Machine.Always step HeedsExpiry ∅ ops := by
  refine Machine.outputs_eq_iff_of_timed_sim (R := SameLive)
    (fun _ _ _ _ h hle => h.mono hle) (fun s r a h hheeds => ?_) (fun s r a h => ?_)
    (fun a _ k => rfl) hsorted
  · exact (step_livePart h.livePart_purge).2 hheeds
  · exact (step_livePart h.livePart_purge).1

/-- A key that expires, is read, and is written again. -/
theorem replies_eq_reference_sample :
    Machine.outputs step ∅
        [⟨0, .set "k" (.str "v") (some 1) none true false⟩, ⟨1, .ttl "k"⟩, ⟨2, .get "k"⟩,
          ⟨2, .set "k" (.str "w") none (some 1500) true false⟩, ⟨3, .delete ["k", "k"]⟩] =
      Machine.outputs referenceStep ∅
        [⟨0, .set "k" (.str "v") (some 1) none true false⟩, ⟨1, .ttl "k"⟩, ⟨2, .get "k"⟩,
          ⟨2, .set "k" (.str "w") none (some 1500) true false⟩, ⟨3, .delete ["k", "k"]⟩] :=
  (replies_eq_reference_iff _ (by decide +kernel)).2 (by decide +kernel)

/-- A key deleted two seconds after it expired counts as removed. -/
theorem deleted_after_expiry :
    [(⟨0, .set "k" (.str "v") (some 1) none false false⟩ : TimedOp), ⟨3, .delete ["k"]⟩].Pairwise
        (fun a b => a.now ≤ b.now) ∧
      Machine.outputs step ∅
          [⟨0, .set "k" (.str "v") (some 1) none false false⟩, ⟨3, .delete ["k"]⟩] =
        [.flag true, .int 1] ∧
      Machine.outputs referenceStep ∅
          [⟨0, .set "k" (.str "v") (some 1) none false false⟩, ⟨3, .delete ["k"]⟩] =
        [.flag true, .int 0] := by
  refine ⟨?_, ?_, ?_⟩
  · decide +kernel
  · decide +kernel
  · decide +kernel

end ScamOn.Common
