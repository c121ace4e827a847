import Mathlib.Algebra.Order.Field.Rat
import ScamOn.Lib.Dict
import ScamOn.Lib.Text

/-!
# Deduplication of incoming messages

`IngestionDeduplicationEngine` remembers, for a limited time, which messages it
has been asked about.  `check_and_mark` answers whether a message is new, and
marks it in the same step.

* `rawSeed_inj`: the text that is hashed determines tenant, account and stripped
  message id.
* `checkAndMark_of_marked` and `checkAndMark_of_not_marked` are the two answers.
-/

namespace ScamOn.IngestionGateway

/-- `IngestionDedupRecordDTO`, without its two calendar fields. -/
structure DedupRecord where
  dedupKey : String
  tenantId : Uuid
  accountId : Uuid
  providerMessageId : String
  deriving DecidableEq

/-- `IngestionDeduplicationEngine`. -/
structure DedupEngine where
  defaultTtlSec : ℤ
  store : Dict String (DedupRecord × ℚ)
  totalChecked : ℕ
  totalDuplicates : ℕ

/-- The lifetime of a mark. -/
def DedupEngine.ttl (e : DedupEngine) : ℚ := e.defaultTtlSec

def DedupEngine.init (defaultTtlSec : ℤ) : DedupEngine := ⟨defaultTtlSec, ∅, 0, 0⟩

/-- The text that `compute_dedup_key` hashes. -/
def rawSeed (tenantId accountId : Uuid) (providerMessageId : String) : String :=
  tenantId.str ++ ":" ++ accountId.str ++ ":" ++ Text.strip providerMessageId

/-- `compute_dedup_key`. -/
def computeDedupKey (sha256 : String → String) (tenantId accountId : Uuid)
    (providerMessageId : String) : String :=
  sha256 (rawSeed tenantId accountId providerMessageId)

theorem computeDedupKey_congr (sha256 : String → String) (t a : Uuid) {m m' : String}
    (h : Text.strip m = Text.strip m') :
    computeDedupKey sha256 t a m = computeDedupKey sha256 t a m' := by
  rw [computeDedupKey, computeDedupKey, rawSeed, rawSeed, h]

theorem rawSeed_inj {t t' a a' : Uuid} {m m' : String} (h : rawSeed t a m = rawSeed t' a' m') :
    t = t' ∧ a = a' ∧ Text.strip m = Text.strip m' := by
  have hchars := congrArg String.toList h
  simp only [rawSeed, String.toList_append, Uuid.toList_str, List.append_assoc] at hchars
  obtain ⟨ht, hrest⟩ := Uuid.chars_append_inj hchars
  obtain ⟨ha, hrest⟩ := Uuid.chars_append_inj (List.append_cancel_left hrest)
  exact ⟨ht, ha, String.toList_inj.1 (List.append_cancel_left hrest)⟩

namespace DedupEngine

variable (sha256 : String → String) (e : DedupEngine) (now : ℚ) (tenantId accountId : Uuid)
  (providerMessageId : String)

/-- The message is marked, and the mark has not run out. -/
def Marked (key : String) : Prop := ∃ p ∈ e.store.get? key, now < p.2

instance (key : String) : Decidable (e.Marked now key) :=
  inferInstanceAs (Decidable (∃ p ∈ e.store.get? key, now < p.2))

/-- `check_and_mark`: `true` for a new message. -/
def checkAndMark : DedupEngine × Bool :=
  let key := computeDedupKey sha256 tenantId accountId providerMessageId
  if e.Marked now key then
    ({ e with totalChecked := e.totalChecked + 1, totalDuplicates := e.totalDuplicates + 1 }, false)
  else
    ({ e with
        totalChecked := e.totalChecked + 1
        store := e.store.set key
          (⟨key, tenantId, accountId, Text.strip providerMessageId⟩, now + e.ttl) }, true)

variable {sha256 e now tenantId accountId providerMessageId}

theorem checkAndMark_of_marked
    (h : e.Marked now (computeDedupKey sha256 tenantId accountId providerMessageId)) :
    e.checkAndMark sha256 now tenantId accountId providerMessageId =
      ({ e with totalChecked := e.totalChecked + 1, totalDuplicates := e.totalDuplicates + 1 },
        false) := if_pos h

theorem checkAndMark_of_not_marked
    (h : ¬e.Marked now (computeDedupKey sha256 tenantId accountId providerMessageId)) :
    e.checkAndMark sha256 now tenantId accountId providerMessageId =
      ({ e with
          totalChecked := e.totalChecked + 1
          store := e.store.set (computeDedupKey sha256 tenantId accountId providerMessageId)
            (⟨computeDedupKey sha256 tenantId accountId providerMessageId, tenantId, accountId,
              Text.strip providerMessageId⟩, now + e.ttl) }, true) := if_neg h

end DedupEngine

end ScamOn.IngestionGateway
