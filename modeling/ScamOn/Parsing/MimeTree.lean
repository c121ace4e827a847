import Mathlib.Data.List.Basic
import Mathlib.Data.List.Infix
import Mathlib.Order.Nat
import ScamOn.Lib.Chars

/-!
# The MIME tree

`walk_mime_tree` collects the parts of a message: the texts of its plain and HTML parts, and
its attachments.

* `leaves` lists the parts that are no containers in document order, each with its depth.
* `walkMimeTree_eq` is the walk as one pass over these leaves: what lies too deep is left out,
  and `collect` takes what it knows.
* `placement_walkMimeTree`: each leaf that is inspected is placed in exactly one of the three
  lists, in document order and once; every other leaf is placed in none.
-/

namespace ScamOn.Parsing

/-! ## Messages -/

/-- A part of a message that is no container, as far as the parser reads it: `payload` is
`get_payload(decode=True)` if that gives bytes. -/
structure MimePart where
  contentType : Str
  disposition : Option Str := none
  filename : Option Str := none
  contentId : Option Str := none
  charset : Option Str := none
  payload : Option (List UInt8) := none
  deriving DecidableEq

/-- `Message`. -/
inductive MimeTree
  | leaf (part : MimePart)
  | multipart (parts : List MimeTree)

/-- `MAX_RECURSION_DEPTH`. -/
def maxRecursionDepth : ℕ := 20

/-- `MimePartContent`. -/
structure MimePartContent where
  plainParts : List Str := []
  htmlParts : List Str := []
  attachmentsRaw : List MimePart := []
  deriving DecidableEq

/-- What the walk uses besides its own code: `str.lower`, `bytes.decode` with replacement for a
declared character set, `bytes.decode` for UTF-8, and the best match of `charset_normalizer`. -/
structure Codecs where
  lower : Str → Str
  replace : Str → List UInt8 → Option Str
  utf8 : List UInt8 → Option Str
  best : List UInt8 → Option Str

/-! ## The walk -/

section Walk

variable (codecs : Codecs)

/-- `decode_bytes_to_utf8`. -/
def decodeBytesToUtf8 (data : List UInt8) (declaredCharset : Option Str) : Str :=
  if data = [] then []
  else
    let declared := declaredCharset.bind fun charset =>
      if charset = [] then none else codecs.replace charset data
    ((declared.or (codecs.utf8 data)).or (codecs.best data)).getD
      (data.map fun byte => Char.ofNat byte.toNat)

/-- `"attachment" in disposition or msg.get_filename()`. -/
def isAttachment (part : MimePart) : Bool :=
  decide ("attachment".toList <:+: codecs.lower (part.disposition.getD [])) ||
    decide (part.filename.getD [] ≠ [])

/-- `msg.get_content_type().lower()`. -/
def contentType (part : MimePart) : Str := codecs.lower part.contentType

/-- The text of a part. -/
def partText (part : MimePart) (payload : List UInt8) : Str :=
  decodeBytesToUtf8 codecs payload part.charset

/-- What the walk does with a part that is no container. -/
def collect (part : MimePart) (collector : MimePartContent) : MimePartContent :=
  if isAttachment codecs part then
    { collector with attachmentsRaw := collector.attachmentsRaw ++ [part] }
  else if contentType codecs part = "text/plain".toList then
    match part.payload with
    | some payload =>
      { collector with plainParts := collector.plainParts ++ [partText codecs part payload] }
    | none => collector
  else if contentType codecs part = "text/html".toList then
    match part.payload with
    | some payload =>
      { collector with htmlParts := collector.htmlParts ++ [partText codecs part payload] }
    | none => collector
  else if "image/".toList <:+: contentType codecs part ∨
      "application/".toList <:+: contentType codecs part then
    { collector with attachmentsRaw := collector.attachmentsRaw ++ [part] }
  else collector

mutual

/-- `walk_mime_tree`. -/
def walkMimeTree : MimeTree → ℕ → MimePartContent → MimePartContent
  | .leaf part, depth, collector =>
    if maxRecursionDepth < depth then collector else collect codecs part collector
  | .multipart parts, depth, collector =>
    if maxRecursionDepth < depth then collector else walkParts parts (depth + 1) collector

/-- The loop over the parts of a container. -/
def walkParts : List MimeTree → ℕ → MimePartContent → MimePartContent
  | [], _, collector => collector
  | part :: parts, depth, collector =>
    walkParts parts depth (walkMimeTree part depth collector)

end

end Walk

/-! ## Leaves -/

/-- A leaf, with its depth. -/
abbrev Leaf : Type := ℕ × MimePart

mutual

/-- The leaves of a tree in document order, for a root at some depth. -/
def leavesFrom : ℕ → MimeTree → List Leaf
  | depth, .leaf part => [(depth, part)]
  | depth, .multipart parts => leavesOfParts (depth + 1) parts

def leavesOfParts : ℕ → List MimeTree → List Leaf
  | _, [] => []
  | depth, part :: parts => leavesFrom depth part ++ leavesOfParts depth parts

end

/-- The leaves of a message in document order. -/
def leaves (msg : MimeTree) : List Leaf := leavesFrom 0 msg

mutual

/-- A leaf lies at least as deep as the root. -/
theorem le_of_mem_leavesFrom :
    ∀ (depth : ℕ) (msg : MimeTree), ∀ leaf ∈ leavesFrom depth msg, depth ≤ leaf.1
  | depth, .leaf part, leaf, h => by
    rw [leavesFrom, List.mem_singleton] at h
    exact (congrArg Prod.fst h).ge
  | depth, .multipart parts, leaf, h => by
    rw [leavesFrom] at h
    exact Nat.le_of_succ_le (le_of_mem_leavesOfParts (depth + 1) parts leaf h)

theorem le_of_mem_leavesOfParts :
    ∀ (depth : ℕ) (parts : List MimeTree), ∀ leaf ∈ leavesOfParts depth parts, depth ≤ leaf.1
  | depth, [], leaf, h => by
    rw [leavesOfParts] at h
    exact absurd h List.not_mem_nil
  | depth, part :: parts, leaf, h => by
    rw [leavesOfParts, List.mem_append] at h
    rcases h with h | h
    · exact le_of_mem_leavesFrom depth part leaf h
    · exact le_of_mem_leavesOfParts depth parts leaf h

end

/-- The leaf lies within the limit of the recursion. -/
def withinDepth (leaf : Leaf) : Bool := leaf.1 ≤ maxRecursionDepth

section Pass

variable (codecs : Codecs)

/-- One pass over leaves. -/
def collectAll (collector : MimePartContent) (found : List Leaf) : MimePartContent :=
  (found.filter withinDepth).foldl (fun collector leaf => collect codecs leaf.2 collector) collector

variable {codecs}

theorem collectAll_append (collector : MimePartContent) (found found' : List Leaf) :
    collectAll codecs collector (found ++ found') =
      collectAll codecs (collectAll codecs collector found) found' := by
  rw [collectAll, List.filter_append, List.foldl_append]
  rfl

/-- Below the limit nothing is collected. -/
theorem collectAll_of_deep {found : List Leaf} {depth : ℕ} (hdepth : maxRecursionDepth < depth)
    (hfound : ∀ leaf ∈ found, depth ≤ leaf.1) (collector : MimePartContent) :
    collectAll codecs collector found = collector := by
  have hnone : found.filter withinDepth = [] := by
    refine List.filter_eq_nil_iff.2 fun leaf hleaf => ?_
    rw [withinDepth, decide_eq_true_eq, not_le]
    exact hdepth.trans_le (hfound leaf hleaf)
  rw [collectAll, hnone, List.foldl_nil]

mutual

/-- **The walk** is one pass over the leaves. -/
theorem walkMimeTree_eq : ∀ (msg : MimeTree) (depth : ℕ) (collector : MimePartContent),
    walkMimeTree codecs msg depth collector = collectAll codecs collector (leavesFrom depth msg)
  | .leaf part, depth, collector => by
    rw [walkMimeTree, leavesFrom]
    by_cases hdepth : maxRecursionDepth < depth
    · rw [if_pos hdepth, collectAll_of_deep hdepth (by simp)]
    · have hwithin : withinDepth (depth, part) = true := decide_eq_true (not_lt.1 hdepth)
      rw [if_neg hdepth, collectAll, List.filter_cons_of_pos hwithin, List.filter_nil,
        List.foldl_cons, List.foldl_nil]
  | .multipart parts, depth, collector => by
    rw [walkMimeTree, leavesFrom]
    by_cases hdepth : maxRecursionDepth < depth
    · rw [if_pos hdepth, collectAll_of_deep (Nat.lt_succ_of_lt hdepth)
        (le_of_mem_leavesOfParts (depth + 1) parts)]
    · rw [if_neg hdepth, walkParts_eq parts (depth + 1) collector]

theorem walkParts_eq : ∀ (parts : List MimeTree) (depth : ℕ) (collector : MimePartContent),
    walkParts codecs parts depth collector =
      collectAll codecs collector (leavesOfParts depth parts)
  | [], depth, collector => by
    rw [walkParts, leavesOfParts]
    rfl
  | part :: parts, depth, collector => by
    rw [walkParts, leavesOfParts, collectAll_append, walkMimeTree_eq part depth collector,
      walkParts_eq parts depth]

end

end Pass

/-! ## Placement -/

/-- The three lists. -/
inductive Slot
  | plain | html | attachment
  deriving DecidableEq

section Placement

variable (codecs : Codecs)

/-- The list that takes a part, if any does. -/
def slotOf (part : MimePart) : Option Slot :=
  if isAttachment codecs part then some .attachment
  else if contentType codecs part = "text/plain".toList then part.payload.map fun _ => .plain
  else if contentType codecs part = "text/html".toList then part.payload.map fun _ => .html
  else if "image/".toList <:+: contentType codecs part ∨
      "application/".toList <:+: contentType codecs part then some .attachment
  else none

/-- The part is an attachment, a text that is plain or HTML, an image, or an application. -/
def KnownKind (part : MimePart) : Prop :=
  isAttachment codecs part = true ∨ contentType codecs part = "text/plain".toList ∨
    contentType codecs part = "text/html".toList ∨
    "image/".toList <:+: contentType codecs part ∨
    "application/".toList <:+: contentType codecs part

/-- The leaf is of a kind the walk knows, and within its depth. -/
def Inspected (leaf : Leaf) : Prop := leaf.1 ≤ maxRecursionDepth ∧ KnownKind codecs leaf.2

/-- The leaf goes to a list. -/
def goesTo (slot : Slot) (leaf : Leaf) : Bool := withinDepth leaf && slotOf codecs leaf.2 = some slot

/-- The leaves that go to a list, by their positions in document order. -/
def placed (msg : MimeTree) (slot : Slot) : List ℕ := (leaves msg).findIdxs (goesTo codecs slot)

/-- The text of a leaf. -/
def leafText (leaf : Leaf) : Str := partText codecs leaf.2 (leaf.2.payload.getD [])

variable {codecs}

theorem slotOf_isSome_iff {part : MimePart} (hpayload : part.payload.isSome = true) :
    (slotOf codecs part).isSome = true ↔ KnownKind codecs part := by
  unfold slotOf KnownKind
  split_ifs with h h' h'' h'''
  · simp [h]
  · simp [h', hpayload]
  · simp [h'', hpayload]
  · exact ⟨fun _ => .inr (.inr (.inr h''')), fun _ => rfl⟩
  · simp only [Option.isSome_none, Bool.false_eq_true, false_iff]
    rintro (hkind | hkind | hkind | hkind)
    · exact h hkind
    · exact h' hkind
    · exact h'' hkind
    · exact h''' hkind

/-- What `collect` adds to each list. -/
theorem collect_eq (part : MimePart) (collector : MimePartContent) :
    (collect codecs part collector).plainParts = collector.plainParts ++
        (if slotOf codecs part = some .plain then [partText codecs part (part.payload.getD [])]
          else []) ∧
      (collect codecs part collector).htmlParts = collector.htmlParts ++
        (if slotOf codecs part = some .html then [partText codecs part (part.payload.getD [])]
          else []) ∧
      (collect codecs part collector).attachmentsRaw = collector.attachmentsRaw ++
        (if slotOf codecs part = some .attachment then [part] else []) := by
  by_cases hattachment : isAttachment codecs part = true
  · simp [collect, slotOf, hattachment]
  · by_cases hplain : contentType codecs part = "text/plain".toList
    · rw [collect, slotOf, if_neg hattachment, if_neg hattachment, if_pos hplain, if_pos hplain]
      cases part.payload <;> simp
    · by_cases hhtml : contentType codecs part = "text/html".toList
      · rw [collect, slotOf, if_neg hattachment, if_neg hattachment, if_neg hplain, if_neg hplain,
          if_pos hhtml, if_pos hhtml]
        cases part.payload <;> simp
      · rw [collect, slotOf, if_neg hattachment, if_neg hattachment, if_neg hplain, if_neg hplain,
          if_neg hhtml, if_neg hhtml]
        split_ifs <;> simp_all

/-- What one pass leaves in each list. -/
theorem collectAll_eq (found : List Leaf) (collector : MimePartContent) :
    (collectAll codecs collector found).plainParts = collector.plainParts ++
        (found.filter (goesTo codecs .plain)).map (leafText codecs) ∧
      (collectAll codecs collector found).htmlParts = collector.htmlParts ++
        (found.filter (goesTo codecs .html)).map (leafText codecs) ∧
      (collectAll codecs collector found).attachmentsRaw = collector.attachmentsRaw ++
        (found.filter (goesTo codecs .attachment)).map Prod.snd := by
  induction found generalizing collector with
  | nil => simp [collectAll]
  | cons leaf found ih =>
    by_cases hwithin : withinDepth leaf = true
    · have hstep : collectAll codecs collector (leaf :: found) =
          collectAll codecs (collect codecs leaf.2 collector) found := by
        rw [collectAll, List.filter_cons_of_pos hwithin, List.foldl_cons]
        rfl
      obtain ⟨hplain, hhtml, hattachment⟩ := ih (collect codecs leaf.2 collector)
      obtain ⟨hplain', hhtml', hattachment'⟩ := @collect_eq codecs leaf.2 collector
      rw [hstep, hplain, hhtml, hattachment, hplain', hhtml', hattachment']
      refine ⟨?_, ?_, ?_⟩
      · by_cases hslot : slotOf codecs leaf.2 = some .plain <;>
          simp [goesTo, hwithin, hslot, leafText]
      · by_cases hslot : slotOf codecs leaf.2 = some .html <;>
          simp [goesTo, hwithin, hslot, leafText]
      · by_cases hslot : slotOf codecs leaf.2 = some .attachment <;>
          simp [goesTo, hwithin, hslot]
    · have hstep : collectAll codecs collector (leaf :: found) = collectAll codecs collector found := by
        rw [collectAll, List.filter_cons_of_neg hwithin]
        rfl
      rw [hstep, (ih collector).1, (ih collector).2.1, (ih collector).2.2]
      simp [goesTo, hwithin]

/-- The entries at the positions of those that pass a test are those that pass it. -/
theorem map_getElem?_findIdxs {α : Type*} (p : α → Bool) (l : List α) :
    (l.findIdxs p).map (l[·]?) = (l.filter p).map some := by
  refine List.ext_getElem (by simp [List.countP_eq_length_filter]) fun i hi hi' => ?_
  rw [List.length_map] at hi hi'
  rw [List.getElem_map, List.getElem_map, List.getElem_filter_eq_getElem_getElem_findIdxs hi']
  exact List.getElem?_eq_getElem _

/-- The three lists hold what is placed in them. -/
structure Placement (msg : MimeTree) (collected : MimePartContent) (place : Slot → List ℕ) : Prop where
  /-- Document order, and no leaf twice. -/
  ordered : ∀ slot, (place slot).Pairwise (· < ·)
  plain : (place .plain).map (fun i => (leaves msg)[i]?.map (leafText codecs)) =
    collected.plainParts.map some
  html : (place .html).map (fun i => (leaves msg)[i]?.map (leafText codecs)) =
    collected.htmlParts.map some
  attachment : (place .attachment).map (fun i => (leaves msg)[i]?.map Prod.snd) =
    collected.attachmentsRaw.map some

theorem placement_walkMimeTree (msg : MimeTree) :
    @Placement codecs msg (walkMimeTree codecs msg 0 {}) (placed codecs msg) := by
  obtain ⟨hplain, hhtml, hattachment⟩ := @collectAll_eq codecs (leaves msg) {}
  have hmap : ∀ {β : Type} (slot : Slot) (f : Leaf → β),
      (placed codecs msg slot).map (fun i => (leaves msg)[i]?.map f) =
        (((leaves msg).filter (goesTo codecs slot)).map f).map some := by
    intro β slot f
    have hindex := congrArg (List.map (Option.map f))
      (map_getElem?_findIdxs (goesTo codecs slot) (leaves msg))
    simpa only [placed, List.map_map, Function.comp_def, Option.map_some] using hindex
  rw [walkMimeTree_eq]
  refine ⟨fun _ => List.pairwise_findIdxs, ?_, ?_, ?_⟩
  · rw [hmap]
    exact congrArg (List.map some) (hplain.trans (List.nil_append _)).symm
  · rw [hmap]
    exact congrArg (List.map some) (hhtml.trans (List.nil_append _)).symm
  · rw [hmap]
    exact congrArg (List.map some) (hattachment.trans (List.nil_append _)).symm

theorem mem_placed_iff {msg : MimeTree} {slot : Slot} {i : ℕ} (hi : i < (leaves msg).length) :
    i ∈ placed codecs msg slot ↔ goesTo codecs slot (leaves msg)[i] = true := by
  rw [placed, List.mem_findIdxs_iff_exists_getElem_pos]
  exact ⟨fun ⟨_, h⟩ => h, fun h => ⟨hi, h⟩⟩

/-- **An inspected leaf** whose payload decodes is placed in exactly one list. -/
theorem existsUnique_slot {msg : MimeTree} {i : ℕ} (hi : i < (leaves msg).length)
    (hpayload : (leaves msg)[i].2.payload.isSome = true) :
    (∃! slot, i ∈ placed codecs msg slot) ↔ Inspected codecs (leaves msg)[i] := by
  simp only [mem_placed_iff hi, goesTo, Bool.and_eq_true, decide_eq_true_eq, withinDepth, Inspected,
    ← slotOf_isSome_iff hpayload]
  constructor
  · rintro ⟨slot, ⟨hwithin, hslot⟩, -⟩
    exact ⟨hwithin, by rw [hslot]; rfl⟩
  · rintro ⟨hwithin, hsome⟩
    obtain ⟨slot, hslot⟩ := Option.isSome_iff_exists.1 hsome
    refine ⟨slot, ⟨hwithin, hslot⟩, fun slot' h => ?_⟩
    exact Option.some.inj (h.2.symm.trans hslot)

/-- Any other leaf is placed in none. -/
theorem notMem_placed {msg : MimeTree} {i : ℕ} (hi : i < (leaves msg).length)
    (hinspected : ¬Inspected codecs (leaves msg)[i])
    (hpayload : (leaves msg)[i].2.payload.isSome = true) (slot : Slot) :
    i ∉ placed codecs msg slot := by
  rw [mem_placed_iff hi, goesTo, Bool.and_eq_true, decide_eq_true_eq]
  rintro ⟨hwithin, hslot⟩
  refine hinspected ⟨of_decide_eq_true hwithin, (slotOf_isSome_iff hpayload).1 ?_⟩
  rw [hslot]
  rfl

end Placement

end ScamOn.Parsing
