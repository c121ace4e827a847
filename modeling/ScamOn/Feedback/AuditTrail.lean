import ScamOn.Feedback.Convergence

/-!
# The audit trail of the convergence engine

What the engine holds for a tenant is a table of trust records and a list of
audit items, and neither is derived from the other.  This file proves that they
agree, whatever calls were made: `Consistent` says how, and
`audit_trail_consistent` that it holds in every state that is reached, and that
a call for one tenant leaves the memory of every other as it is.

`Consistent` is not inductive by itself.  A rollback writes a score of the past
back, so the scores in the items have to be bounded too, and an id is on file
once only because every id on file is among the processed ones: `Accountable`
adds both.
-/

namespace ScamOn.Feedback

/-! ## Agreement of records and items -/

/-- The items of an entity, rolled back or not. -/
def TenantMemory.itemsOf (m : TenantMemory) (entityKey : String) : List AuditItem :=
  m.audits.filter (·.entityKey = entityKey)

/-- The items that carry an id, as that of the event or of the feedback. -/
def TenantMemory.mentions (m : TenantMemory) (id : Uuid) : List AuditItem :=
  m.audits.filter fun i => i.eventId = id ∨ i.feedbackId = id

/-- The score is the initial one, or an item of the entity reports it. -/
def TenantMemory.Traced (m : TenantMemory) (entityKey : String) (score : ℚ) : Prop :=
  score = 1 / 2 ∨ ∃ i ∈ m.itemsOf entityKey, score = i.priorScore ∨ score = i.posteriorScore

/-- The records of a tenant agree with its audit items. -/
structure TenantMemory.Consistent (m : TenantMemory) : Prop where
  mentioned_once : ∀ id, (m.mentions id).length ≤ 1
  trust_bounded : ∀ k, 0 ≤ (m.record k).trustScore ∧ (m.record k).trustScore ≤ 1
  confidence_bounded : ∀ k, 0 ≤ (m.record k).confidenceScore ∧ (m.record k).confidenceScore ≤ 1
  delta_bounded : ∀ i ∈ m.audits, -(1 / 5) ≤ i.delta ∧ i.delta ≤ 1 / 5
  incidents : ∀ k, (m.record k).incidentCount = (m.itemsOf k).length
  errors_le : ∀ k, (m.record k).falsePositiveCount + (m.record k).falseNegativeCount ≤
    (m.record k).incidentCount
  traced : ∀ k, m.Traced k (m.record k).trustScore

/-- Agreement, with what a rollback and a duplicate rest on. -/
structure TenantMemory.Accountable (m : TenantMemory) : Prop extends m.Consistent where
  known : m.Known
  prior_bounded : ∀ i ∈ m.audits, 0 ≤ i.priorScore ∧ i.priorScore ≤ 1
  processed_of_mem : ∀ i ∈ m.audits, i.eventId ∈ m.processed ∧ i.feedbackId ∈ m.processed

theorem accountable_empty : TenantMemory.empty.Accountable where
  mentioned_once id := Nat.zero_le _
  trust_bounded k := by
    show (0 : ℚ) ≤ 1 / 2 ∧ (1 / 2 : ℚ) ≤ 1
    norm_num
  confidence_bounded k := by
    show (0 : ℚ) ≤ 1 / 2 ∧ (1 / 2 : ℚ) ≤ 1
    norm_num
  delta_bounded i hi := by cases hi
  incidents k := rfl
  errors_le k := Nat.le_refl 0
  traced k := .inl rfl
  known i hi := by cases hi
  prior_bounded i hi := by cases hi
  processed_of_mem i hi := by cases hi

theorem clamp_bounded {lo hi : ℚ} (h : lo ≤ hi) (x : ℚ) : lo ≤ clamp lo hi x ∧ clamp lo hi x ≤ hi :=
  ⟨le_max_left _ _, max_le h (min_le_left _ _)⟩

theorem convergenceDelta_bounded (c : FeedbackCall) :
    -(1 / 5) ≤ convergenceDelta c ∧ convergenceDelta c ≤ 1 / 5 :=
  clamp_bounded (by norm_num [maxConvergenceDelta]) _

/-! ## A verdict -/

theorem record_apply (m : TenantMemory) (c : FeedbackCall) (k : String) :
    (m.apply c).record k = if k = c.entityKey then (m.record k).update c else m.record k := by
  unfold TenantMemory.record TenantMemory.apply
  simp only [Dict.get?_set]
  split_ifs with hk
  · rw [hk]
    rfl
  · rfl

theorem itemsOf_apply (m : TenantMemory) (c : FeedbackCall) (k : String) :
    (m.apply c).itemsOf k =
      if k = c.entityKey then m.itemsOf k ++ [auditItem c (m.record c.entityKey)]
      else m.itemsOf k := by
  have hkey : (auditItem c (m.record c.entityKey)).entityKey = c.entityKey := rfl
  unfold TenantMemory.itemsOf TenantMemory.apply
  rw [List.filter_append]
  split_ifs with hk
  · simp [hkey, hk]
  · simp [hkey, Ne.symm hk]

/-- No item carries an id that is not among the processed ones. -/
theorem TenantMemory.Accountable.mentions_eq_nil {m : TenantMemory} (h : m.Accountable) {id : Uuid}
    (hid : id ∉ m.processed) : m.mentions id = [] := by
  apply List.filter_eq_nil_iff.2
  intro i hi
  obtain ⟨hevent, hfeedback⟩ := h.processed_of_mem i hi
  have hne : ¬(i.eventId = id ∨ i.feedbackId = id) := by
    rintro (rfl | rfl)
    · exact hid hevent
    · exact hid hfeedback
  simpa using hne

theorem TenantMemory.Accountable.mentions_apply {m : TenantMemory} (h : m.Accountable)
    {c : FeedbackCall} (hnew : ¬m.Duplicate c) (id : Uuid) :
    ((m.apply c).mentions id).length ≤ 1 := by
  have hnewEvent : c.eventId ∉ m.processed := fun hmem => hnew (.inl hmem)
  have hnewFeedback : c.feedbackId ∉ m.processed := fun hmem => hnew (.inr hmem)
  have happ : (m.apply c).mentions id =
      m.mentions id ++ if c.eventId = id ∨ c.feedbackId = id then
        [auditItem c (m.record c.entityKey)] else [] := by
    unfold TenantMemory.mentions TenantMemory.apply
    rw [List.filter_append]
    by_cases hid : c.eventId = id ∨ c.feedbackId = id
    · simp [auditItem, hid]
    · simp [auditItem, hid]
  rw [happ]
  split_ifs with hid
  · have hnone : m.mentions id = [] := by
      rcases hid with rfl | rfl
      · exact h.mentions_eq_nil hnewEvent
      · exact h.mentions_eq_nil hnewFeedback
    simp [hnone]
  · simpa using h.mentioned_once id

theorem update_errors_le {r : TrustRecord}
    (h : r.falsePositiveCount + r.falseNegativeCount ≤ r.incidentCount) (c : FeedbackCall) :
    (r.update c).falsePositiveCount + (r.update c).falseNegativeCount ≤
      (r.update c).incidentCount := by
  unfold TrustRecord.update
  dsimp only
  split_ifs
  · omega
  · omega
  · omega

theorem Traced.apply {m : TenantMemory} {k : String} (h : m.Traced k (m.record k).trustScore)
    (c : FeedbackCall) : (m.apply c).Traced k ((m.apply c).record k).trustScore := by
  rw [record_apply]
  unfold TenantMemory.Traced
  rw [itemsOf_apply]
  split_ifs with hk
  · subst hk
    exact .inr ⟨auditItem c (m.record c.entityKey), by simp, .inr rfl⟩
  · exact h

/-- **A verdict keeps the books.** -/
theorem TenantMemory.Accountable.apply {m : TenantMemory} (h : m.Accountable) {c : FeedbackCall}
    (hnew : ¬m.Duplicate c) : (m.apply c).Accountable where
  mentioned_once := h.mentions_apply hnew
  trust_bounded k := by
    rw [record_apply]
    split_ifs
    · exact clamp_bounded zero_le_one _
    · exact h.trust_bounded k
  confidence_bounded k := by
    rw [record_apply]
    split_ifs
    · exact clamp_bounded zero_le_one _
    · exact h.confidence_bounded k
  delta_bounded i hi := by
    rcases List.mem_append.1 hi with hold | hadded
    · exact h.delta_bounded i hold
    · rw [List.mem_singleton.1 hadded]
      exact convergenceDelta_bounded c
  incidents k := by
    have hk := h.incidents k
    rw [record_apply, itemsOf_apply]
    split_ifs
    · simp [TrustRecord.update, hk]
    · exact hk
  errors_le k := by
    rw [record_apply]
    split_ifs
    · exact update_errors_le (h.errors_le k) c
    · exact h.errors_le k
  traced k := Traced.apply (h.traced k) c
  known := known_apply h.known c
  prior_bounded i hi := by
    rcases List.mem_append.1 hi with hold | hadded
    · exact h.prior_bounded i hold
    · rw [List.mem_singleton.1 hadded]
      exact h.trust_bounded c.entityKey
  processed_of_mem i hi := by
    show i.eventId ∈ insert _ _ ∧ i.feedbackId ∈ insert _ _
    rcases List.mem_append.1 hi with hold | hadded
    · obtain ⟨hevent, hfeedback⟩ := h.processed_of_mem i hold
      simp [hevent, hfeedback]
    · rw [List.mem_singleton.1 hadded]
      simp [auditItem]

/-! ## A rollback -/

/-- An item that has been rolled back. -/
def AuditItem.marked (i : AuditItem) (analystId : String) : AuditItem :=
  { i with rolledBack := true, rolledBackBy := some analystId }

section Rollback

variable {m : TenantMemory} {item : AuditItem} {l r : List AuditItem}

/-- Marking an item changes no selection by what else the items carry. -/
theorem length_filter_rollback (hsplit : m.audits = l ++ item :: r)
    (hlatest : ∀ i ∈ r, i.feedbackId ≠ item.feedbackId) (analystId : String)
    {p : AuditItem → Bool} (hp : p (item.marked analystId) = p item) :
    ((m.rollback item analystId).audits.filter p).length = (m.audits.filter p).length := by
  have hp' : p { item with rolledBack := true, rolledBackBy := some analystId } = p item := hp
  rw [audits_rollback hsplit hlatest, hsplit]
  cases hitem : p item with
  | true => simp [hp', hitem]
  | false => simp [hp', hitem]

theorem mem_rollback_iff (hsplit : m.audits = l ++ item :: r)
    (hlatest : ∀ i ∈ r, i.feedbackId ≠ item.feedbackId) {analystId : String} {i : AuditItem} :
    i ∈ (m.rollback item analystId).audits ↔ i = item.marked analystId ∨ i ∈ l ∨ i ∈ r := by
  rw [audits_rollback hsplit hlatest, List.mem_append, List.mem_cons]
  show i ∈ l ∨ i = item.marked analystId ∨ i ∈ r ↔ _
  tauto

/-- What holds of the items, marked or not, holds of them after a rollback. -/
theorem forall_mem_rollback (hsplit : m.audits = l ++ item :: r)
    (hlatest : ∀ i ∈ r, i.feedbackId ≠ item.feedbackId) {analystId : String}
    {P : AuditItem → Prop} (hP : ∀ i ∈ m.audits, P i) (hmark : P item → P (item.marked analystId)) :
    ∀ i ∈ (m.rollback item analystId).audits, P i := by
  intro i hi
  rcases (mem_rollback_iff hsplit hlatest).1 hi with rfl | hl | hr
  · exact hmark (hP item (by simp [hsplit]))
  · exact hP i (by simp [hsplit, hl])
  · exact hP i (by simp [hsplit, hr])

/-- Every item is still there, up to the mark. -/
theorem exists_mem_rollback (hsplit : m.audits = l ++ item :: r)
    (hlatest : ∀ i ∈ r, i.feedbackId ≠ item.feedbackId) (analystId : String) {i : AuditItem}
    (hi : i ∈ m.audits) :
    ∃ j ∈ (m.rollback item analystId).audits, j.entityKey = i.entityKey ∧
      j.priorScore = i.priorScore ∧ j.posteriorScore = i.posteriorScore := by
  rw [hsplit, List.mem_append, List.mem_cons] at hi
  rcases hi with hl | rfl | hr
  · exact ⟨i, (mem_rollback_iff hsplit hlatest).2 (.inr (.inl hl)), rfl, rfl, rfl⟩
  · exact ⟨i.marked analystId, (mem_rollback_iff hsplit hlatest).2 (.inl rfl), rfl, rfl, rfl⟩
  · exact ⟨i, (mem_rollback_iff hsplit hlatest).2 (.inr (.inr hr)), rfl, rfl, rfl⟩

theorem Traced.rollback (hsplit : m.audits = l ++ item :: r)
    (hlatest : ∀ i ∈ r, i.feedbackId ≠ item.feedbackId) (analystId : String) {k : String} {q : ℚ}
    (h : m.Traced k q) : (m.rollback item analystId).Traced k q := by
  rcases h with hinitial | ⟨i, hi, hq⟩
  · exact .inl hinitial
  · obtain ⟨hmem, hkey⟩ := List.mem_filter.1 hi
    obtain ⟨j, hj, hjkey, hprior, hposterior⟩ :=
      exists_mem_rollback hsplit hlatest analystId hmem
    refine .inr ⟨j, List.mem_filter.2 ⟨hj, ?_⟩, ?_⟩
    · rw [hjkey]
      exact hkey
    · rw [hprior, hposterior]
      exact hq

/-- **A rollback keeps the books.** -/
theorem TenantMemory.Accountable.rollback {f : Uuid} (h : m.Accountable)
    (htarget : m.target f = some item) (analystId : String) :
    (m.rollback item analystId).Accountable := by
  obtain ⟨rfl, l, r, hsplit, hlatest⟩ := target_eq_some htarget
  have hmem : item ∈ m.audits := by simp [hsplit]
  have hrecord := record_rollback h.known hmem analystId
  constructor
  · constructor
    · intro id
      have hlength := length_filter_rollback hsplit hlatest analystId
        (p := fun i => i.eventId = id ∨ i.feedbackId = id) rfl
      exact hlength.trans_le (h.mentioned_once id)
    · intro k
      rw [hrecord]
      split_ifs
      · exact h.prior_bounded item hmem
      · exact h.trust_bounded k
    · intro k
      rw [hrecord]
      split_ifs
      · exact h.confidence_bounded k
      · exact h.confidence_bounded k
    · exact forall_mem_rollback hsplit hlatest h.delta_bounded id
    · intro k
      have hlength := length_filter_rollback hsplit hlatest analystId
        (p := (·.entityKey = k)) rfl
      have hk : (m.record k).incidentCount = ((m.rollback item analystId).itemsOf k).length :=
        (h.incidents k).trans hlength.symm
      rw [hrecord]
      split_ifs
      · exact hk
      · exact hk
    · intro k
      rw [hrecord]
      split_ifs
      · exact h.errors_le k
      · exact h.errors_le k
    · intro k
      rw [hrecord]
      split_ifs with hk
      · -- the score is read off the item that is being marked
        apply Traced.rollback hsplit hlatest
        exact .inr ⟨item, List.mem_filter.2 ⟨hmem, by simpa using hk.symm⟩, .inl rfl⟩
      · exact Traced.rollback hsplit hlatest analystId (h.traced k)
  · exact known_rollback h.known htarget analystId
  · exact forall_mem_rollback hsplit hlatest h.prior_bounded id
  · exact forall_mem_rollback hsplit hlatest h.processed_of_mem id

end Rollback

/-! ## Any run -/

/-- The tenant that a call is for. -/
def Action.tenantId : Action → Uuid
  | .apply c => c.tenantId
  | .event ev => ev.tenantId
  | .rollback t _ _ => t

theorem memory_step_of_ne (e : Engine) (a : Action) {t : Uuid} (ht : t ≠ a.tenantId) :
    memory (step e a).1 t = memory e t := by
  have happly : ∀ c : FeedbackCall, t ≠ c.tenantId →
      memory (applyConvergence e c).1 t = memory e t := by
    intro c hne
    rcases applyConvergence_cases e c with ⟨-, hsame⟩ | ⟨-, happlied⟩
    · exact hsame t
    · rw [happlied, if_neg hne]
  cases a with
  | apply c => exact happly c ht
  | event ev => exact happly _ ht
  | rollback t₀ f caller =>
    rcases rollbackConvergence_cases e t₀ f caller with
      ⟨⟨err, hfail⟩, -⟩ | ⟨item, res, -, -, -, -, -, hok, -⟩
    · simp only [step, hfail]
    · simp only [step, hok, memory_set]
      exact if_neg ht

/-- A call keeps the books of every tenant. -/
theorem accountable_step {e : Engine} (h : ∀ t, (memory e t).Accountable) (a : Action) (t : Uuid) :
    (memory (step e a).1 t).Accountable :=
  memory_inv_step (fun _ _ hm hnew => hm.apply hnew)
    (fun _ _ _ analystId hm htarget => hm.rollback htarget analystId) h a t

/-- **The audit trail is consistent.**  In every state that calls lead to, the
records of each tenant agree with its audit items, and whatever call comes next
changes nothing for any other tenant. -/
theorem audit_trail_consistent (as : List Action) :
    (∀ t, (memory (Machine.run step init as) t).Consistent) ∧
      ∀ a t, t ≠ a.tenantId →
        memory (step (Machine.run step init as) a).1 t = memory (Machine.run step init as) t := by
  have hinv : ∀ t, (memory (Machine.run step init as) t).Accountable :=
    Machine.inv_run (C := fun _ _ => True) (I := fun e => ∀ t, (memory e t).Accountable)
      (fun e a h _ => accountable_step h a) (fun t => accountable_empty)
      (Machine.always_of_forall (fun _ _ => trivial) _ _)
  constructor
  · intro t
    exact (hinv t).toConsistent
  · intro a t ht
    exact memory_step_of_ne _ a ht

end ScamOn.Feedback
