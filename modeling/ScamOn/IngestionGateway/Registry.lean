import ScamOn.Lib.IndexedTable
import ScamOn.IngestionGateway.Webhook

/-!
# The daemon registry and its two indexes

`MailboxDaemonRegistry` keeps every daemon under its tenant, account and provider,
and a second time under its provider and lower-cased address.  The endpoints only
list the daemons (`MailboxDaemonRegistry` is what they see of it); here are the lookups
and the ways out, `unregister` and `clear`.

* `DaemonRegistry` is the table, for any type of daemons that have a `Mailbox`.
* `IndexesAgree`: a daemon found by its address is registered, and a registered
  daemon that shares its address with no other is found.
* `indexes_agree_throughout_iff` says which sequences of calls keep it so, and
  `indexes_disagree` shows the two ways in which it fails.
-/

namespace ScamOn.IngestionGateway

/-! ## The registry -/

/-- The key a daemon is registered under: tenant, account and provider. -/
abbrev DaemonKey : Type := Uuid × Uuid × MailboxProvider

section Keys

variable {δ : Type*} (lower : String → String) (mailbox : δ → Mailbox)

def keyId (d : δ) : DaemonKey :=
  ((mailbox d).tenantId, (mailbox d).accountId, (mailbox d).provider)

def keyMb (d : δ) : MailboxProvider × String :=
  ((mailbox d).provider, lower (mailbox d).mailboxAddress)

/-- `MailboxDaemonRegistry`, over daemons that have a mailbox.  `lower` is
`str.lower`. -/
abbrev DaemonRegistry : Type _ := Table (keyId mailbox) (keyMb lower mailbox)

end Keys

/-- A call that changes the registry: `register`, `unregister` or `clear`. -/
abbrev RegistryCall (δ : Type*) : Type _ := Table.Op δ DaemonKey

namespace DaemonRegistry

variable {δ : Type*} {lower : String → String} {mailbox : δ → Mailbox}

/-- `register`. -/
def register (r : DaemonRegistry lower mailbox) (daemon : δ) : DaemonRegistry lower mailbox :=
  r.insert daemon

/-- `unregister`: the daemon leaves, and so does whatever its address finds. -/
def unregister (r : DaemonRegistry lower mailbox) (tenantId accountId : Uuid)
    (provider : MailboxProvider) : DaemonRegistry lower mailbox × Bool :=
  r.remove (tenantId, accountId, provider)

/-- `get_daemon`. -/
def getDaemon (r : DaemonRegistry lower mailbox) (tenantId accountId : Uuid)
    (provider : MailboxProvider) : Option δ := r.get? (tenantId, accountId, provider)

/-- `find_daemon_by_mailbox`. -/
def findDaemonByMailbox (r : DaemonRegistry lower mailbox) (provider : MailboxProvider)
    (mailboxAddress : String) : Option δ := r.find? (provider, lower mailboxAddress)

/-- `list_daemons`. -/
def listDaemons (r : DaemonRegistry lower mailbox) (tenantId : Option Uuid) : List δ :=
  match tenantId with
  | none => r.toList
  | some tenant => r.toList.filter fun d => (mailbox d).tenantId = tenant

/-! ## The indexes -/

/-- The daemon is registered under its own key. -/
def Registered (r : DaemonRegistry lower mailbox) (d : δ) : Prop :=
  getDaemon r (mailbox d).tenantId (mailbox d).accountId (mailbox d).provider = some d

/-- **The indexes agree.**  A daemon that an address finds is registered, and a
registered daemon whose address no other registered daemon of its provider has is
found by it. -/
def IndexesAgree (r : DaemonRegistry lower mailbox) : Prop :=
  (∀ p address d, findDaemonByMailbox r p address = some d → Registered r d) ∧
  ∀ d, Registered r d →
    (∀ e, Registered r e → (mailbox e).provider = (mailbox d).provider →
      lower (mailbox e).mailboxAddress = lower (mailbox d).mailboxAddress → e = d) →
    findDaemonByMailbox r (mailbox d).provider (mailbox d).mailboxAddress = some d

theorem indexesAgree_iff (r : DaemonRegistry lower mailbox) : IndexesAgree r ↔ r.Coherent := by
  have hshare : ∀ d e : δ, keyMb lower mailbox e = keyMb lower mailbox d ↔
      (mailbox e).provider = (mailbox d).provider ∧
        lower (mailbox e).mailboxAddress = lower (mailbox d).mailboxAddress := by
    intro d e
    simp [keyMb]
  refine and_congr ⟨fun h i d hfind => ?_, fun h p address d hfind => h _ d hfind⟩ ?_
  · -- the index of a found daemon is made from its own address
    have hi : keyMb lower mailbox d = i := r.indexed hfind
    subst hi
    exact h _ _ d hfind
  · refine forall_congr' fun d => ?_
    constructor
    · rintro h ⟨hd, hsole⟩
      exact h hd fun e he hp ha => hsole e he ((hshare d e).2 ⟨hp, ha⟩)
    · intro h hd hsole
      exact h ⟨hd, fun e he hi => hsole e he ((hshare d e).1 hi).1 ((hshare d e).1 hi).2⟩

/-- **The indexes agree throughout a sequence of calls exactly when every call is
safe**: a daemon leaves its address only if that does not leave exactly one other
daemon there, and it is re-registered under another address only if its old one
does not find it. -/
theorem indexes_agree_throughout_iff (calls : List (RegistryCall δ)) :
    (∀ pre, pre <+: calls →
        IndexesAgree (Machine.run Table.step (Table.empty : DaemonRegistry lower mailbox) pre)) ↔
      Machine.Always Table.step Table.Safe (Table.empty : DaemonRegistry lower mailbox) calls := by
  simp only [indexesAgree_iff]
  exact Table.coherent_run_iff calls

/-- **Both parts fail.**  After an account is registered again with a new address,
the old address finds the daemon that is gone; and when one of two tenants with the
same address leaves, the other one's daemon is no longer found. -/
theorem indexes_disagree :
    let daemon (tenant : ℕ) (address : String) : Mailbox :=
      { sampleMailbox with tenantId := .ofNat tenant, mailboxAddress := address }
    let after (calls : List (RegistryCall Mailbox)) : DaemonRegistry Text.asciiLower id :=
      Machine.run Table.step Table.empty calls
    ¬IndexesAgree (after [.insert (daemon 1 "a@corp.local"), .insert (daemon 1 "b@corp.local")]) ∧
    ¬IndexesAgree (after [.insert (daemon 1 "a@corp.local"), .insert (daemon 2 "a@corp.local"),
      .remove (keyId id (daemon 1 "a@corp.local"))]) := by
  intro daemon after
  constructor
  · intro h
    have hgone := h.1 .imap "a@corp.local" (daemon 1 "a@corp.local") (by decide)
    revert hgone
    unfold Registered
    decide
  · intro h
    have hfound := h.2 (daemon 2 "a@corp.local") (by unfold Registered; decide) ?_
    · revert hfound
      decide
    · intro e he _ _
      have honly : (after [.insert (daemon 1 "a@corp.local"), .insert (daemon 2 "a@corp.local"),
          .remove (keyId id (daemon 1 "a@corp.local"))]).toList = [daemon 2 "a@corp.local"] := by
        decide
      have hmem := Table.mem_toList.2 he
      rw [honly] at hmem
      exact List.mem_singleton.1 hmem

end DaemonRegistry
end ScamOn.IngestionGateway
