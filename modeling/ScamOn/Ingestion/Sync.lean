import Mathlib.Algebra.Group.Nat.Defs
import ScamOn.Lib.FirstOccurrences
import ScamOn.Lib.Loop
import ScamOn.Lib.Text
import ScamOn.Lib.UniqueTable

/-!
# Synchronizing a mailbox

`IngestionPipeline.run_initial_sync` lists the messages of a mailbox and stores those that it does
not have.  A message takes two rows, one with its raw bytes and one with its envelope, and two
events, one when it is listed and one when both rows are written.  The sync state of the account
says how the last synchronization went.

* `ingestMessage` is what is done for one message; `ingestMessage_cases` says once what that can be.
* `runInitialSync` is one synchronization, with every way it can end; `runInitialSync_eq` puts it
  together from the loop and what is written about it.
* `sync_stores`: the rows of the new messages are written, in the order of the listing, up to the
  first message that cannot be served, and their number is returned exactly when there is none.
-/

namespace ScamOn.Ingestion

/-! ## Data -/

/-- What ends a call early: an exception with its text, or the cancellation of the task, which
`except Exception` does not catch. -/
inductive Fault
  | exception (message : String)
  | cancelled
  deriving DecidableEq, Repr

/-- `EmailAccount`, as far as a synchronization reads it. -/
structure EmailAccount where
  id : Uuid
  tenantId : Uuid
  provider : String
  isActive : Bool
  deriving DecidableEq

/-- An entry of a listing.  A key may be missing; a history identifier may also be `None`. -/
structure Summary where
  id : Option String
  historyId : Option (Option String)
  deriving DecidableEq, Repr

/-- The envelope of a message.  Any key may be missing. -/
structure Metadata where
  internetMessageId : Option String
  senderAddress : Option String
  recipientAddresses : Option (List String)
  subject : Option (Option String)
  hasAttachments : Option Bool
  attachmentCount : Option ℤ
  deriving DecidableEq, Repr

/-- `IEmailProvider`, as far as a synchronization calls it.  Its answers may differ from one
message of the listing to the next, which the number is for. -/
structure EmailProvider where
  providerName : String
  fetchInitialSync : ℤ → Except Fault (List Summary)
  getRawEml : ℕ → String → Except Fault (List UInt8)
  getMessageMetadata : ℕ → String → Except Fault Metadata

/-- `RawEmail`.  Rows are numbered as they are written. -/
structure RawEmail where
  id : ℕ
  accountId : Uuid
  tenantId : Uuid
  messageId : String
  internetMessageId : String
  rawEmlData : List UInt8
  rawSizeBytes : ℕ
  deriving DecidableEq

/-- `EmailMetadataRecord`. -/
structure EmailMetadataRecord where
  accountId : Uuid
  tenantId : Uuid
  rawEmailId : ℕ
  messageId : String
  internetMessageId : String
  senderAddress : String
  recipientAddresses : List String
  subject : Option String
  hasAttachments : Bool
  attachmentCount : ℤ
  deriving DecidableEq

/-- The states that a synchronization goes through. -/
inductive SyncStatus
  | idle | syncing | failed
  deriving DecidableEq, Repr

/-- `MailboxSyncState`. -/
structure MailboxSyncState where
  accountId : Uuid
  tenantId : Uuid
  status : SyncStatus
  lastHistoryId : Option String
  errorMessage : Option String
  deriving DecidableEq

/-- The events of a synchronization. -/
inductive Event
  | emailReceived (tenantId accountId : Uuid) (messageId : String) (historyId : Option String)
      (provider : String)
  | emailDownloaded (tenantId accountId : Uuid) (rawEmailId : ℕ) (messageId internetMessageId
      senderAddress : String) (recipientAddresses : List String) (subject : String)
      (rawSizeBytes : ℕ)
  | mailboxSyncCompleted (tenantId accountId : Uuid) (emailsProcessed : ℕ)
      (latestHistoryId : Option String)
  | mailboxSyncFailed (tenantId accountId : Uuid) (errorMessage : String)
  deriving DecidableEq

/-- The database session, and the events that were handed to the publisher.  What becomes of an
event there is nothing to the synchronization. -/
structure Session where
  rawEmails : List RawEmail
  metadataRecords : List EmailMetadataRecord
  syncStates : List MailboxSyncState
  published : List Event

namespace Session

/-- A database without rows. -/
def empty : Session := ⟨[], [], [], []⟩

/-- `_publish_event`. -/
def publish (s : Session) (event : Event) : Session :=
  { s with published := s.published ++ [event] }

/-- `session.add` of a raw email, and `flush`. -/
def addRaw (s : Session) (raw : RawEmail) : Session :=
  { s with rawEmails := s.rawEmails ++ [raw] }

/-- `session.add` of a metadata record, and `flush`. -/
def addRecord (s : Session) (row : EmailMetadataRecord) : Session :=
  { s with metadataRecords := s.metadataRecords ++ [row] }

end Session

/-! ## Repositories -/

/-- `MultipleResultsFound`. -/
def multipleResultsFound : Fault :=
  .exception "Multiple rows were found when one or none was required"

/-- `RawEmailRepository.get_by_message_id`. -/
def getByMessageId (accountId : Uuid) (messageId : String) (s : Session) :
    Except Fault (Option RawEmail) :=
  scalarOneOrNone multipleResultsFound
    (s.rawEmails.filter fun row => row.accountId = accountId ∧ row.messageId = messageId)

/-- `MailboxSyncStateRepository.get_by_account_id`. -/
def getByAccountId (accountId : Uuid) (s : Session) : Except Fault (Option MailboxSyncState) :=
  scalarOneOrNone multipleResultsFound (s.syncStates.filter fun row => row.accountId = accountId)

/-- A value that Python takes for true: not `None`, and not empty. -/
def truthy (text : Option String) : Bool := text.any (· ≠ "")

/-- What `update_sync_progress` makes of the state of an account. -/
def MailboxSyncState.progress (status : SyncStatus) (lastHistoryId errorMessage : Option String)
    (row : MailboxSyncState) : MailboxSyncState :=
  { row with
    status := status
    lastHistoryId := if truthy lastHistoryId then lastHistoryId else row.lastHistoryId
    errorMessage := errorMessage.or row.errorMessage }

/-- `MailboxSyncStateRepository.update_sync_progress`, for an account that exists. -/
def updateSyncProgress (account : EmailAccount) (status : SyncStatus)
    (lastHistoryId errorMessage : Option String) (s : Session) : Session × Except Fault Unit :=
  match getByAccountId account.id s with
  | .error fault => (s, .error fault)
  | .ok (some _) =>
    ({ s with
        syncStates := s.syncStates.map fun row =>
          if row.accountId = account.id then row.progress status lastHistoryId errorMessage
          else row }, .ok ())
  | .ok none =>
    ({ s with
        syncStates := s.syncStates ++
          [⟨account.id, account.tenantId, status, lastHistoryId, errorMessage⟩] }, .ok ())

/-! ## One message -/

/-- The text of `KeyError(key)`. -/
def keyError (key : String) : Fault := .exception ("'" ++ key ++ "'")

/-- The branch for a message that is not stored yet. -/
def storeMessage (account : EmailAccount) (messageId : String) (rawEml : List UInt8)
    (metadata : Metadata) (s : Session) : Session × Except Fault ℕ :=
  match metadata.internetMessageId with
  | none => (s, .error (keyError "internet_message_id"))
  | some internetMessageId =>
    let raw : RawEmail :=
      ⟨s.rawEmails.length, account.id, account.tenantId, messageId, internetMessageId, rawEml,
        rawEml.length⟩
    let s := s.addRaw raw
    -- the raw row is written by now, whatever the envelope lacks
    match metadata.recipientAddresses, metadata.senderAddress, metadata.subject with
    | none, _, _ => (s, .error (keyError "recipient_addresses"))
    | some _, none, _ => (s, .error (keyError "sender_address"))
    | some _, some _, none => (s, .error (keyError "subject"))
    | some recipientAddresses, some senderAddress, some subject =>
      let s := s.addRecord
        ⟨account.id, account.tenantId, raw.id, messageId, internetMessageId, senderAddress,
          recipientAddresses, subject, metadata.hasAttachments.getD false,
          metadata.attachmentCount.getD 0⟩
      (s.publish (.emailDownloaded account.tenantId account.id raw.id messageId internetMessageId
        senderAddress recipientAddresses (subject.getD "") rawEml.length), .ok 1)

/-- The event for an entry that was listed. -/
def received (account : EmailAccount) (provider : EmailProvider) (messageId : String)
    (latestHid : Option String) : Event :=
  .emailReceived account.tenantId account.id messageId latestHid provider.providerName

/-- One turn of the loop over the listing: the session and `latest_hid` on either side, and what
the turn adds to `processed_count`. -/
def ingestMessage (account : EmailAccount) (provider : EmailProvider)
    (s : Session × Option String) (entry : Summary × ℕ) :
    (Session × Option String) × Except Fault ℕ :=
  let (session, latestHid) := s
  let (summary, turn) := entry
  match summary.id with
  | none => (s, .error (keyError "id"))
  | some messageId =>
    let latestHid := summary.historyId.getD latestHid
    let session := session.publish (received account provider messageId latestHid)
    match provider.getRawEml turn messageId with
    | .error fault => ((session, latestHid), .error fault)
    | .ok rawEml =>
      match provider.getMessageMetadata turn messageId with
      | .error fault => ((session, latestHid), .error fault)
      | .ok metadata =>
        match getByMessageId account.id messageId session with
        | .error fault => ((session, latestHid), .error fault)
        | .ok (some _) => ((session, latestHid), .ok 0)
        | .ok none =>
          let stored := storeMessage account messageId rawEml metadata session
          ((stored.1, latestHid), stored.2)

/-! ## One synchronization -/

/-- What `run_initial_sync` raises. -/
inductive SyncError
  | mailboxSync (message : String)
  | ingestion (message : String)
  | database (message : String)
  | cancelled
  deriving DecidableEq, Repr

/-- A call: the accounts it finds, the two providers as they are at that time, its arguments. -/
structure Call where
  accounts : List EmailAccount
  gmail : EmailProvider
  msGraph : EmailProvider
  accountId : Uuid
  limit : ℤ

/-- `c.upper()`, for the characters that matter to the names of the providers: two letters
outside ASCII have capitals in it. -/
def upperChar (c : Char) : Char :=
  if c = 'ı' then 'I' else if c = 'ſ' then 'S' else c.toUpper

/-- `IngestionPipeline.resolve_provider`. -/
def resolveProvider (call : Call) (account : EmailAccount) : Except SyncError EmailProvider :=
  let providerType := String.ofList (account.provider.toList.map upperChar)
  if providerType = "GMAIL" then .ok call.gmail
  else if providerType = "MS_GRAPH" then .ok call.msGraph
  else .error (.ingestion ("Unsupported ingestion provider: " ++ account.provider))

/-- The body of the `try` up to the end of the loop: what was fetched, and how many messages
were stored. -/
def fetchAll (account : EmailAccount) (provider : EmailProvider) (limit : ℤ) (s : Session) :
    (Session × Option String) × Except Fault ℕ :=
  match provider.fetchInitialSync limit with
  | .error fault => ((s, none), .error fault)
  | .ok summaries => Loop.total (ingestMessage account provider) (s, none) summaries.zipIdx

/-- The `except` clause. -/
def handleFault (account : EmailAccount) (s : Session) : Fault → Session × Except SyncError ℕ
  | .cancelled => (s, .error .cancelled)
  | .exception message =>
    match updateSyncProgress account .failed none (some message) s with
    | (s, .error (.exception message)) => (s, .error (.database message))
    | (s, .error .cancelled) => (s, .error .cancelled)
    | (s, .ok ()) =>
      (s.publish (.mailboxSyncFailed account.tenantId account.id message),
        .error (.mailboxSync ("Mailbox sync failed: " ++ message)))

/-- The `try` statement. -/
def synchronize (account : EmailAccount) (provider : EmailProvider) (limit : ℤ) (s : Session) :
    Session × Except SyncError ℕ :=
  match fetchAll account provider limit s with
  | ((s, _), .error fault) => handleFault account s fault
  | ((s, latestHid), .ok processedCount) =>
    match updateSyncProgress account .idle latestHid none s with
    | (s, .error fault) => handleFault account s fault
    | (s, .ok ()) =>
      (s.publish (.mailboxSyncCompleted account.tenantId account.id processedCount latestHid),
        .ok processedCount)

/-- The account a call is for, if there is one in use. -/
def Call.account? (call : Call) : Option EmailAccount :=
  (call.accounts.find? fun account => account.id = call.accountId).filter (·.isActive)

/-- `IngestionPipeline.run_initial_sync`. -/
def runInitialSync (s : Session) (call : Call) : Session × Except SyncError ℕ :=
  match call.account? with
  | none =>
    (s, .error (.mailboxSync ("Active EmailAccount '" ++ call.accountId.str ++ "' not found")))
  | some account =>
    match resolveProvider call account with
    | .error e => (s, .error e)
    | .ok provider =>
      match updateSyncProgress account .syncing none none s with
      | (s, .error (.exception message)) => (s, .error (.database message))
      | (s, .error .cancelled) => (s, .error .cancelled)
      | (s, .ok ()) => synchronize account provider call.limit s

/-! ## What one message does -/

/-- What the provider has for an entry: its identifier, its bytes and its envelope. -/
def answer (provider : EmailProvider) (entry : Summary × ℕ) :
    Option (String × List UInt8 × Metadata) :=
  match entry.1.id with
  | none => none
  | some messageId =>
    match provider.getRawEml entry.2 messageId, provider.getMessageMetadata entry.2 messageId with
    | .ok rawEml, .ok metadata => some (messageId, rawEml, metadata)
    | _, _ => none

/-- No key that a row needs is missing. -/
def Metadata.Complete (m : Metadata) : Prop :=
  m.internetMessageId.isSome ∧ m.recipientAddresses.isSome ∧ m.senderAddress.isSome ∧
    m.subject.isSome

instance (m : Metadata) : Decidable m.Complete :=
  inferInstanceAs (Decidable (_ ∧ _ ∧ _ ∧ _))

/-- A turn for this entry does not raise, with those messages stored: the provider answers, and
the envelope of a new message is complete. -/
def Servable (provider : EmailProvider) (seen : List String) (entry : Summary × ℕ) : Prop :=
  (answer provider entry).any fun (messageId, _, metadata) =>
    decide (messageId ∈ seen ∨ metadata.Complete)

instance (provider : EmailProvider) (seen : List String) (entry : Summary × ℕ) :
    Decidable (Servable provider seen entry) :=
  inferInstanceAs (Decidable (_ = true))

/-- The messages of an account that are stored. -/
def Session.messageIds (s : Session) (accountId : Uuid) : List String :=
  (s.rawEmails.filter fun row => row.accountId = accountId).map (·.messageId)

/-- No message is stored twice. -/
def Session.Unique (s : Session) : Prop :=
  (s.rawEmails.map fun row => (row.accountId, row.messageId)).Nodup

/-- The event for a message that was stored. -/
def downloaded (row : RawEmail × EmailMetadataRecord) : Event :=
  .emailDownloaded row.1.tenantId row.1.accountId row.1.id row.1.messageId row.1.internetMessageId
    row.2.senderAddress row.2.recipientAddresses (row.2.subject.getD "") row.1.rawSizeBytes

/-- A raw row says what the provider answered. -/
structure RawOf (account : EmailAccount) (provider : EmailProvider) (entry : Summary × ℕ)
    (metadata : Metadata) (raw : RawEmail) : Prop where
  answered : answer provider entry = some (raw.messageId, raw.rawEmlData, metadata)
  accountId : raw.accountId = account.id
  tenantId : raw.tenantId = account.tenantId
  internetMessageId : metadata.internetMessageId = some raw.internetMessageId
  rawSizeBytes : raw.rawSizeBytes = raw.rawEmlData.length

/-- A raw row and its metadata record, written for an entry. -/
structure StoredFor (account : EmailAccount) (provider : EmailProvider) (entry : Summary × ℕ)
    (row : RawEmail × EmailMetadataRecord) : Prop where
  answered : ∃ metadata, RawOf account provider entry metadata row.1 ∧ metadata.Complete ∧
    row.2 = ⟨account.id, account.tenantId, row.1.id, row.1.messageId, row.1.internetMessageId,
      metadata.senderAddress.getD "", metadata.recipientAddresses.getD [],
      metadata.subject.getD none, metadata.hasAttachments.getD false,
      metadata.attachmentCount.getD 0⟩

/-- **All that a turn of the loop can do.** -/
inductive Turn (account : EmailAccount) (provider : EmailProvider) (s : Session)
    (entry : Summary × ℕ) : Session → Except Fault ℕ → Prop
  | silent (fault : Fault) (h : ¬ Servable provider (s.messageIds account.id) entry) :
    Turn account provider s entry s (.error fault)
  | refused (messageId : String) (latestHid : Option String) (fault : Fault)
      (h : ¬ Servable provider (s.messageIds account.id) entry) :
    Turn account provider s entry (s.publish (received account provider messageId latestHid))
      (.error fault)
  | orphaned (metadata : Metadata) (raw : RawEmail) (latestHid : Option String) (fault : Fault)
      (h : ¬ Servable provider (s.messageIds account.id) entry)
      (hraw : RawOf account provider entry metadata raw) (hincomplete : ¬ metadata.Complete)
      (hnew : raw.messageId ∉ s.messageIds account.id) (hid : raw.id = s.rawEmails.length) :
    Turn account provider s entry
      ((s.publish (received account provider raw.messageId latestHid)).addRaw raw) (.error fault)
  | known (messageId : String) (latestHid : Option String) (hentry : entry.1.id = some messageId)
      (h : Servable provider (s.messageIds account.id) entry)
      (hold : messageId ∈ s.messageIds account.id) :
    Turn account provider s entry (s.publish (received account provider messageId latestHid))
      (.ok 0)
  | stored (row : RawEmail × EmailMetadataRecord) (latestHid : Option String)
      (h : Servable provider (s.messageIds account.id) entry)
      (hrow : StoredFor account provider entry row)
      (hnew : row.1.messageId ∉ s.messageIds account.id) (hid : row.1.id = s.rawEmails.length) :
    Turn account provider s entry
      ((((s.publish (received account provider row.1.messageId latestHid)).addRaw row.1).addRecord
        row.2).publish (downloaded row)) (.ok 1)

/-! ## Looking a message up -/

variable {account : EmailAccount} {provider : EmailProvider} {s : Session}

@[simp] theorem rawEmails_publish (s : Session) (event : Event) :
    (s.publish event).rawEmails = s.rawEmails := rfl

@[simp] theorem metadataRecords_publish (s : Session) (event : Event) :
    (s.publish event).metadataRecords = s.metadataRecords := rfl

@[simp] theorem syncStates_publish (s : Session) (event : Event) :
    (s.publish event).syncStates = s.syncStates := rfl

@[simp] theorem published_publish (s : Session) (event : Event) :
    (s.publish event).published = s.published ++ [event] := rfl

@[simp] theorem rawEmails_addRaw (s : Session) (raw : RawEmail) :
    (s.addRaw raw).rawEmails = s.rawEmails ++ [raw] := rfl

@[simp] theorem metadataRecords_addRaw (s : Session) (raw : RawEmail) :
    (s.addRaw raw).metadataRecords = s.metadataRecords := rfl

@[simp] theorem syncStates_addRaw (s : Session) (raw : RawEmail) :
    (s.addRaw raw).syncStates = s.syncStates := rfl

@[simp] theorem published_addRaw (s : Session) (raw : RawEmail) :
    (s.addRaw raw).published = s.published := rfl

@[simp] theorem rawEmails_addRecord (s : Session) (row : EmailMetadataRecord) :
    (s.addRecord row).rawEmails = s.rawEmails := rfl

@[simp] theorem metadataRecords_addRecord (s : Session) (row : EmailMetadataRecord) :
    (s.addRecord row).metadataRecords = s.metadataRecords ++ [row] := rfl

@[simp] theorem syncStates_addRecord (s : Session) (row : EmailMetadataRecord) :
    (s.addRecord row).syncStates = s.syncStates := rfl

@[simp] theorem published_addRecord (s : Session) (row : EmailMetadataRecord) :
    (s.addRecord row).published = s.published := rfl

@[simp] theorem messageIds_publish (s : Session) (event : Event) (accountId : Uuid) :
    (s.publish event).messageIds accountId = s.messageIds accountId := rfl

theorem mem_messageIds {accountId : Uuid} {messageId : String} :
    messageId ∈ s.messageIds accountId ↔
      ∃ row ∈ s.rawEmails, row.accountId = accountId ∧ row.messageId = messageId := by
  simp [Session.messageIds, and_assoc]

/-- A message is not found exactly when it is not stored. -/
theorem getByMessageId_eq_none {accountId : Uuid} {messageId : String} :
    getByMessageId accountId messageId s = .ok none ↔ messageId ∉ s.messageIds accountId := by
  rw [getByMessageId, scalarOneOrNone_eq_none, List.filter_eq_nil_iff, mem_messageIds]
  simp

theorem mem_of_getByMessageId {accountId : Uuid} {messageId : String} {raw : RawEmail}
    (h : getByMessageId accountId messageId s = .ok (some raw)) :
    messageId ∈ s.messageIds accountId := by
  by_contra hnew
  rw [getByMessageId_eq_none.2 hnew] at h
  cases h

/-- Where no message is stored twice, looking one up does not raise. -/
theorem getByMessageId_ne_error (hs : s.Unique) {accountId : Uuid} {messageId : String}
    {fault : Fault} : getByMessageId accountId messageId s ≠ .error fault := by
  have hfound : scalarOneOrNone multipleResultsFound _ = _ :=
    scalarOneOrNone_filter hs (accountId, messageId)
  simp only [Prod.mk.injEq] at hfound
  rw [getByMessageId, hfound]
  exact fun h => by cases h

/-! ## The turn of the loop -/

theorem answer_eq_some {entry : Summary × ℕ} {messageId : String} {rawEml : List UInt8}
    {metadata : Metadata} (hentry : entry.1.id = some messageId)
    (hraw : provider.getRawEml entry.2 messageId = .ok rawEml)
    (hmeta : provider.getMessageMetadata entry.2 messageId = .ok metadata) :
    answer provider entry = some (messageId, rawEml, metadata) := by
  simp [answer, hentry, hraw, hmeta]

theorem id_of_answer {entry : Summary × ℕ} {messageId : String} {rawEml : List UInt8}
    {metadata : Metadata} (h : answer provider entry = some (messageId, rawEml, metadata)) :
    entry.1.id = some messageId := by
  unfold answer at h
  split at h
  · cases h
  · rename_i hentry
    split at h
    · cases h
      exact hentry
    · cases h

theorem servable_iff {seen : List String} {entry : Summary × ℕ} :
    Servable provider seen entry ↔ ∃ messageId rawEml metadata,
      answer provider entry = some (messageId, rawEml, metadata) ∧
        (messageId ∈ seen ∨ metadata.Complete) := by
  rw [Servable]
  cases answer provider entry with
  | none => simp
  | some found => simp [Prod.ext_iff]

/-- The branch for a new message writes both rows, or raises with the raw row written at most. -/
theorem storeMessage_cases {entry : Summary × ℕ} {messageId : String} {rawEml : List UInt8}
    {metadata : Metadata} (hanswer : answer provider entry = some (messageId, rawEml, metadata))
    (account : EmailAccount) (s : Session) :
    (¬ metadata.Complete ∧ ∃ fault, storeMessage account messageId rawEml metadata s =
        (s, .error fault)) ∨
      (¬ metadata.Complete ∧ ∃ raw fault, RawOf account provider entry metadata raw ∧
        raw.messageId = messageId ∧ raw.id = s.rawEmails.length ∧
        storeMessage account messageId rawEml metadata s = (s.addRaw raw, .error fault)) ∨
      metadata.Complete ∧ ∃ row, StoredFor account provider entry row ∧
        row.1.messageId = messageId ∧ row.1.id = s.rawEmails.length ∧
        storeMessage account messageId rawEml metadata s =
          (((s.addRaw row.1).addRecord row.2).publish (downloaded row), .ok 1) := by
  obtain ⟨internetMessageId, senderAddress, recipientAddresses, subject, hasAttachments,
    attachmentCount⟩ := metadata
  cases internetMessageId with
  | none => exact .inl ⟨by simp [Metadata.Complete], _, rfl⟩
  | some internetMessageId =>
    refine .inr ?_
    set raw : RawEmail := ⟨s.rawEmails.length, account.id, account.tenantId, messageId,
      internetMessageId, rawEml, rawEml.length⟩
    have hraw : RawOf account provider entry ⟨some internetMessageId, senderAddress,
        recipientAddresses, subject, hasAttachments, attachmentCount⟩ raw :=
      ⟨hanswer, rfl, rfl, rfl, rfl⟩
    cases recipientAddresses with
    | none => exact .inl ⟨by simp [Metadata.Complete], raw, _, hraw, rfl, rfl, rfl⟩
    | some recipientAddresses =>
      cases senderAddress with
      | none => exact .inl ⟨by simp [Metadata.Complete], raw, _, hraw, rfl, rfl, rfl⟩
      | some senderAddress =>
        cases subject with
        | none => exact .inl ⟨by simp [Metadata.Complete], raw, _, hraw, rfl, rfl, rfl⟩
        | some subject =>
          exact .inr ⟨by simp [Metadata.Complete], (raw, _),
            ⟨_, hraw, by simp [Metadata.Complete], rfl⟩, rfl, rfl, rfl⟩

/-- **One turn of the loop** does one of five things. -/
theorem ingestMessage_cases (account : EmailAccount) (provider : EmailProvider) (hs : s.Unique)
    (latestHid : Option String) (entry : Summary × ℕ) :
    Turn account provider s entry (ingestMessage account provider (s, latestHid) entry).1.1
      (ingestMessage account provider (s, latestHid) entry).2 := by
  have hbad : answer provider entry = none →
      ¬ Servable provider (s.messageIds account.id) entry := by
    intro hnone h
    simp [Servable, hnone] at h
  cases hentry : entry.1.id with
  | none =>
    have hfail := hbad (by simp [answer, hentry])
    simp only [ingestMessage, hentry]
    exact .silent _ hfail
  | some messageId =>
    cases hraw : provider.getRawEml entry.2 messageId with
    | error fault =>
      have hfail := hbad (by simp [answer, hentry, hraw])
      simp only [ingestMessage, hentry, hraw]
      exact .refused messageId _ fault hfail
    | ok rawEml =>
      cases hmeta : provider.getMessageMetadata entry.2 messageId with
      | error fault =>
        have hfail := hbad (by simp [answer, hentry, hraw, hmeta])
        simp only [ingestMessage, hentry, hraw, hmeta]
        exact .refused messageId _ fault hfail
      | ok metadata =>
        have hanswer := answer_eq_some hentry hraw hmeta
        set heard := s.publish (received account provider messageId
          (entry.1.historyId.getD latestHid)) with hheard
        cases hfound : getByMessageId account.id messageId heard with
        | error fault => exact absurd hfound (getByMessageId_ne_error hs)
        | ok found =>
          cases found with
          | some raw =>
            have hold : messageId ∈ s.messageIds account.id := mem_of_getByMessageId hfound
            have hserve : Servable provider (s.messageIds account.id) entry :=
              servable_iff.2 ⟨_, _, _, hanswer, .inl hold⟩
            simp only [ingestMessage, hentry, hraw, hmeta]
            rw [← hheard, hfound]
            exact .known messageId _ hentry hserve hold
          | none =>
            have hnew : messageId ∉ s.messageIds account.id := getByMessageId_eq_none.1 hfound
            have hserve : Servable provider (s.messageIds account.id) entry ↔ metadata.Complete := by
              rw [servable_iff]
              constructor
              · rintro ⟨_, _, _, h, hmem⟩
                rw [hanswer] at h
                cases h
                exact hmem.resolve_left hnew
              · exact fun h => ⟨_, _, _, hanswer, .inr h⟩
            simp only [ingestMessage, hentry, hraw, hmeta]
            rw [← hheard, hfound]
            rcases storeMessage_cases hanswer account heard with
              ⟨hincomplete, fault, hrun⟩ | ⟨hincomplete, raw, fault, hrow, rfl, hid, hrun⟩ |
                ⟨hcomplete, row, hrow, rfl, hid, hrun⟩
            · rw [hrun]
              exact .refused messageId _ fault (mt hserve.1 hincomplete)
            · rw [hrun]
              exact .orphaned metadata raw _ fault (mt hserve.1 hincomplete) hrow hincomplete hnew hid
            · rw [hrun]
              exact .stored row _ (hserve.2 hcomplete) hrow hnew hid

/-! ## The loop -/

/-- The entries of a listing that are done, up to the first that cannot be. -/
def served (provider : EmailProvider) : List String → List (Summary × ℕ) → List (Summary × ℕ)
  | _, [] => []
  | seen, entry :: entries =>
    if Servable provider seen entry then
      entry :: served provider (entry.1.id.toList ++ seen) entries
    else []

/-- Those of them whose message was not stored before. -/
def newEntries (provider : EmailProvider) (seen : List String) (entries : List (Summary × ℕ)) :
    List (Summary × ℕ) :=
  firsts (fun entry => entry.1.id) seen (served provider seen entries)

/-- What the loop leaves of a session: the rows of the new messages, and at most one raw row
without its record, that of the entry the loop failed at. -/
structure Loaded (account : EmailAccount) (provider : EmailProvider) (seen : List String)
    (entries : List (Summary × ℕ)) (s s' : Session)
    (rows : List (RawEmail × EmailMetadataRecord)) (orphans : List RawEmail) : Prop where
  rawEmails : s'.rawEmails = s.rawEmails ++ (rows.map Prod.fst ++ orphans)
  metadataRecords : s'.metadataRecords = s.metadataRecords ++ rows.map Prod.snd
  stored : List.Forall₂ (StoredFor account provider) (newEntries provider seen entries) rows
  orphans_le : orphans.length ≤ 1
  orphaned : ∀ raw ∈ orphans, ∃ entry rest metadata,
    entries = served provider seen entries ++ entry :: rest ∧
      RawOf account provider entry metadata raw ∧ ¬ metadata.Complete

theorem served_cons_of_not {seen : List String} {entry : Summary × ℕ}
    (h : ¬ Servable provider seen entry) (entries : List (Summary × ℕ)) :
    served provider seen (entry :: entries) = [] := if_neg h

theorem served_cons_of {seen : List String} {entry : Summary × ℕ}
    (h : Servable provider seen entry) (entries : List (Summary × ℕ)) :
    served provider seen (entry :: entries) =
      entry :: served provider (entry.1.id.toList ++ seen) entries := if_pos h

/-- What is known is not served anew. -/
theorem newEntries_cons_of_mem {seen : List String} {entry : Summary × ℕ} {messageId : String}
    (h : Servable provider seen entry) (hid : entry.1.id = some messageId)
    (hold : messageId ∈ seen) (entries : List (Summary × ℕ)) :
    newEntries provider seen (entry :: entries) = newEntries provider (messageId :: seen) entries := by
  have hsame : ∀ k, k ∈ seen ↔ k ∈ messageId :: seen := by
    intro k
    rw [List.mem_cons]
    exact ⟨Or.inr, fun hk => hk.elim (fun heq => heq ▸ hold) id⟩
  rw [newEntries, served_cons_of h, hid]
  refine Eq.trans ?_ (firsts_congr hsame _)
  exact firsts_cons_of_mem hid hold

theorem newEntries_cons_of_notMem {seen : List String} {entry : Summary × ℕ} {messageId : String}
    (h : Servable provider seen entry) (hid : entry.1.id = some messageId)
    (hnew : messageId ∉ seen) (entries : List (Summary × ℕ)) :
    newEntries provider seen (entry :: entries) =
      entry :: newEntries provider (messageId :: seen) entries := by
  rw [newEntries, served_cons_of h, hid]
  exact firsts_cons_of_notMem hid hnew

theorem servable_congr (provider : EmailProvider) {seen seen' : List String}
    (h : ∀ k, k ∈ seen ↔ k ∈ seen') (entry : Summary × ℕ) :
    Servable provider seen entry ↔ Servable provider seen' entry := by
  simp only [servable_iff, h]

theorem messageIds_addRaw {raw : RawEmail} (h : raw.accountId = account.id) (s : Session) :
    (s.addRaw raw).messageIds account.id = s.messageIds account.id ++ [raw.messageId] := by
  simp [Session.messageIds, List.filter_append, h]

theorem unique_addRaw (hs : s.Unique) (raw : RawEmail)
    (hnew : raw.messageId ∉ s.messageIds raw.accountId) : (s.addRaw raw).Unique := by
  rw [Session.Unique, rawEmails_addRaw, List.map_append, List.nodup_append]
  refine ⟨hs, List.nodup_singleton _, ?_⟩
  rintro key hkey key' hkey' rfl
  rw [List.map_singleton, List.mem_singleton] at hkey'
  obtain ⟨row, hrow, hsame⟩ := List.mem_map.1 hkey
  rw [hkey'] at hsame
  exact hnew (mem_messageIds.2 ⟨row, hrow, (Prod.mk.inj hsame).1, (Prod.mk.inj hsame).2⟩)

/-- The loop went through the listing: it came to its end exactly when every entry was served, and
counted the new ones. -/
def Exact (account : EmailAccount) (provider : EmailProvider) (seen : List String)
    (entries : List (Summary × ℕ)) (s s' : Session) {ε : Type} (result : Except ε ℕ) : Prop :=
  ∃ rows orphans, Loaded account provider seen entries s s' rows orphans ∧
    ((∃ n, result = .ok n) ↔ served provider seen entries = entries) ∧
    ∀ n, result = .ok n → n = rows.length ∧ orphans = []

/-- A turn that raises ends the loop. -/
theorem exact_of_error {seen : List String} {entry : Summary × ℕ} {entries : List (Summary × ℕ)}
    (h : ¬ Servable provider seen entry) {s₁ : Session} (orphans : List RawEmail) (fault : Fault)
    (hraw : s₁.rawEmails = s.rawEmails ++ orphans)
    (hrecords : s₁.metadataRecords = s.metadataRecords) (hle : orphans.length ≤ 1)
    (horphans : ∀ raw ∈ orphans, ∃ metadata, RawOf account provider entry metadata raw ∧
      ¬ metadata.Complete) :
    Exact account provider seen (entry :: entries) s s₁ (.error fault) := by
  have hserved := served_cons_of_not h entries
  refine ⟨[], orphans, ⟨by simpa using hraw, by simpa using hrecords, ?_, hle, ?_⟩, ?_, ?_⟩
  · rw [newEntries, hserved]
    exact .nil
  · intro raw hmem
    obtain ⟨metadata, hrow⟩ := horphans raw hmem
    exact ⟨entry, entries, metadata, by rw [hserved]; rfl, hrow⟩
  · simp [hserved]
  · intro n hn
    cases hn

/-- A turn that does not raise leaves the rest of the listing to do. -/
theorem exact_of_ok {seen : List String} {entry : Summary × ℕ} {entries : List (Summary × ℕ)}
    {messageId : String} {s₁ s₂ : Session} (rows₁ : List (RawEmail × EmailMetadataRecord))
    {result : Except Fault ℕ} (hserve : Servable provider seen entry)
    (hid : entry.1.id = some messageId)
    (hraw : s₁.rawEmails = s.rawEmails ++ rows₁.map Prod.fst)
    (hrecords : s₁.metadataRecords = s.metadataRecords ++ rows₁.map Prod.snd)
    (hrows : ∀ rows, List.Forall₂ (StoredFor account provider)
      (newEntries provider (messageId :: seen) entries) rows →
      List.Forall₂ (StoredFor account provider) (newEntries provider seen (entry :: entries))
        (rows₁ ++ rows))
    (hrest : Exact account provider (messageId :: seen) entries s₁ s₂ result) :
    Exact account provider seen (entry :: entries) s s₂ (result.map (rows₁.length + ·)) := by
  obtain ⟨rows, orphans, hloaded, hok, hcount⟩ := hrest
  have hserved : served provider seen (entry :: entries) =
      entry :: served provider (messageId :: seen) entries := by
    rw [served_cons_of hserve, hid]
    rfl
  refine ⟨rows₁ ++ rows, orphans, ⟨?_, ?_, hrows rows hloaded.stored, hloaded.orphans_le, ?_⟩,
    ?_, ?_⟩
  · rw [hloaded.rawEmails, hraw]
    simp
  · rw [hloaded.metadataRecords, hrecords]
    simp
  · intro raw hmem
    obtain ⟨entry', rest, metadata, heq, hrow⟩ := hloaded.orphaned raw hmem
    exact ⟨entry', rest, metadata, by rw [hserved, List.cons_append, ← heq], hrow⟩
  · rw [hserved, List.cons_inj_right, ← hok]
    cases result <;> simp [Except.map]
  · intro n hn
    cases result with
    | error fault => cases hn
    | ok m =>
      cases hn
      obtain ⟨hm, horphans⟩ := hcount m rfl
      exact ⟨by rw [hm, List.length_append], horphans⟩

/-- **The loop stores every new message once**, in the order of the listing, and stops where it
cannot go on. -/
theorem total_ingestMessage (account : EmailAccount) (provider : EmailProvider) (hs : s.Unique)
    {seen : List String}
    (hseen : ∀ k, k ∈ seen ↔ k ∈ s.messageIds account.id) (latestHid : Option String)
    (entries : List (Summary × ℕ)) :
    Exact account provider seen entries s
      (Loop.total (ingestMessage account provider) (s, latestHid) entries).1.1
      (Loop.total (ingestMessage account provider) (s, latestHid) entries).2 := by
  induction entries generalizing s seen latestHid with
  | nil =>
    refine ⟨[], [], ⟨by simp [Loop.total, Loop.forEach], by simp [Loop.total, Loop.forEach], .nil,
      Nat.zero_le 1, by simp⟩, by simp [Loop.total, Loop.forEach, served, Except.map], ?_⟩
    intro n hn
    cases hn
    exact ⟨rfl, rfl⟩
  | cons entry entries ih =>
    have hturn := ingestMessage_cases account provider hs latestHid entry
    generalize hrun : ingestMessage account provider (s, latestHid) entry = turn at hturn
    obtain ⟨⟨s₁, hid₁⟩, result⟩ := turn
    have hservable := servable_congr provider hseen entry
    cases result with
    | error fault =>
      rw [Loop.total_cons_error hrun entries]
      cases hturn with
      | silent fault h =>
        exact exact_of_error (mt hservable.1 h) [] fault (by simp) rfl (Nat.zero_le 1) (by simp)
      | refused messageId latestHid fault h =>
        exact exact_of_error (mt hservable.1 h) [] fault (by simp) rfl (Nat.zero_le 1) (by simp)
      | orphaned metadata raw latestHid fault h hraw hincomplete hnew hid =>
        exact exact_of_error (mt hservable.1 h) [raw] fault rfl rfl (Nat.le_refl 1)
          (by simpa using ⟨metadata, hraw, hincomplete⟩)
    | ok n =>
      rw [Loop.total_cons_ok hrun entries]
      cases hturn with
      | known messageId latestHid hid hserve hold =>
        have hknown := (hseen messageId).2 hold
        have hserve' := hservable.2 hserve
        refine exact_of_ok [] hserve' hid ?_ ?_ ?_
          (ih (s := s.publish (received account provider messageId latestHid)) hs ?_ hid₁)
        · exact (List.append_nil _).symm
        · exact (List.append_nil _).symm
        · intro rows hrows
          rwa [newEntries_cons_of_mem hserve' hid hknown]
        · intro k
          show _ ↔ k ∈ s.messageIds account.id
          rw [← hseen, List.mem_cons]
          exact ⟨fun hk => hk.elim (fun heq => heq ▸ hknown) id, Or.inr⟩
      | stored row latestHid hserve hrow hnew hposition =>
        obtain ⟨metadata, hraw, -, -⟩ := hrow.answered
        have hid := id_of_answer hraw.answered
        have hserve' := hservable.2 hserve
        have hs₁ := unique_addRaw hs row.1 (by rwa [hraw.accountId])
        refine exact_of_ok [row] hserve' hid rfl rfl ?_
          (ih (s := (((s.publish _).addRaw row.1).addRecord row.2).publish _) hs₁ ?_ hid₁)
        · intro rows hrows
          rw [newEntries_cons_of_notMem hserve' hid (mt (hseen _).1 hnew)]
          exact .cons hrow hrows
        · intro k
          show _ ↔ k ∈ (s.addRaw row.1).messageIds account.id
          rw [messageIds_addRaw hraw.accountId, List.mem_append, ← hseen, List.mem_cons,
            List.mem_singleton]
          exact or_comm

/-! ## The synchronization -/

/-- No account has two sync states. -/
def Session.OneState (s : Session) : Prop := (s.syncStates.map (·.accountId)).Nodup

/-- The state of an account, if it has one. -/
def Session.state? (s : Session) (accountId : Uuid) : Option MailboxSyncState :=
  s.syncStates.find? fun row => row.accountId = accountId

section Progress

variable (account) (status : SyncStatus) (lastHistoryId errorMessage : Option String)

@[simp] theorem accountId_progress (row : MailboxSyncState) :
    (row.progress status lastHistoryId errorMessage).accountId = row.accountId := rfl

/-- The session after `update_sync_progress`, which writes one row. -/
def Session.progressed (s : Session) : Session :=
  (updateSyncProgress account status lastHistoryId errorMessage s).1

theorem getByAccountId_of_oneState (hs : s.OneState) (accountId : Uuid) :
    getByAccountId accountId s = .ok (s.state? accountId) := scalarOneOrNone_filter hs accountId

/-- With one state for each account, `update_sync_progress` does not raise. -/
theorem updateSyncProgress_of_oneState (hs : s.OneState) :
    updateSyncProgress account status lastHistoryId errorMessage s =
      (s.progressed account status lastHistoryId errorMessage, .ok ()) := by
  unfold Session.progressed updateSyncProgress
  rw [getByAccountId_of_oneState hs]
  cases s.state? account.id <;> rfl

@[simp] theorem rawEmails_progressed (s : Session) :
    (s.progressed account status lastHistoryId errorMessage).rawEmails = s.rawEmails := by
  unfold Session.progressed updateSyncProgress
  split <;> rfl

@[simp] theorem metadataRecords_progressed (s : Session) :
    (s.progressed account status lastHistoryId errorMessage).metadataRecords =
      s.metadataRecords := by
  unfold Session.progressed updateSyncProgress
  split <;> rfl

@[simp] theorem published_progressed (s : Session) :
    (s.progressed account status lastHistoryId errorMessage).published = s.published := by
  unfold Session.progressed updateSyncProgress
  split <;> rfl

/-- Both branches, for a table with one state for each account. -/
theorem syncStates_progressed (hs : s.OneState) :
    (s.progressed account status lastHistoryId errorMessage).syncStates =
      match s.state? account.id with
      | some _ => s.syncStates.map fun row =>
          if row.accountId = account.id then row.progress status lastHistoryId errorMessage
          else row
      | none => s.syncStates ++
          [⟨account.id, account.tenantId, status, lastHistoryId, errorMessage⟩] := by
  unfold Session.progressed updateSyncProgress
  rw [getByAccountId_of_oneState hs]
  cases s.state? account.id <;> rfl

theorem oneState_progressed (hs : s.OneState) :
    (s.progressed account status lastHistoryId errorMessage).OneState := by
  rw [Session.OneState, syncStates_progressed account status lastHistoryId errorMessage hs]
  cases hfound : s.state? account.id with
  | some row =>
    have hsame : ((fun row : MailboxSyncState => row.accountId) ∘ fun row =>
        if row.accountId = account.id then row.progress status lastHistoryId errorMessage
        else row) = fun row => row.accountId := by
      funext row
      by_cases hrow : row.accountId = account.id <;> simp [hrow]
    show ((s.syncStates.map _).map _).Nodup
    rw [List.map_map, hsame]
    exact hs
  | none =>
    have hnew : ∀ row ∈ s.syncStates, row.accountId ≠ account.id := by
      simpa [Session.state?] using hfound
    simp only [List.map_append, List.nodup_append]
    exact ⟨hs, by simp, by simpa using hnew⟩

end Progress

/-- The loop does not touch the sync states. -/
theorem syncStates_turn {entry : Summary × ℕ} {s' : Session} {result : Except Fault ℕ}
    (h : Turn account provider s entry s' result) : s'.syncStates = s.syncStates := by
  cases h <;> rfl

theorem unique_turn {entry : Summary × ℕ} {s' : Session} {result : Except Fault ℕ}
    (hs : s.Unique) (h : Turn account provider s entry s' result) : s'.Unique := by
  cases h with
  | silent | refused | known => exact hs
  | orphaned metadata raw latestHid fault h hraw hincomplete hnew hid =>
    exact unique_addRaw hs raw (by rwa [hraw.accountId])
  | stored row latestHid h hrow hnew hid =>
    obtain ⟨metadata, hraw, -, -⟩ := hrow.answered
    exact unique_addRaw hs row.1 (by rwa [hraw.accountId])

/-- What every turn keeps, the loop keeps. -/
theorem fetchAll_inv {I : Session → Prop} (hunique : ∀ s, I s → s.Unique)
    (hturn : ∀ s entry s' result, I s → Turn account provider s entry s' result → I s') (hs : I s)
    (limit : ℤ) : I (fetchAll account provider limit s).1.1 := by
  unfold fetchAll
  split
  · exact hs
  · refine Loop.total_inv (I := fun s : Session × Option String => I s.1) ?_ hs
    intro s entry _ hs
    exact hturn s.1 entry _ _ hs (ingestMessage_cases account provider (hunique s.1 hs) s.2 entry)

theorem fetchAll_keeps (hs : s.Unique) (hstates : s.OneState) (limit : ℤ) :
    (fetchAll account provider limit s).1.1.Unique ∧
      (fetchAll account provider limit s).1.1.OneState := by
  refine fetchAll_inv (I := fun s => s.Unique ∧ s.OneState) (fun _ h => h.1) ?_ ⟨hs, hstates⟩ limit
  rintro s entry s' result ⟨hs, hstates⟩ h
  exact ⟨unique_turn hs h, by rwa [Session.OneState, syncStates_turn h]⟩

/-- The session with the account marked as being synchronized. -/
def Session.started (s : Session) (account : EmailAccount) : Session :=
  s.progressed account .syncing none none

/-- **A synchronization**, with one sync state for each account: what the loop leaves, and what is
written about it at the end. -/
theorem runInitialSync_eq (hs : s.Unique) (hstates : s.OneState) {call : Call}
    (haccount : call.account? = some account) (hprovider : resolveProvider call account = .ok provider) :
    let loop := fetchAll account provider call.limit (s.started account)
    runInitialSync s call =
      match loop.2 with
      | .ok n =>
        ((loop.1.1.progressed account .idle loop.1.2 none).publish
          (.mailboxSyncCompleted account.tenantId account.id n loop.1.2), .ok n)
      | .error (.exception message) =>
        ((loop.1.1.progressed account .failed none (some message)).publish
          (.mailboxSyncFailed account.tenantId account.id message),
          .error (.mailboxSync ("Mailbox sync failed: " ++ message)))
      | .error .cancelled => (loop.1.1, .error .cancelled) := by
  intro loop
  have hstarted : (s.started account).OneState := oneState_progressed account _ _ _ hstates
  have hunique : (s.started account).Unique := by
    rwa [Session.Unique, Session.started, rawEmails_progressed]
  have hloop : loop.1.1.OneState := (fetchAll_keeps hunique hstarted call.limit).2
  unfold runInitialSync
  rw [haccount]
  simp only [hprovider]
  rw [updateSyncProgress_of_oneState account _ _ _ hstates]
  show synchronize account provider call.limit (s.started account) = _
  unfold synchronize
  rcases hrun : fetchAll account provider call.limit (s.started account) with ⟨⟨s₁, latestHid⟩, result⟩
  have hloop' : loop = ((s₁, latestHid), result) := hrun
  rw [hloop'] at hloop ⊢
  cases result with
  | ok n => simp only [updateSyncProgress_of_oneState account _ _ _ hloop]
  | error fault =>
    cases fault with
    | cancelled => rfl
    | exception message =>
      simp only [handleFault, updateSyncProgress_of_oneState account _ _ _ hloop]

theorem unique_started (hs : s.Unique) (account : EmailAccount) : (s.started account).Unique := by
  rwa [Session.Unique, Session.started, rawEmails_progressed]

theorem messageIds_started (account : EmailAccount) (accountId : Uuid) :
    (s.started account).messageIds accountId = s.messageIds accountId := by
  rw [Session.messageIds, Session.started, rawEmails_progressed]
  rfl

/-- Only the rows matter, and whether and with what number the loop comes to its end. -/
theorem Exact.of_rows {seen : List String} {entries : List (Summary × ℕ)} {s₁ s₂ s₃ : Session}
    {ε ε' : Type} {result : Except ε ℕ} {result' : Except ε' ℕ}
    (h : Exact account provider seen entries s₁ s₂ result) (hraw : s.rawEmails = s₁.rawEmails)
    (hrecords : s.metadataRecords = s₁.metadataRecords) (hraw' : s₃.rawEmails = s₂.rawEmails)
    (hrecords' : s₃.metadataRecords = s₂.metadataRecords)
    (hresult : ∀ n, result' = .ok n ↔ result = .ok n) :
    Exact account provider seen entries s s₃ result' := by
  obtain ⟨rows, orphans, hloaded, hok, hcount⟩ := h
  refine ⟨rows, orphans, ⟨?_, ?_, hloaded.stored, hloaded.orphans_le, hloaded.orphaned⟩, ?_, ?_⟩
  · rw [hraw', hraw, hloaded.rawEmails]
  · rw [hrecords', hrecords, hloaded.metadataRecords]
  · simpa only [hresult] using hok
  · simpa only [hresult] using hcount

/-- **A synchronization stores every new message of the listing once**, with its envelope, in the
order of the listing, up to the first message that cannot be served; it returns a number exactly
when there is none, and then that of the new messages. -/
theorem sync_stores (hs : s.Unique) (hstates : s.OneState) {call : Call} {summaries : List Summary}
    (haccount : call.account? = some account) (hprovider : resolveProvider call account = .ok provider)
    (hlisting : provider.fetchInitialSync call.limit = .ok summaries) :
    Exact account provider (s.messageIds account.id) summaries.zipIdx s
      (runInitialSync s call).1 (runInitialSync s call).2 := by
  have hloop := total_ingestMessage account provider (unique_started hs account)
    (fun k => by rw [messageIds_started]) none summaries.zipIdx
  have hfetch : fetchAll account provider call.limit (s.started account) =
      Loop.total (ingestMessage account provider) (s.started account, none) summaries.zipIdx := by
    rw [fetchAll, hlisting]
  have hraw : s.rawEmails = (s.started account).rawEmails := (rawEmails_progressed ..).symm
  have hrecords : s.metadataRecords = (s.started account).metadataRecords :=
    (metadataRecords_progressed ..).symm
  rw [runInitialSync_eq hs hstates haccount hprovider, hfetch]
  cases hresult : (Loop.total (ingestMessage account provider) (s.started account, none)
      summaries.zipIdx).2 with
  | ok n =>
    rw [hresult] at hloop
    exact hloop.of_rows hraw hrecords (by simp) (by simp) fun m => by simp
  | error fault =>
    rw [hresult] at hloop
    cases fault with
    | cancelled => exact hloop.of_rows hraw hrecords rfl rfl fun m => by simp
    | exception message => exact hloop.of_rows hraw hrecords (by simp) (by simp) fun m => by simp

/-! ## A mailbox -/

/-- A mailbox in use. -/
def someAccount : EmailAccount := ⟨Uuid.ofNat 7, Uuid.ofNat 1, "gmail", true⟩

/-- A provider that lists two messages, of which the second has no history identifier. -/
def someProvider : EmailProvider where
  providerName := "GMAIL"
  fetchInitialSync _ := .ok [⟨some "m1", some (some "11")⟩, ⟨some "m2", none⟩]
  getRawEml _ messageId := .ok messageId.toUTF8.toList
  getMessageMetadata _ messageId := .ok ⟨some ("<" ++ messageId ++ "@x.com>"), some "a@x.com",
    some ["b@x.com"], some (some messageId), some false, some 0⟩

/-- A synchronization of the mailbox. -/
def someCall : Call := ⟨[someAccount], someProvider, someProvider, Uuid.ofNat 7, 2⟩

end ScamOn.Ingestion
