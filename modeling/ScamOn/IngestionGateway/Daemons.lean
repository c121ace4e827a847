import ScamOn.IngestionGateway.Gateway
import ScamOn.Lib.Json
import ScamOn.Lib.Loop

/-!
# The webhook daemons

`MSGraphIngestionDaemon` and `GmailIngestionDaemon`: what they make of a change
notification, and how they take a message from there through the gateway.

* `Codec` holds the library functions they apply to JSON values; `Attempt` is
  what the environment does while one message is handled.
* `GraphDaemon.processNotification` and `GmailDaemon.processPubsubEnvelope` are
  the two entry points.
* `processNotificationItem_end` says how a Graph notification can end.
-/

namespace ScamOn.IngestionGateway

/-! ## Library functions and exceptions -/

/-- What the daemons and endpoints use of the standard library on texts and JSON
values.  `decodeData` is base64, UTF-8 and JSON decoding in one; `int` fails with
`none` for the exceptions that the daemon swallows. -/
structure Codec where
  lower : String → String
  str : Json → String
  int : Json → Except (Option String) ℤ
  dumps : Json → String
  decodeData : Json → Except String Json

/-- `AttributeError`, for a method that the value's type lacks. -/
def attributeError (v : Json) (method : String) : IngestError :=
  .other ("'" ++ v.typeName ++ "' object has no attribute '" ++ method ++ "'")

/-- All characters are ASCII. -/
def isAscii (s : String) : Bool := s.toList.all fun c => c.toNat < 128

/-- `hmac.compare_digest` on a text and a value: it raises unless both are texts
of ASCII characters. -/
def compareDigest (a : String) : Json → Except String Bool
  | .str b =>
    if isAscii a ∧ isAscii b then .ok (a = b)
    else .error "comparing strings with non-ASCII characters is not supported"
  | v =>
    .error ("unsupported operand types(s) or combination of types: 'str' and '" ++
      v.typeName ++ "'")

/-- The moment a message is handled, what fetching it returns or raises, and what
the pipeline raises on it. -/
structure Attempt where
  now : ℚ
  fetched : Except String ByteArray
  pipeline : Option IngestError

/-- The loop that both daemons have: the messages ingested, up to an exception. -/
def collect {α : Type} (f : Gateway → α → Gateway × Except IngestError (Option IngestedEmail))
    (y : Gateway) (as : List α) : Gateway × Except IngestError (List IngestedEmail) :=
  let done := Loop.forEach f y as
  (done.1, done.2.map List.reduceOption)

/-! ## Microsoft Graph -/

/-- `MSGraphIngestionDaemon`. -/
structure GraphDaemon where
  mailbox : Mailbox
  clientState : Option String
  provider_eq : mailbox.provider = .msGraph
  deriving DecidableEq

namespace GraphDaemon

/-- `validate_client_state`, which may raise. -/
def validateClientState (d : GraphDaemon) (received : Json) : Except String Bool :=
  match d.clientState with
  | none => .ok true
  | some state =>
    if state = "" then .ok true
    else if received.truthy = false then .ok false
    else compareDigest state received

/-- The message identifier of a notification, if it is one to process. -/
def messageIdOf (c : Codec) (item : List (String × Json)) : Except IngestError (Option String) :=
  match Json.field item "changeType" (.str "") with
  | .str changeType =>
    match Json.field item "resourceData" (.obj []) with
    | .obj resourceData =>
      if (Json.field resourceData "id" .null).truthy = false then .ok none
      else if c.lower changeType ≠ "" ∧ c.lower changeType ∉ ["created", "updated"] then .ok none
      else
        match Json.field resourceData "id" .null with
        | .str id => .ok (some id)
        | v => .error (attributeError v "strip")
    | v => .error (attributeError v "get")
  | v => .error (attributeError v "lower")

/-- The body of `process_notification` for one notification. -/
def processNotificationItem (x : Externals) (c : Codec) (d : GraphDaemon) (y : Gateway)
    (item : List (String × Json) × Attempt) : Gateway × Except IngestError (Option IngestedEmail) :=
  match d.validateClientState (Json.field item.1 "clientState" .null) with
  | .error text => (y, .error (.other text))
  | .ok false => (y, .error (.authenticationFailed "Invalid MS Graph notification clientState"))
  | .ok true =>
    match messageIdOf c item.1 with
    | .error exc => (y, .error exc)
    | .ok none => (y, .ok none)
    | .ok (some msgId) =>
      ingestOnce x d.mailbox y item.2.now msgId fun y =>
        fetchAndIngest x d.mailbox "MIME" ("Failed to fetch MIME for " ++ msgId ++ ": ") y msgId
          item.2.fetched item.2.pipeline

/-- `process_notification`. -/
def processNotification (x : Externals) (c : Codec) (d : GraphDaemon) (y : Gateway)
    (items : List (List (String × Json) × Attempt)) :
    Gateway × Except IngestError (List IngestedEmail) :=
  collect (processNotificationItem x c d) y items

end GraphDaemon

/-- How a notification ends for a daemon: refused or passed over, with nothing
done, or handed to the gateway. -/
inductive ItemEnd (x : Externals) (c : Codec) (d : GraphDaemon) (y : Gateway)
    (item : List (String × Json)) (attempt : Attempt) :
    Gateway × Except IngestError (Option IngestedEmail) → Prop
  | refused (exc : IngestError) : ItemEnd x c d y item attempt (y, .error exc)
  | passed : ItemEnd x c d y item attempt (y, .ok none)
  | once (msgId : String) (hid : GraphDaemon.messageIdOf c item = .ok (some msgId))
      (r : Gateway × Except IngestError (Option IngestedEmail))
      (hr : OnceEnd x d.mailbox y attempt.now msgId r) : ItemEnd x c d y item attempt r

theorem processNotificationItem_end (x : Externals) (c : Codec) (d : GraphDaemon) (y : Gateway)
    (item : List (String × Json)) (attempt : Attempt) :
    ItemEnd x c d y item attempt (d.processNotificationItem x c y (item, attempt)) := by
  unfold GraphDaemon.processNotificationItem
  cases d.validateClientState (Json.field item "clientState" .null) with
  | error text => exact .refused _
  | ok valid =>
    cases valid with
    | false => exact .refused _
    | true =>
      cases hid : GraphDaemon.messageIdOf c item with
      | error exc => exact .refused _
      | ok id =>
        cases id with
        | none => exact .passed
        | some msgId =>
          refine .once msgId hid _ (ingestOnce_end x d.mailbox y attempt.now msgId fun y => ?_)
          exact fetchAndIngest_end x d.mailbox _ _ y msgId _ _

/-! ## Gmail -/

/-- `GmailIngestionDaemon`. -/
structure GmailDaemon where
  mailbox : Mailbox
  verificationToken : Option String
  provider_eq : mailbox.provider = .gmail
  deriving DecidableEq

/-- What the environment does for a Gmail daemon during a request: the answer of
the history API, if the client has one, and the attempts at its messages. -/
structure GmailCall where
  listHistoryMessages : Option (String → Option ℤ → Except String (List String))
  attempts : ℕ → Attempt

namespace GmailDaemon

/-- Steps 1 and 2 of `process_pubsub_envelope`: the message object and the
payload in it. -/
def decodeEnvelope (c : Codec) (envelope : List (String × Json)) :
    Except IngestError (List (String × Json) × List (String × Json)) :=
  match Json.field envelope "message" .null with
  | .obj (first :: rest) =>
    let data := Json.field (first :: rest) "data" .null
    if data.truthy = false then
      .error (.messageRetrieval "Malformed Pub/Sub envelope: missing base64 data field")
    else
      match c.decodeData data with
      | .error text =>
        .error (.messageRetrieval ("Failed to decode Pub/Sub data payload: " ++ text))
      | .ok (.obj payload) => .ok (first :: rest, payload)
      | .ok v => .error (attributeError v "get")
  | _ => .error (.messageRetrieval "Malformed Pub/Sub envelope: missing message object")

/-- Step 3: the notification is for another mailbox. -/
def addressedElsewhere (c : Codec) (d : GmailDaemon) (payload : List (String × Json)) :
    Except IngestError Bool :=
  match Json.field payload "emailAddress" .null with
  | .str address =>
    .ok (address ≠ "" ∧ c.lower address ≠ c.lower d.mailbox.mailboxAddress)
  | v => if v.truthy then .error (attributeError v "lower") else .ok false

/-- The history identifier after the notification. -/
def nextHistoryId (c : Codec) (payload : List (String × Json)) (last : Option ℤ) :
    Except IngestError (Option ℤ) :=
  let historyId := Json.field payload "historyId" .null
  if historyId.truthy then
    match c.int historyId with
    | .ok n => .ok (some n)
    | .error none => .ok last
    | .error (some text) => .error (.other text)
  else .ok last

/-- Step 4: the identifiers of the messages to retrieve. -/
def resolveMessageIds (c : Codec) (d : GmailDaemon) (call : GmailCall)
    (messageData payload : List (String × Json)) (historyId : Option ℤ) :
    Except IngestError (List String) :=
  match call.listHistoryMessages with
  | some list =>
    match list d.mailbox.mailboxAddress historyId with
    | .error text => .error (.other text)
    | .ok ids => .ok ids
  | none =>
    match payload.lookup "messageId" with
    | some v => .ok [c.str v]
    | none =>
      let pubsubId := Json.field messageData "messageId" .null
      if pubsubId.truthy then .ok ["gmail_msg_" ++ c.str pubsubId] else .ok []

/-- Steps 5 to 10, for one message. -/
def ingestMessage (x : Externals) (d : GmailDaemon) (y : Gateway) (p : String × Attempt) :
    Gateway × Except IngestError (Option IngestedEmail) :=
  ingestOnce x d.mailbox y p.2.now p.1 fun y =>
    fetchAndIngest x d.mailbox "Gmail MIME" "Failed to retrieve Gmail MIME: " y p.1 p.2.fetched
      p.2.pipeline

/-- `process_pubsub_envelope`, from and to the daemon's last history identifier. -/
def processPubsubEnvelope (x : Externals) (c : Codec) (d : GmailDaemon) (y : Gateway)
    (last : Option ℤ) (envelope : List (String × Json)) (call : GmailCall) :
    (Gateway × Option ℤ) × Except IngestError (List IngestedEmail) :=
  match decodeEnvelope c envelope with
  | .error exc => ((y, last), .error exc)
  | .ok (messageData, payload) =>
    match d.addressedElsewhere c payload with
    | .error exc => ((y, last), .error exc)
    | .ok true => ((y, last), .ok [])
    | .ok false =>
      match nextHistoryId c payload last with
      | .error exc => ((y, last), .error exc)
      | .ok historyId =>
        match d.resolveMessageIds c call messageData payload historyId with
        | .error exc => ((y, historyId), .error exc)
        | .ok ids =>
          let done := collect (d.ingestMessage x) y
            (ids.zipIdx.map fun p => (p.1, call.attempts p.2))
          ((done.1, historyId), done.2)

end GmailDaemon

end ScamOn.IngestionGateway
