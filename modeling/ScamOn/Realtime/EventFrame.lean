import ScamOn.Lib.PyValue
import ScamOn.Lib.UuidText
import ScamOn.Notifications.Sanitizer

/-!
# Frames of the event broadcaster

`_sanitize_and_serialize_event` makes the JSON text that the clients of a tenant get of an event:
an envelope with the type of the event, the time, and the sanitised event.

* `FrameSanitised` says of an event and a frame that the type has passed through `sanitize_text`
  and that the payload is a sanitised form of the event.
* `sanitised_iff`: when the result of `sanitize_metadata`, and a frame, are what they are for.
-/

namespace ScamOn.Realtime

open Notifications

variable {σ : Type*}

/-- An event as `broadcast_event` takes it. -/
inductive EventInput (σ : Type*)
  /-- A `BaseEvent`: its `tenant_id`, the name of its class, and `model_dump()`. -/
  | base (tenantId : Uuid) (className : String) (dump : List (Key σ × MetaValue σ))
  | dict (fields : List (Key σ × MetaValue σ))
  /-- Anything else, by `type(event)`. -/
  | other (type : String)

/-- What a frame is made with. -/
structure FrameEnv (σ : Type*) extends PyText σ where
  /-- `str(v)` of a container. -/
  repr : MetaValue σ → Str
  /-- `datetime.now(UTC).isoformat()`. -/
  now : Str
  /-- `json.dumps(v, default=str)`, or what it raises. -/
  dumps : MetaValue σ → Except PyException Str

variable (env : FrameEnv σ)

/-- `str(v)`. -/
def strOf : MetaValue σ → Str
  | .str s => s
  | .scalar x => env.str x
  | v => env.repr v

/-- `event.get(name)`. -/
def getField (name : String) : List (Key σ × MetaValue σ) → Option (MetaValue σ)
  | [] => none
  | (.str s, v) :: fields => if s = name.toList then some v else getField name fields
  | (.scalar _, _) :: fields => getField name fields

/-- `raw_dict`. -/
def rawDict : EventInput σ → MetaValue σ
  | .base _ _ dump => .dict dump
  | .dict fields => .dict fields
  | .other _ => .dict []

/-- `event_type`. -/
def eventType : EventInput σ → Str
  | .base _ className _ => className.toList
  | .dict fields =>
    match getField "event_type" fields with
    | some v => strOf env v
    | none => "SecurityEvent".toList
  | .other _ => []

/-- `tenant_id`. -/
def tenantOf : EventInput σ → Except PyException Uuid
  | .base tenantId _ _ => .ok tenantId
  | .dict fields =>
    let text := match getField "tenant_id" fields with
      | some v => strOf env v
      | none => "None".toList
    match Uuid.ofText? text with
    | some tenantId => .ok tenantId
    | none => .error ⟨"ValueError", "badly formed hexadecimal UUID string"⟩
  | .other type => .error ⟨"ValueError", "Unsupported event type: " ++ type⟩

/-- `envelope`. -/
def envelope (type : Str) (payload : MetaValue σ) : MetaValue σ :=
  .dict [(.str "event_type".toList, .str type), (.str "timestamp".toList, .str env.now),
    (.str "payload".toList, payload)]

/-- `_sanitize_and_serialize_event`. -/
def sanitizeAndSerializeEvent (event : EventInput σ) : Except PyException (Uuid × Str) := do
  let tenantId ← tenantOf env event
  let sanitizedDict := sanitizeMetadata env.toPyText (rawDict event)
  let jsonPayload ← env.dumps (envelope env (eventType env event) sanitizedDict)
  return (tenantId, jsonPayload)

/-- **A sanitised frame**: what the event gave to the envelope has been sanitised. -/
def FrameSanitised (event : EventInput σ) (frame : MetaValue σ) : Prop :=
  ∃ payload, frame = envelope env (sanitizeText (eventType env event)) payload ∧
    Sanitised env.toPyText (rawDict event) payload

theorem envelope_inj {type type' : Str} {payload payload' : MetaValue σ} :
    envelope env type payload = envelope env type' payload' ↔ type = type' ∧ payload = payload' := by
  simp [envelope]

/-- The frame that is written for an event. -/
theorem dumps_of_serialized {event : EventInput σ} {tenantId : Uuid} {text : Str}
    (h : sanitizeAndSerializeEvent env event = .ok (tenantId, text)) :
    env.dumps (envelope env (eventType env event)
      (sanitizeMetadata env.toPyText (rawDict event))) = .ok text := by
  rw [sanitizeAndSerializeEvent] at h
  cases htenant : tenantOf env event with
  | error e => rw [htenant] at h; cases h
  | ok tenant =>
    rw [htenant] at h
    cases hdumps : env.dumps (envelope env (eventType env event)
        (sanitizeMetadata env.toPyText (rawDict event))) with
    | error e =>
      simp only [bind, Except.bind, hdumps] at h
      cases h
    | ok t =>
      simp only [bind, Except.bind, hdumps, pure, Except.pure] at h
      cases h
      rfl

theorem frameSanitised_envelope_iff (event : EventInput σ) :
    FrameSanitised env event
        (envelope env (eventType env event) (sanitizeMetadata env.toPyText (rawDict event))) ↔
      sanitizeText (eventType env event) = eventType env event ∧
        Tractable env.toPyText (rawDict event) := by
  constructor
  · rintro ⟨payload, hframe, hpayload⟩
    obtain ⟨htype, rfl⟩ := (envelope_inj env).1 hframe
    exact ⟨htype.symm, (sanitised_sanitizeMetadata_iff _).1 hpayload⟩
  · rintro ⟨htype, htractable⟩
    exact ⟨_, (envelope_inj env).2 ⟨htype.symm, rfl⟩, (sanitised_sanitizeMetadata_iff _).2 htractable⟩

/-- **When sanitising removes the secrets.**  The result is a sanitised form of a value exactly
if the tuples that are met hold nothing to redact and no dict has two keys of one text; the
frame of an event needs besides that `sanitize_text` leaves its type alone. -/
theorem sanitised_iff :
    (∀ v : MetaValue σ,
      (Sanitised env.toPyText v (sanitizeMetadata env.toPyText v) ↔ Tractable env.toPyText v) ∧
        SameButTexts (sanitizeMetadata env.toPyText v)
          (sanitizeMetadata env.toPyText (sanitizeMetadata env.toPyText v))) ∧
      ∀ event tenantId text, sanitizeAndSerializeEvent env event = .ok (tenantId, text) →
        ∃ frame, env.dumps frame = .ok text ∧
          (FrameSanitised env event frame ↔
            sanitizeText (eventType env event) = eventType env event ∧
              Tractable env.toPyText (rawDict event)) :=
  ⟨fun v => ⟨sanitised_sanitizeMetadata_iff v, sameButTexts_sanitizeMetadata v⟩,
    fun event _ _ h => ⟨_, dumps_of_serialized env h, frameSanitised_envelope_iff env event⟩⟩

/-- An event with the identifier of its tenant and a password. -/
def bareEvent : EventInput Unit :=
  .dict [(.str "tenant_id".toList, .str (Uuid.chars ⟨0⟩)),
    (.str "password".toList, .str "hunter2".toList)]

/-- What `json.dumps` writes for its frame. -/
def bareText : Str :=
  "\x7b\"event_type\": \"SecurityEvent\", ".toList ++
    "\"timestamp\": \"2025-01-01T00:00:00+00:00\", \"payload\": ".toList ++
    "\x7b\"tenant_id\": \"00000000-0000-0000-0000-000000000000\", ".toList ++
    "\"password\": \"[REDACTED]\"\x7d\x7d".toList

/-- Values that have no scalar but `None`, and a serialiser that is right on `bareEvent`. -/
def bareEnv : FrameEnv Unit where
  str := fun _ => "None".toList
  lower := List.map Char.toLower
  repr := fun _ => []
  now := "2025-01-01T00:00:00+00:00".toList
  dumps := fun _ => .ok bareText

theorem tenantOf_first (tenantId : Uuid) (fields : List (Key Unit × MetaValue Unit)) :
    tenantOf bareEnv (.dict ((.str "tenant_id".toList, .str tenantId.chars) :: fields)) =
      .ok tenantId := by
  simp only [tenantOf, getField, if_true, strOf, Uuid.ofText?_chars]

theorem sanitised_iff_bareEvent :
    ∃ tenantId text frame, sanitizeAndSerializeEvent bareEnv bareEvent = .ok (tenantId, text) ∧
      bareEnv.dumps frame = .ok text ∧
        (FrameSanitised bareEnv bareEvent frame ↔
          sanitizeText (eventType bareEnv bareEvent) = eventType bareEnv bareEvent ∧
            Tractable bareEnv.toPyText (rawDict bareEvent)) := by
  have htenant : tenantOf bareEnv bareEvent = .ok ⟨0⟩ := tenantOf_first _ _
  have h : sanitizeAndSerializeEvent bareEnv bareEvent = .ok (⟨0⟩, bareText) := by
    rw [sanitizeAndSerializeEvent, htenant]
    rfl
  obtain ⟨frame, hframe⟩ := (sanitised_iff bareEnv).2 bareEvent ⟨0⟩ _ h
  exact ⟨_, _, frame, h, hframe⟩

/-- A password in a dict in a tuple. -/
def credentials : MetaValue Unit :=
  .dict [(.str "login".toList, .tuple [.dict [(.str "password".toList, .str "hunter2".toList)]])]

/-- **A password in a tuple survives.** -/
theorem password_survives :
    isSensitive bareEnv.toPyText "password".toList = true ∧
      Holds (sanitizeMetadata bareEnv.toPyText credentials) (.str "password".toList)
        (.str "hunter2".toList) ∧
      ¬ Sanitised bareEnv.toPyText credentials
        (sanitizeMetadata bareEnv.toPyText credentials) := by
  have hsens : isSensitive bareEnv.toPyText "password".toList = true := by decide +kernel
  have hlogin : isSensitive bareEnv.toPyText "login".toList = false := by decide +kernel
  have hself : sanitizeMetadata bareEnv.toPyText credentials = credentials := by
    simp only [credentials, sanitizeMetadata, sanitizeFields, Key.text_str, hlogin, Dict.setEntry,
      Bool.false_eq_true, if_false, List.map_cons, List.map_nil]
  have hholds : Holds credentials (.str "password".toList) (.str "hunter2".toList) :=
    .dict (List.mem_singleton_self _) (.tuple (List.mem_singleton_self _)
      (.field (List.mem_singleton_self _)))
  rw [hself]
  refine ⟨hsens, hholds, fun h => ?_⟩
  have hmark := eq_redacted_of_holds hholds hsens h
  rw [redacted, MetaValue.str.injEq] at hmark
  exact absurd hmark (by decide)

end ScamOn.Realtime
