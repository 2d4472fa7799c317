import AgentGateway.EventChannel.Canonical
import AgentGateway.Py.Framing

/-!
# Frames of the autonomous event channel

What the two endpoints do with one frame: the child's preflight `_snapshot_event` and its framing
`_encode_event_wire_frame`, the framing of the other messages, and on the parent's side
`_decode_canonical_json_object` and `_receive_event_record`.

The parent does not trust the body it received.  It decodes it, refuses duplicate keys and
non-finite constants, runs the bounded snapshot on the decoded frame, and compares the canonical
encoding with the bytes that came in.  Only then does it look at the fields, and it runs the
child's preflight once more on the event.
-/

namespace AgentGateway.EventChannel

open Py

/-! ## Constants -/

/-- `AUTONOMOUS_EVENT_CHANNEL_VERSION` -/
def channelVersion : Int := 1

/-- `AUTONOMOUS_EVENT_CHANNEL_MAX_FRAME_BYTES` -/
def maxFrameBytes : Nat := 2 * 1024 * 1024

/-- `AUTONOMOUS_EVENT_CHANNEL_MAX_LINE_BYTES` -/
def maxLineBytes : Nat := 2 * 1024 * 1024

/-- `AUTONOMOUS_EVENT_CHANNEL_MAX_EVENTS` -/
def maxEvents : Nat := 100000

/-- `AUTONOMOUS_EVENT_CHANNEL_MAX_EVENT_BYTES` -/
def maxEventBytes : Nat := 64 * 1024 * 1024

def frameHeaderSize : Nat := 4

/-- A bytes literal of the source. -/
def ascii (s : String) : List UInt8 := encodeUtf8 s.toList

def eventFrameFixedEnvelopeBytes : Nat :=
  frameHeaderSize +
    (ascii
      "\x7b\"channel_id\":\"\",\"event\":,\"kind\":\"EVENT\",\"seq\":,\"version\":1\x7d").length +
    64

def eventFrameEnvelopeBytes : Nat :=
  eventFrameFixedEnvelopeBytes + (Nat.toDigits 10 maxEvents).length

def eventFrameMinimumEnvelopeBytes : Nat := eventFrameFixedEnvelopeBytes + 1

def terminalEventTypes : List Str := [.lit "stream_complete", .lit "error"]

def forbiddenEventTypes : List Str := [.lit "stream_error"]

def protocolKinds : List Str :=
  [.lit "HELLO", .lit "EVENT", .lit "END", .lit "ACK", .lit "PRIVATE_EXECUTABLE_CAPTURE"]

def helloFields : List Str := [.lit "kind", .lit "version", .lit "channel_id"]

def eventFields : List Str :=
  [.lit "kind", .lit "version", .lit "channel_id", .lit "seq", .lit "event"]

def privateCaptureFields : List Str :=
  [.lit "kind", .lit "version", .lit "channel_id", .lit "private_executable_capture"]

def summaryFields : List Str :=
  [.lit "kind", .lit "version", .lit "channel_id", .lit "event_count", .lit "event_digest"]

/-! ## Identifiers -/

/-- A lowercase hexadecimal digit. -/
def isLowerHex (c : Char) : Bool := ('0' ≤ c && c ≤ '9') || ('a' ≤ c && c ≤ 'f')

/-- `^[0-9a-f]{64}$`, for channel ids and for digests. -/
def isHex64 (s : Str) : Bool :=
  s.length == 64 && s.all fun p ↦ match p with
    | .scalar c => isLowerHex c
    | .surrogate _ => false

/-- 64 lowercase hexadecimal digits. -/
structure Hex64 where
  chars : List Char
  length_eq : chars.length = 64
  hex : chars.all isLowerHex = true

/-- The digits as a string. -/
def Hex64.str (c : Hex64) : Str := c.chars.map .scalar

/-- A channel id that `_validate_channel_id` let through. -/
abbrev ChannelId := Hex64

/-! ## Decoding -/

section Decode

variable {F : Type} [PyFloat F]

/-- The loop of `_unique_json_object`, with the keys seen so far. -/
def firstDuplicate : List Str → List (Str × Json F) → Option Str
  | _, [] => none
  | seen, (key, _) :: pairs => if key ∈ seen then some key else firstDuplicate (key :: seen) pairs

def uniqueJsonObject (pairs : List (Str × Json F)) : Except ChannelError (Json F) :=
  match firstDuplicate [] pairs with
  | some key => .error (.duplicateKey key)
  | none => .ok (.dict pairs)

/-- The hooks `_decode_canonical_json_object` hands to `json.loads`. -/
def channelHooks : LoadsHooks F ChannelError where
  invalid := .protocol "autonomous event channel frame is not valid JSON"
  objectPairsHook := uniqueJsonObject
  parseConstant := .nonFiniteNumber

def decodeCanonicalJsonObject (body : List UInt8) : Except ChannelError (Json F) :=
  match decodeUtf8 body with
  | none => .error (.protocol "autonomous event channel frame is not valid UTF-8")
  | some text => do
    let value ← loads channelHooks text
    match value with
    | .dict kvs => do
      let canonical ← canonicalJsonSnapshot (.dict kvs) (maxFrameBytes - frameHeaderSize)
      if canonical.encoded = body then .ok (.dict kvs)
      else .error (.protocol "autonomous event channel frame is not canonical JSON")
    | _ => .error (.protocol "autonomous event channel frame must be a JSON object")

structure WireFrame where
  body : List UInt8
  frameBytes : List UInt8
deriving DecidableEq

def decodeReceivedWireFrame (wire : WireFrame) : Except ChannelError (Json F) :=
  match decodeCanonicalJsonObject wire.body with
  | .error (.byteBounds _) =>
    .error (.frameCap ⟨.eventChannel, .receive, .declared, wire.frameBytes.length, maxFrameBytes⟩)
  | r => r

end Decode

/-! ## Field checks -/

section Fields

variable {F : Type}

/-- The keys of a `dict`. -/
def keys : Json F → List Str
  | .dict kvs => kvs.map Prod.fst
  | _ => []

def requireExactFields (value : Json F) (fields : List Str) (kind : String) :
    Except ChannelError Unit :=
  let missing := fields.filter (· ∉ keys value)
  let unknown := (keys value).filter (· ∉ fields)
  if missing = [] ∧ unknown = [] then .ok ()
  else .error (.fieldsDiffer kind (missing.insertionSort Str.le) (unknown.insertionSort Str.le))

def requireKind (value : Json F) (expected : String) : Except ChannelError Unit :=
  match value.get? (.lit "kind") with
  | some (.str kind) =>
    if kind ∉ protocolKinds then
      .error (.protocol "autonomous event channel frame kind is invalid")
    else if kind ≠ .lit expected then .error (.unexpectedKind expected kind)
    else .ok ()
  | _ => .error (.protocol "autonomous event channel frame kind is invalid")

def requireVersion (value : Json F) : Except ChannelError Unit :=
  match value.get? (.lit "version") with
  | some (.int n) =>
    if n = channelVersion then .ok ()
    else .error (.protocol "autonomous event channel version is unsupported")
  | _ => .error (.protocol "autonomous event channel version is unsupported")

def requireFrameChannel (value : Json F) (expected : ChannelId) : Except ChannelError Unit :=
  match value.get? (.lit "channel_id") with
  | some (.str s) =>
    if isHex64 s then
      if s = expected.str then .ok ()
      else .error (.protocol "autonomous event channel frame is bound to a different channel")
    else .error (.protocol
      "autonomous event channel_id must be 64 lowercase hexadecimal characters")
  | _ => .error (.protocol
      "autonomous event channel_id must be 64 lowercase hexadecimal characters")

/-- `_require_nonnegative_int`, on `value[field]` -/
def requireNonnegativeInt (value : Option (Json F)) (fieldName : String) :
    Except ChannelError Nat :=
  match value with
  | some (.int (.ofNat n)) => .ok n
  | _ => .error (.protocol
      ("autonomous event channel " ++ fieldName ++ " must be a nonnegative integer"))

/-- `_require_digest`, on `value[field]` -/
def requireDigest (value : Option (Json F)) (fieldName : String) : Except ChannelError Str :=
  match value with
  | some (.str s) =>
    if isHex64 s then .ok s
    else .error (.protocol
      ("autonomous event channel " ++ fieldName ++ " must be a lowercase SHA-256 digest"))
  | _ => .error (.protocol
      ("autonomous event channel " ++ fieldName ++ " must be a lowercase SHA-256 digest"))

/-- `_event_type` -/
def eventTypeOf (event : Json F) : Except ChannelError Str :=
  match event.get? (.lit "type") with
  | some (.str t) =>
    if t = [] ∨ t ≠ Str.strip t then .error (.protocol
      "autonomous event channel event.type must be a non-empty canonical string")
    else if t ∈ forbiddenEventTypes then .error (.protocol
      "autonomous event channel rejects the legacy stream_error terminal")
    else .ok t
  | _ => .error (.protocol
      "autonomous event channel event.type must be a non-empty canonical string")

end Fields

/-! ## Events -/

section Events

variable {F : Type} [PyFloat F]

structure EventSnapshot where
  eventType : Str
  encoded : List UInt8
  lineBytes : List UInt8
deriving DecidableEq

/-- The Finding of a frame the child could not send. -/
def sendFinding (sizeBasis : SizeBasis) (frameSizeBytes : Nat) : FrameCapFinding :=
  ⟨.eventChannel, .send, sizeBasis, frameSizeBytes, maxFrameBytes⟩

def snapshotEvent (event : Json F) : Except ChannelError EventSnapshot :=
  match event with
  | .dict kvs =>
    match canonicalJsonSnapshot (.dict kvs) (maxLineBytes - 1) with
    | .error (.byteBounds minimumSizeBytes) =>
      .error (.frameCap (sendFinding .lowerBound
        (eventFrameMinimumEnvelopeBytes + minimumSizeBytes)))
    | .error e =>
      if e.isBounds then
        .error (.bounds "autonomous event channel event line exceeds the 2 MiB bound")
      else .error e
    | .ok snapshot =>
      if snapshot.encoded.length > maxFrameBytes - eventFrameEnvelopeBytes then
        .error (.frameCap (sendFinding .lowerBound
          (eventFrameMinimumEnvelopeBytes + snapshot.encoded.length)))
      else do
        let eventType ← eventTypeOf snapshot.value
        .ok ⟨eventType, snapshot.encoded, snapshot.encoded ++ ascii "\n"⟩
  | _ => .error (.protocol "autonomous event channel events must be JSON objects")

def encodeWireFrame (value : Json F) : Except ChannelError WireFrame :=
  match canonicalJsonSnapshot value (maxFrameBytes - frameHeaderSize) with
  | .error (.byteBounds minimumSizeBytes) =>
    .error (.frameCap (sendFinding .lowerBound (frameHeaderSize + minimumSizeBytes)))
  | .error e => .error e
  | .ok snapshot =>
    if frameHeaderSize + snapshot.encoded.length > maxFrameBytes then
      .error (.frameCap (sendFinding .actual (frameHeaderSize + snapshot.encoded.length)))
    else .ok ⟨snapshot.encoded, frame snapshot.encoded⟩

/-- The body `_encode_event_wire_frame` puts together around an encoded event. -/
def eventBody (encoded : List UInt8) (channelId : ChannelId) (seq : Nat) : List UInt8 :=
  ascii "\x7b\"channel_id\":\"" ++ encodeUtf8 channelId.chars ++ ascii "\",\"event\":" ++ encoded ++
    ascii ",\"kind\":\"EVENT\",\"seq\":" ++ encodeUtf8 (Nat.toDigits 10 seq) ++
    ascii ",\"version\":1\x7d"

def encodeEventWireFrame (snapshot : EventSnapshot) (channelId : ChannelId) (seq : Nat) :
    Except ChannelError WireFrame :=
  let body := eventBody snapshot.encoded channelId seq
  if frameHeaderSize + body.length > maxFrameBytes then
    .error (.frameCap (sendFinding .actual (frameHeaderSize + body.length)))
  else .ok ⟨body, frame body⟩

/-! ## Records -/

structure AutonomousEventRecord where
  seq : Nat
  frameBytes : List UInt8
  eventLineBytes : List UInt8
deriving DecidableEq

def AutonomousEventRecord.event (r : AutonomousEventRecord) : Except ChannelError (Json F) :=
  decodeCanonicalJsonObject r.eventLineBytes.dropLast

/-- What the parent keeps of the events it has received.  The digest object is the bytes it was
fed after the domain. -/
structure ReceiveState where
  records : List AutonomousEventRecord
  digestInput : List UInt8
  eventBytes : Nat
  expectedSeq : Nat
  terminalSeen : Bool
deriving DecidableEq

/-- The fields after one more record. -/
def ReceiveState.append (st : ReceiveState) (record : AutonomousEventRecord) (terminal : Bool) :
    ReceiveState where
  records := st.records ++ [record]
  digestInput := st.digestInput ++ record.frameBytes
  eventBytes := st.eventBytes + record.frameBytes.length
  expectedSeq := st.expectedSeq + 1
  terminalSeen := terminal

def findingChannelOf (s : Str) : Option FindingChannel :=
  if s = .lit "claim_broker" then some .claimBroker
  else if s = .lit "event_channel" then some .eventChannel
  else none

def directionOf (s : Str) : Option Direction :=
  if s = .lit "send" then some .send
  else if s = .lit "receive" then some .receive
  else none

def sizeBasisOf (s : Str) : Option SizeBasis :=
  if s = .lit "actual" then some .actual
  else if s = .lit "declared" then some .declared
  else if s = .lit "lower_bound" then some .lowerBound
  else none

/-- `FrameCapFinding.model_validate`, strict and without extra fields -/
def frameCapFindingOf (value : Json F) : Option FrameCapFinding :=
  match requireExactFields value [.lit "channel", .lit "direction", .lit "size_basis",
      .lit "frame_size_bytes", .lit "cap_bytes"] "finding" with
  | .error _ => none
  | .ok () =>
    match value.get? (.lit "channel"), value.get? (.lit "direction"),
      value.get? (.lit "size_basis"), value.get? (.lit "frame_size_bytes"),
      value.get? (.lit "cap_bytes") with
    | some (.str c), some (.str d), some (.str b), some (.int size), some (.int cap) => do
      some ⟨← findingChannelOf c, ← directionOf d, ← sizeBasisOf b, size, cap⟩
    | _, _, _, _, _ => none

/-- `FrameCapFindingEvent.model_validate` -/
def frameCapFindingEventOf (event : Json F) : Option FrameCapFinding :=
  match requireExactFields event [.lit "type", .lit "finding"] "finding" with
  | .error _ => none
  | .ok () =>
    match event.get? (.lit "type"), event.get? (.lit "finding") with
    | some (.str t), some finding =>
      if t = .lit "frame_cap_finding" then frameCapFindingOf finding else none
    | _, _ => none

def receiveEventRecord (channelId : ChannelId) (st : ReceiveState) (value : Json F)
    (wire : WireFrame) : Except ChannelError (AutonomousEventRecord × ReceiveState) := do
  requireExactFields value eventFields "EVENT"
  requireKind value "EVENT"
  requireVersion value
  requireFrameChannel value channelId
  let seq ← requireNonnegativeInt (value.get? (.lit "seq")) "EVENT seq"
  if seq ≠ st.expectedSeq then
    .error (.protocol "autonomous event channel EVENT sequence is not contiguous")
  else
  match value.get? (.lit "event") with
  | none => .error (.protocol "autonomous event channel events must be JSON objects")
  | some event =>
  match snapshotEvent event with
  | .error (.frameCap _) =>
    .error (.frameCap ⟨.eventChannel, .receive, .declared, wire.frameBytes.length, maxFrameBytes⟩)
  | .error e => .error e
  | .ok snapshot =>
    if snapshot.eventType = .lit "frame_cap_finding" ∧ frameCapFindingEventOf event = none then
      .error (.protocol "autonomous event channel frame-cap Finding event is invalid")
    else if st.records.length ≥ maxEvents then
      .error (.bounds "autonomous event channel event count exceeds 100,000")
    else if st.eventBytes + wire.frameBytes.length > maxEventBytes then
      .error (.bounds "autonomous event channel aggregate EVENT frames exceed 64 MiB")
    else
      let record := ⟨seq, wire.frameBytes, snapshot.lineBytes⟩
      .ok (record, st.append record (snapshot.eventType ∈ terminalEventTypes))

end Events

end AgentGateway.EventChannel
