import AgentGateway.EventChannel.Admission
import AgentGateway.Py.Pipe

/-!
# The two endpoints of the event channel

The child writes `HELLO`, then `EVENT` and capture frames, then the terminal `EVENT` and `END`,
closes its direction and waits for an `ACK` and the end of the stream.  The parent reads up to
`END` and the end of the stream, exposes what it received, and may then acknowledge it.

An operation of an endpoint is cut at its socket calls.  Between two of them the code of the
source runs as it stands, as a function from the endpoint's fields (`childCall`, `childSent`,
`childAck`, `parentCall`, `parentFrame`); at a socket call the endpoint rests in a `ChildPc` or a
`ParentPc`, and any amount of progress by the other side, a chunk of any size, an error, or
another caller on the same endpoint may come in between.  `Step` is one such move.

What `_exclusive_operation` keeps is in `Endpoint`: an operation that finds another one active
aborts the endpoint, one that finds it closed or failed raises, and one that ends while the
endpoint has failed raises too.
-/

namespace AgentGateway.EventChannel

open Py

variable {F : Type} [PyFloat F]

/-! ## Messages -/

/-- A `dict` handed to the channel; its keys are distinct, as those of any `dict`. -/
abbrev Event (F : Type) := {e : Json F // e.UniqueKeys}

/-- `AUTONOMOUS_EVENT_CHANNEL_DIGEST_DOMAIN` -/
def digestDomain : List UInt8 :=
  ascii "agent-gateway.autonomous-event-channel/event-frames/v1\x00"

def helloValue (id : ChannelId) : Json F :=
  .dict [(.lit "kind", .str (.lit "HELLO")), (.lit "version", .int channelVersion),
    (.lit "channel_id", .str id.str)]

def captureValue (id : ChannelId) (payload : Json F) : Json F :=
  .dict [(.lit "kind", .str (.lit "PRIVATE_EXECUTABLE_CAPTURE")),
    (.lit "version", .int channelVersion), (.lit "channel_id", .str id.str),
    (.lit "private_executable_capture", payload)]

/-- The object of an `END` or an `ACK`. -/
def summaryValue (kind : String) (id : ChannelId) (eventCount : Nat) (eventDigest : Str) :
    Json F :=
  .dict [(.lit "kind", .str (.lit kind)), (.lit "version", .int channelVersion),
    (.lit "channel_id", .str id.str), (.lit "event_count", .int eventCount),
    (.lit "event_digest", .str eventDigest)]

def FindingChannel.text : FindingChannel → String
  | .claimBroker => "claim_broker"
  | .eventChannel => "event_channel"

def Direction.text : Direction → String
  | .send => "send"
  | .receive => "receive"

def SizeBasis.text : SizeBasis → String
  | .actual => "actual"
  | .declared => "declared"
  | .lowerBound => "lower_bound"

/-- The event that reports a capture which was too large. -/
def findingEvent (f : FrameCapFinding) : Json F :=
  .dict [(.lit "type", .str (.lit "frame_cap_finding")), (.lit "finding", .dict [
    (.lit "channel", .str (.lit f.channel.text)), (.lit "direction", .str (.lit f.direction.text)),
    (.lit "size_basis", .str (.lit f.sizeBasis.text)),
    (.lit "frame_size_bytes", .int f.frameSizeBytes), (.lit "cap_bytes", .int f.capBytes)])]

omit [PyFloat F] in
theorem uniqueKeys_findingEvent (f : FrameCapFinding) : (findingEvent f : Json F).UniqueKeys := by
  simp only [findingEvent, Json.uniqueKeys_dict_iff, List.map_cons, List.map_nil,
    List.forall_mem_cons]
  exact ⟨by decide, trivial, ⟨by decide, by simp⟩, List.forall_mem_nil _⟩

/-! ## Endpoints -/

/-- The fields of `_OwnedEventChannelEndpoint`, and the outcome of every call so far, which the
program does not keep: `true` for a call that returned. -/
structure Endpoint where
  closed : Bool
  failed : Bool
  operationEpoch : Nat
  log : List Bool

namespace Endpoint

def new : Endpoint := ⟨false, false, 0, []⟩

def abort (e : Endpoint) : Endpoint :=
  { e with failed := true, closed := true, operationEpoch := e.operationEpoch + 1 }

/-- A call ended. -/
def logged (e : Endpoint) (returned : Bool) : Endpoint := { e with log := e.log ++ [returned] }

/-- `close`, outside an operation, and the end of `_close_after_success` -/
def shut (e : Endpoint) : Endpoint := { e with closed := true }

/-- An operation that started at the given epoch may return. -/
def intact (e : Endpoint) (epoch : Nat) : Bool := !e.failed && e.operationEpoch == epoch

end Endpoint

/-! ## The child -/

inductive ChildStatus where
  | new
  | started
  | awaitingAck
  | completed
  | failed
deriving DecidableEq

/-- An event with its snapshot, as the child frames it. -/
structure SentEvent (F : Type) [PyFloat F] where
  event : Event F
  snap : EventSnapshot
  seq : Nat
  admitted : snapshotEvent event.1 = .ok snap

namespace SentEvent

def body (id : ChannelId) (e : SentEvent F) : List UInt8 := eventBody e.snap.encoded id e.seq

def isTerminal (e : SentEvent F) : Bool := e.snap.eventType ∈ terminalEventTypes

/-- The record the parent makes of it. -/
def record (id : ChannelId) (e : SentEvent F) : AutonomousEventRecord :=
  ⟨e.seq, frame (e.body id), e.snap.lineBytes⟩

end SentEvent

/-- A frame the child hands to `sendall`. -/
inductive Sent (F : Type) [PyFloat F] where
  | hello (body : List UInt8)
  | capture (body : List UInt8)
  | event (e : SentEvent F)
  | finish (body : List UInt8)

namespace Sent

def body (id : ChannelId) : Sent F → List UInt8
  | hello b => b
  | capture b => b
  | event e => e.body id
  | finish b => b

def event? : Sent F → Option (SentEvent F)
  | event e => some e
  | _ => none

end Sent

/-- `AutonomousEventAcknowledgement`, without the channel id -/
structure Acknowledgement where
  eventCount : Nat
  eventDigest : Str
deriving DecidableEq

/-- What the child does when `sendall` has returned. -/
inductive ChildNext (F : Type) [PyFloat F] where
  | hello
  | event (e : SentEvent F)
  | capture
  | finding (e : SentEvent F) (err : ChannelError)
  | terminal (e : SentEvent F)
  | finish

/-- Where an operation of the child stands. -/
inductive ChildPc (F : Type) [PyFloat F] where
  | sending (next : ChildNext F)
  | shuttingDown
  | readingAck
  | readingTrailing (ack : Acknowledgement)
  | returning (result : Option Acknowledgement)

/-- The calls on a child. -/
inductive ChildCall (F : Type) where
  | start
  | sendEvent (event : Event F)
  | sendPrivateExecutableCapture (payload : Event F)
  | complete (terminalEvent : Event F)

/-- The fields of `AutonomousEventChannelChild`. -/
structure ChildFields where
  status : ChildStatus
  nextSeq : Nat
  eventCount : Nat
  eventBytes : Nat
  /-- what the digest was fed after the domain -/
  digestInput : List UInt8

/-- The part of `_send_event` before the frame is sent. -/
def prepareEvent (id : ChannelId) (c : ChildFields) (event : Event F) (terminalRequired : Bool) :
    Except ChannelError (SentEvent F) :=
  match h : snapshotEvent event.1 with
  | .error e => .error e
  | .ok snapshot =>
    let sent : SentEvent F := ⟨event, snapshot, c.nextSeq, h⟩
    if terminalRequired ≠ sent.isTerminal then
      if terminalRequired then .error (.protocol
        "autonomous event channel completion requires stream_complete or error")
      else .error (.protocol
        "autonomous event channel terminal events must be sent through complete()")
    else if c.eventCount ≥ maxEvents then
      .error (.bounds "autonomous event channel event count exceeds 100,000")
    else do
      let frame ← encodeEventWireFrame snapshot id c.nextSeq
      if c.eventBytes + frame.frameBytes.length > maxEventBytes then
        .error (.bounds "autonomous event channel aggregate EVENT frames exceed 64 MiB")
      else .ok sent

/-- The part of `_send_event` after the frame was sent. -/
def countEvent (id : ChannelId) (c : ChildFields) (e : SentEvent F) : ChildFields :=
  { c with digestInput := c.digestInput ++ frame (e.body id)
           eventBytes := c.eventBytes + (frame (e.body id)).length
           eventCount := c.eventCount + 1
           nextSeq := c.nextSeq + 1 }

/-- `hexdigest()` of the running digest, for a given hash. -/
def eventDigest (sha256 : List UInt8 → Hex64) (digestInput : List UInt8) : Str :=
  (sha256 (digestDomain ++ digestInput)).str

/-- A call on the child, up to its first `sendall`. -/
def childCall (id : ChannelId) (c : ChildFields) :
    ChildCall F → Except ChannelError (Sent F × ChildNext F)
  | .start =>
    if c.status ≠ .new then
      .error (.state "autonomous event channel HELLO may be sent exactly once")
    else do
      let frame ← encodeWireFrame (helloValue (F := F) id)
      .ok (.hello frame.body, .hello)
  | .sendEvent event =>
    if c.status ≠ .started then
      .error (.state "autonomous event channel is not accepting events")
    else do
      let sent ← prepareEvent id c event false
      .ok (.event sent, .event sent)
  | .sendPrivateExecutableCapture payload =>
    if c.status ≠ .started then
      .error (.state "autonomous event channel is not accepting private captures")
    else
      match payload.1 with
      | .dict _ =>
        match encodeWireFrame (captureValue id payload.1) with
        | .error (.frameCap finding) =>
          match prepareEvent id c ⟨findingEvent finding, uniqueKeys_findingEvent finding⟩ false with
          | .error _ => .error (.frameCap finding)
          | .ok sent => .ok (.event sent, .finding sent (.frameCap finding))
        | .error e => .error e
        | .ok frame => .ok (.capture frame.body, .capture)
      | _ => .error (.protocol "autonomous private executable capture must be a JSON object")
  | .complete terminalEvent =>
    if c.status ≠ .started then
      .error (.state "autonomous event channel is not eligible for completion")
    else do
      let sent ← prepareEvent id c terminalEvent true
      .ok (.event sent, .terminal sent)

/-- What comes after a `sendall`, or after another piece of a child's operation. -/
inductive ChildMove (F : Type) [PyFloat F] where
  | send (sent : Sent F) (next : ChildNext F)
  | goto (pc : ChildPc F)

/-- The child's code from the return of `sendall` to the next socket call. -/
def childSent (id : ChannelId) (sha256 : List UInt8 → Hex64) (c : ChildFields) :
    ChildNext F → Except ChannelError (ChildFields × ChildMove F)
  | .hello => .ok ({ c with status := .started }, .goto (.returning none))
  | .event e => .ok (countEvent id c e, .goto (.returning none))
  | .capture => .ok (c, .goto (.returning none))
  | .finding _ err => .error err
  | .terminal e => do
    let c := countEvent id c e
    let frame ← encodeWireFrame (summaryValue (F := F) "END" id c.eventCount
      (eventDigest sha256 c.digestInput))
    .ok (c, .send (.finish frame.body) .finish)
  | .finish => .ok (c, .goto .shuttingDown)

/-- `complete` reads the ACK. -/
def childAck (F : Type) [PyFloat F] (id : ChannelId) (sha256 : List UInt8 → Hex64)
    (c : ChildFields) (wire : WireFrame) : Except ChannelError Acknowledgement := do
  let ack : Json F ← decodeReceivedWireFrame wire
  requireExactFields ack summaryFields "ACK"
  requireKind ack "ACK"
  requireVersion ack
  requireFrameChannel ack id
  let ackCount ← requireNonnegativeInt (ack.get? (.lit "event_count")) "ACK event_count"
  let ackDigest ← requireDigest (ack.get? (.lit "event_digest")) "ACK event_digest"
  if ackCount ≠ c.eventCount ∨ ackDigest ≠ eventDigest sha256 c.digestInput then
    .error (.acknowledgement "autonomous event channel ACK does not bind the completed stream")
  else .ok ⟨ackCount, ackDigest⟩

/-! ## The parent -/

inductive ParentStatus where
  | new
  | receiving
  | finalPending
  | received
  | acknowledged
  | failed
deriving DecidableEq

/-- `ReceivedAutonomousEventStream`, without the channel id -/
structure ReceivedStream where
  records : List AutonomousEventRecord
  eventCount : Nat
  eventDigest : Str
  exactEventFrameBytes : Nat
deriving DecidableEq

/-- The calls on a parent.  `timeoutGiven` says that `timeout_seconds` is not `None`. -/
inductive ParentCall where
  | receiveNext (timeoutGiven : Bool) (unboundedStream : Option Bool)
  | receive
  | acknowledge (stream : ReceivedStream)

/-- Which of the two receiving calls is under way. -/
inductive Receiving where
  | next
  | all
deriving DecidableEq

/-- The frame a receiving call waits for. -/
inductive ParentRead where
  | hello (unboundedStream : Bool)
  | frame
  /-- after a terminal event -/
  | suffix (record : AutonomousEventRecord)
  /-- after `END`, with the terminal record unless `END` came by itself -/
  | trailing (record : Option AutonomousEventRecord)

/-- What a receiving call returns. -/
inductive ParentResult (F : Type) where
  | record (r : AutonomousEventRecord)
  | capture (payload : Json F)
  | stream (s : ReceivedStream)
  | acknowledged

/-- The stream among the results. -/
def ParentResult.stream? {F : Type} : ParentResult F → Option ReceivedStream
  | .stream st => some st
  | _ => none

/-- Where an operation of the parent stands. -/
inductive ParentPc (F : Type) where
  | reading (call : Receiving) (next : ParentRead)
  | sendingAck
  | shuttingDown
  | returning (result : ParentResult F)

/-- The fields of `AutonomousEventChannelParent`. -/
structure ParentFields where
  status : ParentStatus
  receive : ReceiveState
  received : Option ReceivedStream
  pendingReceived : Option ReceivedStream
  receiveUnbounded : Option Bool

def exposeFinalStream (p : ParentFields) : Except ChannelError (ParentFields × ReceivedStream) :=
  match p.status, p.pendingReceived with
  | .finalPending, some stream =>
    .ok ({ p with pendingReceived := none, received := some stream, status := .received }, stream)
  | _, _ => .error (.state "autonomous event channel final stream is not pending")

/-- The checks of `receive_next` on a stream that is already under way. -/
def checkMode (p : ParentFields) (timeoutGiven : Bool) (unboundedStream : Option Bool) :
    Except ChannelError Unit :=
  if timeoutGiven then
    .error (.state "autonomous event channel receive deadline cannot be reset")
  else if unboundedStream ≠ none ∧ unboundedStream ≠ p.receiveUnbounded then
    .error (.state "autonomous event channel receive mode cannot change")
  else .ok ()

/-- `_receive_mode`, on entry to `_advance_receive` -/
def receiveMode (p : ParentFields) : Except ChannelError Unit :=
  if p.status ≠ .receiving ∨ p.receiveUnbounded = none then
    .error (.state "autonomous event channel receive is not active")
  else .ok ()

/-- A call on the parent, up to its first socket call.  An acknowledgement comes back as the frame
to send. -/
def parentCall (F : Type) [PyFloat F] (id : ChannelId) (p : ParentFields) :
    ParentCall → Except ChannelError (ParentFields × (ParentPc F ⊕ List UInt8))
  | .receiveNext timeoutGiven unboundedStream =>
    match p.status with
    | .new =>
      if unboundedStream = some true ∧ timeoutGiven then
        .error (.state "unbounded incremental receive uses the fixed HELLO timeout")
      else .ok (p, .inl (.reading .next (.hello (unboundedStream.getD false))))
    | .receiving => do
      checkMode p timeoutGiven unboundedStream
      receiveMode p
      .ok (p, .inl (.reading .next .frame))
    | .finalPending => do
      checkMode p timeoutGiven unboundedStream
      let (p, stream) ← exposeFinalStream p
      .ok (p, .inl (.returning (.stream stream)))
    | _ => .error (.state "autonomous event channel incremental receive is not active")
  | .receive =>
    if p.status ≠ .new then
      .error (.state "autonomous event channel receive may begin exactly once")
    else .ok (p, .inl (.reading .all (.hello false)))
  | .acknowledge stream =>
    -- the source compares the objects; two streams of one parent are the same object
    if p.status ≠ .received ∨ some stream ≠ p.received then
      .error (.state "autonomous event channel may ACK only its exact received stream")
    else do
      let frame ← encodeWireFrame (summaryValue (F := F) "ACK" id stream.eventCount
        stream.eventDigest)
      .ok (p, .inr frame.body)

/-- `_receive_final_stream`, up to the wait for the end of the stream -/
def receiveFinalStream (id : ChannelId) (sha256 : List UInt8 → Hex64) (p : ParentFields)
    (value : Json F) : Except ChannelError Unit := do
  requireExactFields value summaryFields "END"
  requireKind value "END"
  requireVersion value
  requireFrameChannel value id
  if !p.receive.terminalSeen then
    .error (.protocol "autonomous event channel END requires a final terminal EVENT")
  else do
    let claimedCount ← requireNonnegativeInt (value.get? (.lit "event_count")) "END event_count"
    let claimedDigest ← requireDigest (value.get? (.lit "event_digest")) "END event_digest"
    if claimedCount ≠ p.receive.records.length ∨
        claimedDigest ≠ eventDigest sha256 p.receive.digestInput then
      .error (.protocol "autonomous event channel END does not bind the received stream")
    else .ok ()

/-- What a receiving call does with a record once no suffix has to be read: `receive_next` returns
it, `receive` goes on. -/
def afterRecord (call : Receiving) (record : AutonomousEventRecord) : ParentPc F :=
  match call with
  | .next => .returning (.record record)
  | .all => .reading .all .frame

/-- `_advance_receive`, from the decoded frame on -/
def advanceReceive (id : ChannelId) (sha256 : List UInt8 → Hex64) (p : ParentFields)
    (call : Receiving) (value : Json F) (wire : WireFrame) :
    Except ChannelError (ParentFields × ParentPc F) :=
  match value.get? (.lit "kind") with
  | some (.str kind) =>
    if p.receive.terminalSeen ∧ kind ≠ .lit "END" then
      .error (.protocol "autonomous event channel terminal event was not the final EVENT")
    else if kind = .lit "PRIVATE_EXECUTABLE_CAPTURE" then do
      requireExactFields value privateCaptureFields "PRIVATE_EXECUTABLE_CAPTURE"
      requireVersion value
      requireFrameChannel value id
      match value.get? (.lit "private_executable_capture"), call with
      | some (.dict kvs), .next => .ok (p, .returning (.capture (.dict kvs)))
      | some (.dict _), .all => .error (.state
          "private executable capture requires incremental owner ingestion")
      | _, _ => .error (.protocol "autonomous private executable capture must be a JSON object")
    else if kind = .lit "EVENT" then do
      let (record, receive) ← receiveEventRecord id p.receive value wire
      let p := { p with receive := receive }
      if receive.terminalSeen then .ok (p, .reading call (.suffix record))
      else .ok (p, afterRecord call record)
    else if kind = .lit "END" then do
      receiveFinalStream id sha256 p value
      .ok (p, .reading call (.trailing none))
    else if kind ∉ protocolKinds then
      .error (.protocol "autonomous event channel frame kind is invalid")
    else .error (.unexpectedFrame kind)
  | _ =>
    if p.receive.terminalSeen then
      .error (.protocol "autonomous event channel terminal event was not the final EVENT")
    else .error (.protocol "autonomous event channel frame kind is invalid")

/-- The parent's code from a complete frame to the next socket call. -/
def parentFrame (F : Type) [PyFloat F] (id : ChannelId) (sha256 : List UInt8 → Hex64)
    (p : ParentFields) (call : Receiving) (wire : WireFrame) :
    ParentRead → Except ChannelError (ParentFields × ParentPc F)
  | .hello unboundedStream => do
    let hello : Json F ← decodeReceivedWireFrame wire
    requireExactFields hello helloFields "HELLO"
    requireKind hello "HELLO"
    requireVersion hello
    requireFrameChannel hello id
    let p := { p with receiveUnbounded := some unboundedStream, status := .receiving }
    receiveMode p
    .ok (p, .reading call .frame)
  | .frame => do
    let value : Json F ← decodeReceivedWireFrame wire
    advanceReceive id sha256 p call value wire
  | .suffix record => do
    let endValue : Json F ← decodeReceivedWireFrame wire
    match endValue.get? (.lit "kind") with
    | some (.str kind) =>
      if kind = .lit "END" then do
        receiveFinalStream id sha256 p endValue
        .ok (p, .reading call (.trailing (some record)))
      else .error (.protocol "autonomous event channel terminal event was not the final EVENT")
    | _ => .error (.protocol "autonomous event channel terminal event was not the final EVENT")
  | .trailing _ => .error (.protocol "autonomous event channel received bytes after END")

/-- The stream `_receive_final_stream` puts together. -/
def finalStream (sha256 : List UInt8 → Hex64) (r : ReceiveState) : ReceivedStream :=
  ⟨r.records, r.records.length, eventDigest sha256 r.digestInput, r.eventBytes⟩

/-- The parent's code from a clean end of the stream to the next socket call. -/
def parentEof (F : Type) (sha256 : List UInt8 → Hex64) (p : ParentFields) (call : Receiving) :
    ParentRead → Except ChannelError (ParentFields × ParentPc F)
  | .hello _ => .error (.protocol "autonomous event channel closed before HELLO")
  | .frame => .error (.protocol "autonomous event channel closed before END")
  | .suffix _ => .error (.protocol "autonomous event channel closed before END")
  | .trailing none =>
    .error (.state "autonomous event channel END bypassed terminal delivery")
  | .trailing (some record) =>
    let p := { p with pendingReceived := some (finalStream sha256 p.receive)
                      status := .finalPending }
    match call with
    | .next => .ok (p, .returning (.record record))
    | .all => do
      let (p, stream) ← exposeFinalStream p
      .ok (p, .returning (.stream stream))

/-! ## The system -/

/-- A child with the operation it is in, if any, and the epoch that operation started at.  The
frames it handed to `sendall` and the acknowledgement `complete` returned are not kept by the
program. -/
structure Child (F : Type) [PyFloat F] where
  endpoint : Endpoint
  fields : ChildFields
  active : Option (Nat × ChildPc F)
  sent : List (Sent F)
  acknowledgement : Option Acknowledgement

/-- A parent with the operation it is in.  That it saw the end of the stream, and the stream a
receiving call returned, are not kept by the program. -/
structure Parent (F : Type) where
  endpoint : Endpoint
  fields : ParentFields
  active : Option (Nat × ParentPc F)
  sawEof : Bool
  exposed : Option ReceivedStream

structure Sys (F : Type) [PyFloat F] where
  child : Child F
  parent : Parent F
  toParent : Pipe
  toChild : Pipe

namespace Sys

def initial : Sys F where
  child := ⟨.new, ⟨.new, 0, 0, 0, []⟩, none, [], none⟩
  parent := ⟨.new, ⟨.new, .initial, none, none, none⟩, none, false, none⟩
  toParent := .empty
  toChild := .empty

variable (id : ChannelId) (sha256 : List UInt8 → Hex64)

/-- The child's endpoint changes, and its direction ends. -/
def endChild (s : Sys F) (endpoint : Endpoint) : Sys F :=
  { s with child := { s.child with endpoint := endpoint }, toParent := s.toParent.close }

/-- An operation of the child raises: `_abort`, and the exception leaves the call. -/
def childRaise (s : Sys F) : Sys F :=
  Sys.endChild
    { s with child := { s.child with
        fields := { s.child.fields with status := .failed }
        active := none } }
    (s.child.endpoint.abort.logged false)

/-- The child's operation goes on to its next socket call. -/
def childResume (s : Sys F) (epoch : Nat) :
    Except ChannelError (ChildFields × ChildMove F) → Sys F
  | .error _ => s.childRaise
  | .ok (c, .goto pc) =>
    { s with child := { s.child with fields := c, active := some (epoch, pc) } }
  | .ok (c, .send sent next) =>
    { s with
      child := { s.child with
        fields := c
        active := some (epoch, .sending next)
        sent := s.child.sent ++ [sent] }
      toParent := s.toParent.begin (sent.body id) }

/-- A call on the child starts. -/
def childStart (s : Sys F) (call : ChildCall F) : Sys F :=
  s.childResume id s.child.endpoint.operationEpoch
    ((childCall id s.child.fields call).map fun (sent, next) ↦ (s.child.fields, .send sent next))

/-- The child shuts its direction down and waits for the acknowledgement. -/
def childShutdown (s : Sys F) (epoch : Nat) : Sys F :=
  Sys.endChild
    { s with child := { s.child with
        fields := { s.child.fields with status := .awaitingAck }
        active := some (epoch, .readingAck) } }
    s.child.endpoint

/-- The child has the next `k` bytes of the frame it reads. -/
def childPull (s : Sys F) (epoch : Nat) (pc : ChildPc F) (k : Nat) : Sys F :=
  let s := { s with toChild := s.toChild.pull k }
  match header? s.toChild.held with
  | none => s
  | some n =>
    if n = 0 ∨ frameHeaderSize + n > maxFrameBytes then s.childRaise
    else
      match body? s.toChild.held with
      | none => s
      | some body =>
        let s := { s with toChild := s.toChild.finish body }
        match pc with
        | .readingAck => s.childResume id epoch
            ((childAck F id sha256 s.child.fields ⟨body, frame body⟩).map
              fun ack ↦ (s.child.fields, .goto (.readingTrailing ack)))
        | _ => s.childRaise

/-- The child sees the end of the stream. -/
def childEof (s : Sys F) (epoch : Nat) (pc : ChildPc F) : Sys F :=
  Sys.childResume id { s with child := { s.child with endpoint := s.child.endpoint.shut } } epoch
    (match pc with
    | .readingTrailing ack =>
      .ok ({ s.child.fields with status := .completed }, .goto (.returning (some ack)))
    | _ => .error (.acknowledgement "autonomous event channel closed before ACK"))

/-- A call of the child ends. -/
def childReturn (s : Sys F) (epoch : Nat) (result : Option Acknowledgement) : Sys F :=
  if s.child.endpoint.intact epoch then
    { s with child := { s.child with
        endpoint := s.child.endpoint.logged true
        active := none
        acknowledgement := result.or s.child.acknowledgement } }
  else
    Sys.endChild { s with child := { s.child with active := none } }
      (s.child.endpoint.abort.logged false)

/-- The parent's endpoint changes, and its direction ends. -/
def endParent (s : Sys F) (endpoint : Endpoint) : Sys F :=
  { s with parent := { s.parent with endpoint := endpoint }, toChild := s.toChild.close }

/-- An operation of the parent raises. -/
def parentRaise (s : Sys F) : Sys F :=
  Sys.endParent
    { s with parent := { s.parent with
        fields := { s.parent.fields with status := .failed }
        active := none } }
    (s.parent.endpoint.abort.logged false)

/-- The parent's operation goes on to its next socket call. -/
def parentResume (s : Sys F) (epoch : Nat) :
    Except ChannelError (ParentFields × (ParentPc F ⊕ List UInt8)) → Sys F
  | .error _ => s.parentRaise
  | .ok (p, .inl pc) =>
    { s with parent := { s.parent with fields := p, active := some (epoch, pc) } }
  | .ok (p, .inr body) =>
    { s with
      parent := { s.parent with fields := p, active := some (epoch, .sendingAck) }
      toChild := s.toChild.begin body }

/-- A call on the parent starts. -/
def parentStart (s : Sys F) (call : ParentCall) : Sys F :=
  s.parentResume s.parent.endpoint.operationEpoch (parentCall F id s.parent.fields call)

/-- The acknowledgement is out. -/
def parentSent (s : Sys F) (epoch : Nat) : Sys F :=
  { s with parent := { s.parent with active := some (epoch, .shuttingDown) } }

/-- The parent shuts its direction down after the acknowledgement. -/
def parentShutdown (s : Sys F) (epoch : Nat) : Sys F :=
  Sys.endParent
    { s with parent := { s.parent with
        fields := { s.parent.fields with status := .acknowledged }
        active := some (epoch, .returning .acknowledged) } }
    s.parent.endpoint.shut

/-- The parent has the next `k` bytes of the frame it reads. -/
def parentPull (s : Sys F) (epoch : Nat) (call : Receiving) (next : ParentRead) (k : Nat) :
    Sys F :=
  let s := { s with toParent := s.toParent.pull k }
  match header? s.toParent.held with
  | none => s
  | some n =>
    if n = 0 ∨ frameHeaderSize + n > maxFrameBytes then s.parentRaise
    else
      match body? s.toParent.held with
      | none => s
      | some body =>
        let s := { s with toParent := s.toParent.finish body }
        s.parentResume epoch ((parentFrame F id sha256 s.parent.fields call ⟨body, frame body⟩
          next).map fun (p, pc) ↦ (p, .inl pc))

/-- The parent sees the end of the stream. -/
def parentEof (s : Sys F) (epoch : Nat) (call : Receiving) (next : ParentRead) : Sys F :=
  Sys.parentResume { s with parent := { s.parent with sawEof := true } } epoch
    ((EventChannel.parentEof F sha256 s.parent.fields call next).map fun (p, pc) ↦ (p, .inl pc))

/-- A call of the parent ends. -/
def parentReturn (s : Sys F) (epoch : Nat) (result : ParentResult F) : Sys F :=
  if s.parent.endpoint.intact epoch then
    { s with parent := { s.parent with
        endpoint := s.parent.endpoint.logged true
        active := none
        exposed := result.stream?.or s.parent.exposed } }
  else
    Sys.endParent { s with parent := { s.parent with active := none } }
      (s.parent.endpoint.abort.logged false)

end Sys

/-- The child waits for a frame. -/
def ChildPc.reads : ChildPc F → Bool
  | .readingAck => true
  | .readingTrailing _ => true
  | _ => false

/-- The end of the stream is there to be read, or the endpoint was shut down under the reader. -/
def eofReadable (p : Pipe) (failed : Bool) : Prop :=
  p.held = [] ∧ (p.ended = true ∧ p.inFlight = [] ∨ failed = true)

/-- One move of one of the endpoints.  Any operation may also raise at any point (`childError`,
`parentError`): a timeout, an error of the socket, a premature end of the stream, a socket that
another caller detached. -/
inductive Step (id : ChannelId) (sha256 : List UInt8 → Hex64) (s : Sys F) : Sys F → Prop
  | childCall (call : ChildCall F) (hidle : s.child.active = none)
      (hopen : s.child.endpoint.closed = false) (hok : s.child.endpoint.failed = false) :
      Step id sha256 s (s.childStart id call)
  | childRefused (hidle : s.child.active = none)
      (hgone : s.child.endpoint.closed = true ∨ s.child.endpoint.failed = true) :
      Step id sha256 s { s with child := { s.child with
        endpoint := s.child.endpoint.logged false } }
  | childConcurrent (hbusy : s.child.active.isSome = true) :
      Step id sha256 s (s.endChild (s.child.endpoint.abort.logged false))
  | childPush (epoch : Nat) (next : ChildNext F) (k : Nat)
      (hpc : s.child.active = some (epoch, .sending next)) (hk : 0 < k)
      (hle : k ≤ s.toParent.unsent.length) (hopen : s.toParent.ended = false) :
      Step id sha256 s { s with toParent := s.toParent.push k }
  | childSent (epoch : Nat) (next : ChildNext F)
      (hpc : s.child.active = some (epoch, .sending next)) (hout : s.toParent.unsent = []) :
      Step id sha256 s (s.childResume id epoch (childSent id sha256 s.child.fields next))
  | childShutdown (epoch : Nat) (hpc : s.child.active = some (epoch, .shuttingDown)) :
      Step id sha256 s (s.childShutdown epoch)
  | childPull (epoch : Nat) (pc : ChildPc F) (k : Nat)
      (hpc : s.child.active = some (epoch, pc)) (hreads : pc.reads = true) (hk : 0 < k)
      (hroom : k ≤ room s.toChild.held) (hle : k ≤ s.toChild.inFlight.length) :
      Step id sha256 s (s.childPull id sha256 epoch pc k)
  | childEof (epoch : Nat) (pc : ChildPc F)
      (hpc : s.child.active = some (epoch, pc)) (hreads : pc.reads = true)
      (heof : eofReadable s.toChild s.child.endpoint.failed) :
      Step id sha256 s (s.childEof id epoch pc)
  | childError (hbusy : s.child.active.isSome = true) : Step id sha256 s s.childRaise
  | childReturn (epoch : Nat) (result : Option Acknowledgement)
      (hpc : s.child.active = some (epoch, .returning result)) :
      Step id sha256 s (s.childReturn epoch result)
  | childInterrupt : Step id sha256 s (s.endChild s.child.endpoint.abort)
  | childClose (hidle : s.child.active = none) :
      Step id sha256 s (s.endChild s.child.endpoint.shut)
  | parentCall (call : ParentCall) (hidle : s.parent.active = none)
      (hopen : s.parent.endpoint.closed = false) (hok : s.parent.endpoint.failed = false) :
      Step id sha256 s (s.parentStart id call)
  | parentRefused (hidle : s.parent.active = none)
      (hgone : s.parent.endpoint.closed = true ∨ s.parent.endpoint.failed = true) :
      Step id sha256 s { s with parent := { s.parent with
        endpoint := s.parent.endpoint.logged false } }
  | parentConcurrent (hbusy : s.parent.active.isSome = true) :
      Step id sha256 s (s.endParent (s.parent.endpoint.abort.logged false))
  | parentPush (epoch : Nat) (k : Nat)
      (hpc : s.parent.active = some (epoch, .sendingAck)) (hk : 0 < k)
      (hle : k ≤ s.toChild.unsent.length) (hopen : s.toChild.ended = false) :
      Step id sha256 s { s with toChild := s.toChild.push k }
  | parentSent (epoch : Nat)
      (hpc : s.parent.active = some (epoch, .sendingAck)) (hout : s.toChild.unsent = []) :
      Step id sha256 s (s.parentSent epoch)
  | parentShutdown (epoch : Nat) (hpc : s.parent.active = some (epoch, .shuttingDown)) :
      Step id sha256 s (s.parentShutdown epoch)
  | parentPull (epoch : Nat) (call : Receiving) (next : ParentRead) (k : Nat)
      (hpc : s.parent.active = some (epoch, .reading call next)) (hk : 0 < k)
      (hroom : k ≤ room s.toParent.held) (hle : k ≤ s.toParent.inFlight.length) :
      Step id sha256 s (s.parentPull id sha256 epoch call next k)
  | parentEof (epoch : Nat) (call : Receiving) (next : ParentRead)
      (hpc : s.parent.active = some (epoch, .reading call next))
      (heof : eofReadable s.toParent s.parent.endpoint.failed) :
      Step id sha256 s (s.parentEof sha256 epoch call next)
  | parentError (hbusy : s.parent.active.isSome = true) : Step id sha256 s s.parentRaise
  | parentReturn (epoch : Nat) (result : ParentResult F)
      (hpc : s.parent.active = some (epoch, .returning result)) :
      Step id sha256 s (s.parentReturn epoch result)
  | parentInterrupt : Step id sha256 s (s.endParent s.parent.endpoint.abort)
  | parentClose (hidle : s.parent.active = none) :
      Step id sha256 s (s.endParent s.parent.endpoint.shut)

/-- The states the two endpoints can get into. -/
def Reachable (id : ChannelId) (sha256 : List UInt8 → Hex64) (s : Sys F) : Prop :=
  Relation.ReflTransGen (Step id sha256) Sys.initial s

end AgentGateway.EventChannel
