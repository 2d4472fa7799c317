import AgentGateway.EventChannel.Sending

/-!
# What the parent receives

The receive fields of a parent are a function of the frames it has read: they are those of a parent
that was given the events among them (`receiveOf`), because a frame of the child decodes to the
object it was made of and the record the parent makes of it is that of the child's event
(`receiveEventRecord_sent`).

`ParentInv` says what else is true of a parent that has read the frames `got`: past an `END` the
last of them is an `END` that states the count and the digest of what was received (`EndRead`), the
stream it puts together is made of what it received, and once its state is `received` the call that
is under way returns that stream or an earlier one has.  The code between two socket calls keeps it.
-/

namespace AgentGateway.EventChannel

open Py

variable {F : Type} [PyFloat F]

/-! ## What the parent receives -/

/-- The receive fields of a parent that was given these events. -/
def receiveOf (id : ChannelId) (es : List (SentEvent F)) : ReceiveState :=
  es.foldl (fun st e ↦ st.append (e.record id) e.isTerminal) .initial

theorem receiveOf_concat (id : ChannelId) (es : List (SentEvent F)) (e : SentEvent F) :
    receiveOf id (es ++ [e]) = (receiveOf id es).append (e.record id) e.isTerminal := by
  rw [receiveOf, List.foldl_append]
  rfl

theorem receiveOf_records (id : ChannelId) (es : List (SentEvent F)) :
    (receiveOf id es).records = es.map (SentEvent.record id) := by
  induction es using List.reverseRecOn with
  | nil => rfl
  | append_singleton es e ih =>
    rw [receiveOf_concat, List.map_append, ← ih]
    rfl

theorem receiveOf_digestInput (id : ChannelId) (es : List (SentEvent F)) :
    (receiveOf id es).digestInput =
      ((receiveOf id es).records.map AutonomousEventRecord.frameBytes).flatten := by
  induction es using List.reverseRecOn with
  | nil => rfl
  | append_singleton es e ih =>
    rw [receiveOf_concat]
    simp only [ReceiveState.append, List.map_append, List.flatten_append, ih]
    simp

variable {v : Json F}

/-- What `_receive_event_record` has checked. -/
theorem receiveEventRecord_ok {id : ChannelId} {st st' : ReceiveState} {wire : WireFrame}
    {r : AutonomousEventRecord} (h : receiveEventRecord id st v wire = .ok (r, st')) :
    ∃ event snap, v.get? (.lit "event") = some event ∧ snapshotEvent event = .ok snap ∧
      requireNonnegativeInt (v.get? (.lit "seq")) "EVENT seq" = .ok st.expectedSeq ∧
      r = ⟨st.expectedSeq, wire.frameBytes, snap.lineBytes⟩ ∧
      st' = st.append r (snap.eventType ∈ terminalEventTypes) := by
  simp only [receiveEventRecord, bind_eq_ok_iff] at h
  obtain ⟨-, -, -, -, -, -, -, -, seq, hseq, h⟩ := h
  split at h
  · cases h
  next hexp =>
    obtain rfl := not_not.1 hexp
    split at h
    · cases h
    next event hevent =>
      split at h
      · cases h
      · cases h
      next snap hsnap =>
        split at h
        · cases h
        · split at h
          · cases h
          · split at h
            · cases h
            · cases h
              exact ⟨event, snap, hevent, hsnap, hseq, rfl, rfl⟩

theorem decodeReceivedWireFrame_ok {wire : WireFrame} (h : decodeReceivedWireFrame wire = .ok v) :
    decodeCanonicalJsonObject wire.body = .ok v := by
  rw [decodeReceivedWireFrame] at h
  split at h
  · cases h
  · exact h

/-- **The record the parent makes of a frame of the child's is that of the child's event.** -/
theorem receiveEventRecord_sent {id : ChannelId} {e : SentEvent F} (he : e.seq < maxEvents)
    {st st' : ReceiveState} {r : AutonomousEventRecord}
    (hv : decodeCanonicalJsonObject (e.body id) = .ok v)
    (h : receiveEventRecord id st v ⟨e.body id, frame (e.body id)⟩ = .ok (r, st')) :
    r = e.record id ∧ st' = st.append (e.record id) e.isTerminal := by
  obtain ⟨rfl, hroom⟩ := (decodeCanonicalJsonObject_eventBody e.event.2 e.admitted id he v).1 hv
  obtain ⟨event, snap, hevent, hsnap, hseq, rfl, rfl⟩ := receiveEventRecord_ok h
  obtain rfl : e.event.1.sortKeys = event := Option.some.inj hevent
  have hbytes := hroom.bytes
  have hmax : maxFrameBytes - frameHeaderSize ≤ maxLineBytes - 1 := by decide
  rw [snapshotEvent_sortKeys e.event.2 e.admitted (by omega)] at hsnap
  obtain rfl : e.snap = snap := Except.ok.inj hsnap
  obtain hseq : e.seq = st.expectedSeq := Except.ok.inj hseq
  have hrec : (⟨st.expectedSeq, frame (e.body id), e.snap.lineBytes⟩ : AutonomousEventRecord) =
      e.record id := by rw [SentEvent.record, hseq]
  exact ⟨hrec, by rw [hrec]; rfl⟩

/-- The last frame that was read is an `END`, and it states the count and the digest of what was
received. -/
def EndRead (sha256 : List UInt8 → Hex64) (r : ReceiveState) (got : List (Sent F)) : Prop :=
  ∃ init b, got = init ++ [.finish b] ∧ ∃ v : Json F, decodeCanonicalJsonObject b = .ok v ∧
    v.get? (.lit "kind") = some (.str (.lit "END")) ∧
    v.get? (.lit "event_count") = some (.int r.records.length) ∧
    v.get? (.lit "event_digest") = some (.str (eventDigest sha256 r.digestInput))

variable {u : Unit}

omit [PyFloat F] in
theorem requireKind_ok {kind : String} (h : requireKind v kind = .ok u) :
    v.get? (.lit "kind") = some (.str (.lit kind)) := by
  rw [requireKind] at h
  split at h
  next k hk =>
    split at h
    · cases h
    · split at h
      · cases h
      next hne => rw [hk, not_not.1 hne]
  · cases h

omit [PyFloat F] in
theorem requireNonnegativeInt_ok {v : Option (Json F)} {name : String} {n : Nat}
    (h : requireNonnegativeInt v name = .ok n) : v = some (.int n) := by
  unfold requireNonnegativeInt at h
  split at h
  · cases h
    rfl
  · cases h

omit [PyFloat F] in
theorem requireDigest_ok {v : Option (Json F)} {name : String} {d : Str}
    (h : requireDigest v name = .ok d) : v = some (.str d) := by
  unfold requireDigest at h
  split at h
  · split at h
    · cases h
      rfl
    · cases h
  · cases h

omit [PyFloat F] in
/-- What `_receive_final_stream` has checked. -/
theorem receiveFinalStream_ok {id : ChannelId} {sha256 : List UInt8 → Hex64} {p : ParentFields}
    (h : receiveFinalStream id sha256 p v = .ok u) :
    v.get? (.lit "kind") = some (.str (.lit "END")) ∧
    v.get? (.lit "event_count") = some (.int p.receive.records.length) ∧
    v.get? (.lit "event_digest") = some (.str (eventDigest sha256 p.receive.digestInput)) := by
  simp only [receiveFinalStream, bind_eq_ok_iff] at h
  obtain ⟨-, -, u', hkind, -, -, -, -, h⟩ := h
  split at h
  · cases h
  · simp only [bind_eq_ok_iff] at h
    obtain ⟨count, hcount, digest, hdigest, h⟩ := h
    split at h
    · cases h
    next hne =>
      rw [not_or, not_not, not_not] at hne
      obtain ⟨rfl, rfl⟩ := hne
      exact ⟨requireKind_ok hkind, requireNonnegativeInt_ok hcount, requireDigest_ok hdigest⟩

/-! ## The parent's code between two socket calls -/

/-- The status in which the parent waits for a frame. -/
def ParentRead.status : ParentRead → ParentStatus
  | .hello _ => .new
  | _ => .receiving

theorem ParentRead.status_ne_failed (next : ParentRead) : next.status ≠ .failed := by
  cases next <;> nofun

/-- What the fields say where an operation of the parent stands, if `AfterEnd` is what is known once
an `END` was read. -/
def ParentPc.Ok (p : ParentFields) (AfterEnd : Prop) : ParentPc F → Prop
  | .reading _ (.trailing _) => p.status = .receiving ∧ AfterEnd
  | .reading _ next => p.status = next.status
  | .returning (.stream st) => p.status = .received ∧ p.received = some st
  | .returning _ => p.status ≠ .failed
  | _ => p.status = .received

variable {x : Sent F}

/-- The only frame of a given kind. -/
theorem Sent.eq_of_kind {id : ChannelId} (hx : SentOk id x)
    (hv : decodeCanonicalJsonObject (x.body id) = .ok v) {kind : Str}
    (hk : v.get? (.lit "kind") = some (.str kind)) : kind = .lit x.kind := by
  rw [kind_of_sent hx hv] at hk
  exact ((Json.str.inj (Option.some.inj hk))).symm

theorem Sent.event?_eq_none (h : x.kind ≠ "EVENT") : x.event? = none := by
  cases x with
  | event => exact absurd rfl h
  | _ => rfl

theorem Sent.exists_event (h : (.lit "EVENT" : Str) = .lit x.kind) :
    ∃ e, x = .event e := by
  cases x with
  | event e => exact ⟨e, rfl⟩
  | hello | capture | finish => exact absurd h (by dsimp only [Sent.kind]; decide)

theorem Sent.exists_finish (h : (.lit "END" : Str) = .lit x.kind) :
    ∃ b, x = .finish b := by
  cases x with
  | finish b => exact ⟨b, rfl⟩
  | hello | capture | event => exact absurd h (by dsimp only [Sent.kind]; decide)

/-- An `END` that `_receive_final_stream` accepts is there to be quoted. -/
theorem endRead_of_final {id : ChannelId} {sha256 : List UInt8 → Hex64} {p : ParentFields}
    (hv : decodeCanonicalJsonObject (x.body id) = .ok v)
    (h : receiveFinalStream id sha256 p v = .ok u) (hx : SentOk id x) (got : List (Sent F)) :
    EndRead sha256 p.receive (got ++ [x]) ∧ x.event? = none := by
  obtain ⟨hkind, hcount, hdigest⟩ := receiveFinalStream_ok h
  obtain ⟨b, rfl⟩ := Sent.exists_finish (Sent.eq_of_kind hx hv hkind)
  exact ⟨⟨got, b, rfl, v, hv, hkind, hcount, hdigest⟩, rfl⟩

variable {pc : ParentPc F}

/-- `_advance_receive` on a frame of the child. -/
theorem advanceReceive_ok {id : ChannelId} {sha256 : List UInt8 → Hex64} {p p' : ParentFields}
    {call : Receiving} (hx : SentOk id x) {got : List (Sent F)}
    (hr : p.receive = receiveOf id (eventsOf got)) (hst : p.status = .receiving)
    (hv : decodeCanonicalJsonObject (x.body id) = .ok v)
    (h : advanceReceive id sha256 p call v ⟨x.body id, frame (x.body id)⟩ = .ok (p', pc)) :
    p'.status = .receiving ∧ p'.receive = receiveOf id (eventsOf (got ++ [x])) ∧
      pc.Ok p' (EndRead sha256 p'.receive (got ++ [x])) := by
  have hlive : p.status ≠ .failed := by rw [hst]; decide
  unfold advanceReceive at h
  split at h
  next kind hkind =>
    have hk := Sent.eq_of_kind hx hv hkind
    split at h
    · cases h
    · split at h
      next hcap =>
        simp only [bind_eq_ok_iff] at h
        obtain ⟨-, -, -, -, -, -, h⟩ := h
        have hne : x.event? = none := by
          refine Sent.event?_eq_none fun hev ↦ ?_
          rw [hcap, hev] at hk
          exact absurd hk (by decide)
        split at h
        · cases h
          exact ⟨hst, by rw [eventsOf_concat_of_none hne]; exact hr, hlive⟩
        · cases h
        · cases h
      · split at h
        next hev =>
          obtain ⟨⟨record, receive⟩, hrec, h⟩ := bind_eq_ok_iff.1 h
          obtain ⟨e, rfl⟩ := Sent.exists_event (hev ▸ hk)
          obtain ⟨rfl, rfl⟩ := receiveEventRecord_sent hx hv hrec
          have hgot : p.receive.append (e.record id) e.isTerminal =
              receiveOf id (eventsOf (got ++ [.event e])) := by
            rw [eventsOf_append, hr]
            exact (receiveOf_concat id _ e).symm
          dsimp only at h
          split at h
          · cases h
            exact ⟨hst, hgot, hst⟩
          · cases h
            refine ⟨hst, hgot, ?_⟩
            cases call with
            | next => exact hlive
            | all => exact hst
        · split at h
          · obtain ⟨u, hfin, h⟩ := bind_eq_ok_iff.1 h
            cases h
            obtain ⟨hend, hne⟩ := endRead_of_final hv hfin hx got
            exact ⟨hst, by rw [eventsOf_concat_of_none hne]; exact hr, hst, hend⟩
          · split at h <;> cases h
  · split at h <;> cases h

variable {next : ParentRead}

/-- **A frame of the child leaves the parent receiving**, with the event of the frame, if it has
one, added to what it has received. -/
theorem parentFrame_ok {id : ChannelId} {sha256 : List UInt8 → Hex64} {p p' : ParentFields}
    {call : Receiving} (hx : SentOk id x) {got : List (Sent F)}
    (hr : p.receive = receiveOf id (eventsOf got)) (hst : p.status = next.status)
    (h : parentFrame F id sha256 p call ⟨x.body id, frame (x.body id)⟩ next = .ok (p', pc)) :
    p'.status = .receiving ∧ p'.receive = receiveOf id (eventsOf (got ++ [x])) ∧
      pc.Ok p' (EndRead sha256 p'.receive (got ++ [x])) := by
  cases next with
  | hello =>
    simp only [parentFrame, bind_eq_ok_iff] at h
    obtain ⟨v, hv, -, -, u, hkind, -, -, -, -, -, -, h⟩ := h
    cases h
    have hk := Sent.eq_of_kind hx (decodeReceivedWireFrame_ok hv) (requireKind_ok hkind)
    have hne : x.event? = none := by
      refine Sent.event?_eq_none fun hev ↦ ?_
      rw [hev] at hk
      exact absurd hk (by decide)
    exact ⟨rfl, by rw [eventsOf_concat_of_none hne]; exact hr, rfl⟩
  | frame =>
    obtain ⟨v, hv, h⟩ := bind_eq_ok_iff.1 h
    exact advanceReceive_ok hx hr hst (decodeReceivedWireFrame_ok hv) h
  | suffix =>
    obtain ⟨v, hv, h⟩ := bind_eq_ok_iff.1 h
    split at h
    · split at h
      · obtain ⟨u, hfin, h⟩ := bind_eq_ok_iff.1 h
        cases h
        obtain ⟨hend, hne⟩ := endRead_of_final (decodeReceivedWireFrame_ok hv) hfin hx got
        exact ⟨hst, by rw [eventsOf_concat_of_none hne]; exact hr, hst, hend⟩
      · cases h
    · cases h
  | trailing => cases h

/-! ## What is true of a parent -/

/-- A stream was received, as far as the status says. -/
def ParentStatus.isReceived : ParentStatus → Bool
  | .received | .acknowledged => true
  | _ => false

/-- The stream is complete, as far as the status says. -/
def ParentStatus.isFinal (status : ParentStatus) : Bool :=
  status = .finalPending || status.isReceived

/-- The parent is in `acknowledge`, past its first step. -/
def isAcking : Option (Nat × ParentPc F) → Bool
  | some (_, .sendingAck) => true
  | some (_, .shuttingDown) => true
  | _ => false

/-- A parent that has read the frames `got`. -/
structure ParentInv (id : ChannelId) (sha256 : List UInt8 → Hex64) (p : Parent F)
    (got : List (Sent F)) : Prop where
  receive : p.fields.status ≠ .failed → p.fields.receive = receiveOf id (eventsOf got)
  active : ∀ epoch pc, p.active = some (epoch, pc) →
    pc.Ok p.fields (EndRead sha256 (receiveOf id (eventsOf got)) got)
  final : p.fields.status.isFinal = true →
    EndRead sha256 (receiveOf id (eventsOf got)) got ∧ p.sawEof = true
  pending : p.fields.status = .finalPending →
    p.fields.pendingReceived = some (finalStream sha256 (receiveOf id (eventsOf got)))
  received : p.fields.status.isReceived = true →
    p.fields.received = some (finalStream sha256 (receiveOf id (eventsOf got)))
  exposed : ∀ st, p.exposed = some st →
    (p.fields.status.isReceived = true ∨ p.fields.status = .failed) ∧
    EndRead sha256 (receiveOf id (eventsOf got)) got ∧
    st = finalStream sha256 (receiveOf id (eventsOf got))
  exposure : p.fields.status.isReceived = true → p.endpoint.failed = false →
    (∃ epoch st, p.active = some (epoch, .returning (.stream st))) ∨ p.exposed.isSome = true

namespace ParentInv

variable {id : ChannelId} {sha256 : List UInt8 → Hex64} {p : Parent F} {got : List (Sent F)}

theorem initial : ParentInv (F := F) id sha256 Sys.initial.parent [] where
  receive _ := rfl
  active _ _ ha := by cases ha
  final hst := by cases hst
  pending hst := by cases hst
  received hst := by cases hst
  exposed _ he := by cases he
  exposure hst := by cases hst

section

variable (h : ParentInv id sha256 p got)

include h

/-- The flags of the endpoint enter only through `failed`. -/
theorem congr_endpoint (endpoint : Endpoint)
    (hf : endpoint.failed = false → p.endpoint.failed = false) :
    ParentInv id sha256 { p with endpoint := endpoint } got :=
  { h with exposure := fun hst hfail ↦ h.exposure hst (hf hfail) }

omit h in
/-- After an exception only what was exposed before is left to say. -/
theorem of_failed (hst : p.fields.status = .failed) (hact : p.active = none)
    (hexp : ∀ st, p.exposed = some st → EndRead sha256 (receiveOf id (eventsOf got)) got ∧
      st = finalStream sha256 (receiveOf id (eventsOf got))) : ParentInv id sha256 p got where
  receive hf := absurd hst hf
  active _ _ ha := by rw [hact] at ha; cases ha
  final hf := by rw [hst] at hf; cases hf
  pending hf := by rw [hst] at hf; cases hf
  received hf := by rw [hst] at hf; cases hf
  exposed st he := ⟨.inr hst, hexp st he⟩
  exposure hf := by rw [hst] at hf; cases hf

variable {epoch : Nat}

omit h in
/-- A parent that is receiving. -/
theorem of_receiving (ha : p.active = some (epoch, pc)) (hst : p.fields.status = .receiving)
    (hr : p.fields.receive = receiveOf id (eventsOf got))
    (hpc : pc.Ok p.fields (EndRead sha256 p.fields.receive got)) (hexp : p.exposed = none) :
    ParentInv id sha256 p got where
  receive _ := hr
  active _ _ ha' := by
    rw [ha] at ha'
    cases ha'
    rwa [hr] at hpc
  final hf := by rw [hst] at hf; cases hf
  pending hf := by rw [hst] at hf; cases hf
  received hf := by rw [hst] at hf; cases hf
  exposed st he := by rw [hexp] at he; cases he
  exposure hf := by rw [hst] at hf; cases hf

/-- The status of a parent that reads. -/
theorem reading {call : Receiving} (ha : p.active = some (epoch, .reading call next)) :
    p.fields.status = next.status := by
  have hok := h.active _ _ ha
  cases next with
  | trailing => exact hok.1
  | _ => exact hok

/-- Nothing was exposed before the stream was. -/
theorem exposed_eq_none (hst : p.fields.status.isReceived = false)
    (hlive : p.fields.status ≠ .failed) : p.exposed = none := by
  cases he : p.exposed with
  | none => rfl
  | some st =>
    rcases (h.exposed st he).1 with hf | hf
    · rw [hst] at hf
      cases hf
    · exact absurd hf hlive

/-- What the parent has while it reads. -/
theorem of_reading {call : Receiving} (ha : p.active = some (epoch, .reading call next)) :
    p.fields.receive = receiveOf id (eventsOf got) ∧ p.exposed = none := by
  have hst := h.reading ha
  have hlive : p.fields.status ≠ .failed := hst ▸ next.status_ne_failed
  refine ⟨h.receive hlive, h.exposed_eq_none ?_ hlive⟩
  rw [hst]
  cases next <;> rfl

variable {fields : ParentFields}

/-- The parent reads a frame of the child. -/
theorem frame {call : Receiving} (ha : p.active = some (epoch, .reading call next))
    (hx : SentOk id x)
    (hf : parentFrame F id sha256 p.fields call ⟨x.body id, Py.frame (x.body id)⟩ next =
      .ok (fields, pc)) :
    ParentInv id sha256 { p with fields := fields, active := some (epoch, pc) } (got ++ [x]) := by
  obtain ⟨hreceive, hexp⟩ := h.of_reading ha
  obtain ⟨hst, hr, hpc⟩ := parentFrame_ok hx hreceive (h.reading ha) hf
  exact of_receiving rfl hst hr hpc hexp

omit h in
/-- A parent that returns from a call with the stream complete, and returns the stream exactly if
its status is `received`. -/
theorem of_final {result : ParentResult F} (ha : p.active = some (epoch, .returning result))
    (hr : p.fields.receive = receiveOf id (eventsOf got))
    (hend : EndRead sha256 (receiveOf id (eventsOf got)) got) (heof : p.sawEof = true)
    (hexp : p.exposed = none) (hst : (p.fields.status = .finalPending ∧ result.stream? = none ∧
        p.fields.pendingReceived = some (finalStream sha256 p.fields.receive)) ∨
      (p.fields.status = .received ∧ result = .stream (finalStream sha256 p.fields.receive) ∧
        p.fields.received = some (finalStream sha256 p.fields.receive))) :
    ParentInv id sha256 p got where
  receive _ := hr
  active _ _ ha' := by
    rw [ha] at ha'
    cases ha'
    rcases hst with ⟨hst, hres, -⟩ | ⟨hst, rfl, hp⟩
    · cases result with
      | stream => cases hres
      | _ => exact fun hf ↦ by rw [hst] at hf; cases hf
    · exact ⟨hst, hp⟩
  final _ := ⟨hend, heof⟩
  pending hf := by
    rcases hst with ⟨-, -, hp⟩ | ⟨hst, -⟩
    · rw [hp, hr]
    · rw [hst] at hf
      cases hf
  received hf := by
    rcases hst with ⟨hst, -⟩ | ⟨-, -, hp⟩
    · rw [hst] at hf
      cases hf
    · rw [hp, hr]
  exposed st he := by rw [hexp] at he; cases he
  exposure hf _ := by
    rcases hst with ⟨hst, -⟩ | ⟨-, hres, -⟩
    · rw [hst] at hf
      cases hf
    · exact .inl ⟨epoch, _, by rw [ha, hres]⟩

/-- The parent sees the end of the stream. -/
theorem eof {call : Receiving} (ha : p.active = some (epoch, .reading call next))
    (hf : parentEof F sha256 p.fields call next = .ok (fields, pc)) :
    ParentInv id sha256 { p with sawEof := true, fields := fields, active := some (epoch, pc) }
      got := by
  obtain ⟨hr, hexp⟩ := h.of_reading ha
  cases next with
  | hello => cases hf
  | frame => cases hf
  | suffix => cases hf
  | trailing r =>
    obtain ⟨-, hend⟩ := h.active _ _ ha
    cases r with
    | none => cases hf
    | some =>
      cases call with
      | next =>
        cases hf
        exact of_final rfl hr hend rfl hexp (.inl ⟨rfl, rfl, rfl⟩)
      | all =>
        cases hf
        exact of_final rfl hr hend rfl hexp (.inr ⟨rfl, rfl, rfl⟩)

/-- The parent waits for a `HELLO`, or for a frame of a stream that is under way. -/
theorem reads (epoch : Nat) (call : Receiving) (hst : p.fields.status = next.status)
    (hnext : ∀ r, next ≠ .trailing r) :
    ParentInv id sha256 { p with active := some (epoch, .reading call next) } got :=
  { h with
    active := fun _ _ ha ↦ by
      cases ha
      cases next with
      | trailing r => exact absurd rfl (hnext r)
      | _ => exact hst
    exposure := fun hf ↦ by
      rw [hst] at hf
      cases next <;> cases hf }

/-- A parent in `acknowledge`, past its first step. -/
theorem acks (hst : p.fields.status = .received)
    (hexp : p.endpoint.failed = false → p.exposed.isSome = true)
    {active : Option (Nat × ParentPc F)} (hact : isAcking active = true) :
    ParentInv id sha256 { p with active := active } got :=
  { h with
    active := fun _ pc ha ↦ by
      cases ha
      cases pc with
      | sendingAck | shuttingDown => exact hst
      | _ => cases hact
    exposure := fun _ hf ↦ .inr (hexp hf) }

/-- A call that starts either reads, returns the pending stream, or sends an acknowledgement of the
stream that was exposed. -/
theorem call (hidle : p.active = none) (hok : p.endpoint.failed = false) {call : ParentCall}
    {out : ParentPc F ⊕ List UInt8} (hcall : parentCall F id p.fields call = .ok (fields, out))
    (epoch : Nat) :
    (∃ pc, out = .inl pc ∧ (p.fields.status ≠ .acknowledged ∧ p.fields.status ≠ .failed) ∧
      ParentInv id sha256 { p with fields := fields, active := some (epoch, pc) } got) ∨
    (∃ body, out = .inr body ∧ body.length < 2 ^ 32 ∧ p.exposed.isSome = true ∧
      p.fields.status = .received ∧
      ParentInv id sha256 { p with fields := fields, active := some (epoch, .sendingAck) }
        got) := by
  cases call with
  | receiveNext =>
    refine .inl ?_
    unfold parentCall at hcall
    dsimp only at hcall
    split at hcall
    next hst =>
      split at hcall
      · cases hcall
      · cases hcall
        exact ⟨_, rfl, (by rw [hst]; decide), h.reads epoch _ hst nofun⟩
    next hst =>
      obtain ⟨-, -, hcall⟩ := bind_eq_ok_iff.1 hcall
      obtain ⟨-, -, hcall⟩ := bind_eq_ok_iff.1 hcall
      cases hcall
      exact ⟨_, rfl, (by rw [hst]; decide), h.reads epoch _ hst nofun⟩
    next hst =>
      obtain ⟨-, -, hcall⟩ := bind_eq_ok_iff.1 hcall
      obtain ⟨⟨fields', st⟩, hexp, hcall⟩ := bind_eq_ok_iff.1 hcall
      cases hcall
      have hlive : p.fields.status ≠ .failed := by rw [hst]; decide
      have hr := h.receive hlive
      rw [exposeFinalStream, hst, h.pending hst] at hexp
      cases hexp
      have hnone := h.exposed_eq_none (by rw [hst]; rfl) hlive
      obtain ⟨hend, heof⟩ := h.final (by rw [hst]; rfl)
      refine ⟨_, rfl, (by rw [hst]; decide), ?_⟩
      exact of_final rfl hr hend heof hnone (.inr ⟨rfl, by rw [hr], by rw [hr]⟩)
    · cases hcall
  | receive =>
    refine .inl ?_
    unfold parentCall at hcall
    dsimp only at hcall
    split at hcall
    · cases hcall
    next hst =>
      cases hcall
      have hnew := not_not.1 hst
      exact ⟨_, rfl, (by rw [hnew]; decide), h.reads epoch _ hnew nofun⟩
  | acknowledge =>
    refine .inr ?_
    unfold parentCall at hcall
    dsimp only at hcall
    split at hcall
    · cases hcall
    next hst =>
      rw [not_or, not_not] at hst
      obtain ⟨w, hw, hcall⟩ := bind_eq_ok_iff.1 hcall
      cases hcall
      have hexp := (h.exposure (by rw [hst.1]; rfl) hok).resolve_left
        fun ⟨_, _, ha⟩ ↦ by rw [hidle] at ha; cases ha
      exact ⟨_, rfl, (encodeWireFrame_ok hw).2, hexp, hst.1, h.acks hst.1 (fun _ ↦ hexp) rfl⟩

/-- The stream was exposed before it is acknowledged. -/
theorem exposed_of_acking (ha : p.active = some (epoch, pc)) (hack : isAcking p.active = true)
    (hok : p.endpoint.failed = false) : p.fields.status = .received ∧ p.exposed.isSome = true := by
  have hpc := h.active _ _ ha
  rw [ha] at hack
  cases pc with
  | sendingAck | shuttingDown =>
    refine ⟨hpc, (h.exposure (by rw [show _ = _ from hpc]; rfl) hok).resolve_left ?_⟩
    rintro ⟨_, _, ha'⟩
    rw [ha] at ha'
    cases ha'
  | _ => cases hack

/-- The write direction is shut down after the acknowledgement. -/
theorem shutdown (ha : p.active = some (epoch, .shuttingDown)) (endpoint : Endpoint)
    (hf : endpoint.failed = false → p.endpoint.failed = false) :
    ParentInv id sha256 { p with endpoint := endpoint,
                                 fields := { p.fields with status := .acknowledged }
                                 active := some (epoch, .returning .acknowledged) } got := by
  have hst : p.fields.status = .received := h.active _ _ ha
  have hreceived : p.fields.status.isReceived = true := by rw [hst]; rfl
  exact
    { receive := fun _ ↦ h.receive (by rw [hst]; decide)
      active := fun _ _ ha' ↦ by cases ha'; nofun
      final := fun _ ↦ h.final (by rw [hst]; rfl)
      pending := nofun
      received := fun _ ↦ h.received hreceived
      exposed := fun st he ↦ ⟨.inl rfl, (h.exposed st he).2⟩
      exposure := fun _ hok ↦ .inr (h.exposed_of_acking ha (by rw [ha]; rfl) (hf hok)).2 }

/-- A call that was aborted from outside raises instead of returning. -/
theorem leave_aborted (endpoint : Endpoint) (hf : endpoint.failed = true) :
    ParentInv id sha256 { p with endpoint := endpoint, active := none } got :=
  { h with
    active := nofun
    exposure := fun _ hok ↦ by rw [hf] at hok; cases hok }

/-- A call returns what it has. -/
theorem leave {result : ParentResult F} (ha : p.active = some (epoch, .returning result))
    (endpoint : Endpoint) (hf : endpoint.failed = false → p.endpoint.failed = false) :
    ParentInv id sha256 { p with endpoint := endpoint, active := none,
                                 exposed := result.stream?.or p.exposed } got :=
  { h.leave_aborted { endpoint with failed := true } rfl with
    exposed := fun st he ↦ by
      cases result with
      | stream =>
        cases he
        obtain ⟨hst, hrec⟩ := h.active _ _ ha
        have hreceived : p.fields.status.isReceived = true := by rw [hst]; rfl
        refine ⟨.inl hreceived, (h.final (by rw [hst]; rfl)).1, ?_⟩
        rw [h.received hreceived] at hrec
        exact (Option.some.inj hrec).symm
      | _ => exact h.exposed st he
    exposure := fun hst hok ↦ by
      rcases h.exposure hst (hf hok) with ⟨_, _, ha'⟩ | hexp
      · rw [ha] at ha'
        cases ha'
        exact .inr rfl
      · refine .inr ?_
        cases result with
        | stream => rfl
        | _ => exact hexp }

end

end ParentInv

end AgentGateway.EventChannel
