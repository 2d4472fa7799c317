import AgentGateway.EventChannel.Protocol

/-!
# What the child sends

The frames a child hands to `sendall` have a shape (`Shape`): frames that are neither an `END` nor a
terminal event, then perhaps a terminal event, and after it perhaps an `END`.  Their events are
numbered from zero.  Which of the three it is depends on the child's status and on where its
operation stands, and `ChildInv` says how; the code between two socket calls keeps it
(`ChildInv.call`, `ChildInv.sent`), and an exception keeps what does not depend on the status
(`ChildInv.raise`).

A frame is sent as an object and read back as an object, and the `kind` the reader sees is the one
that was sent (`kind_of_sent`).
-/

namespace AgentGateway.EventChannel

open Py List

variable {F : Type} [PyFloat F]

/-! ## The kind of a frame -/

/-- Where a frame came from. -/
def SentOk (id : ChannelId) : Sent F → Prop
  | .hello b => dumps (helloValue (F := F) id) = some b
  | .capture b => ∃ payload : Json F, payload.UniqueKeys ∧
      dumps (captureValue id payload) = some b
  | .event e => e.seq < maxEvents
  | .finish b => ∃ count digest, dumps (summaryValue (F := F) "END" id count digest) = some b

/-- The `kind` of a frame. -/
def Sent.kind : Sent F → String
  | .hello _ => "HELLO"
  | .capture _ => "PRIVATE_EXECUTABLE_CAPTURE"
  | .event _ => "EVENT"
  | .finish _ => "END"

/-- A decoded object has the `kind` it was encoded with. -/
theorem kind_of_decoded {kvs : List (Str × Json F)} {body : List UInt8} {kind : Str}
    (hd : dumps (.dict kvs) = some body) (hu : (Json.dict kvs).UniqueKeys)
    (hk : (Json.dict kvs).get? (.lit "kind") = some (.str kind)) {v : Json F}
    (hv : decodeCanonicalJsonObject body = .ok v) :
    v.get? (.lit "kind") = some (.str kind) := by
  obtain ⟨rfl, -⟩ := (decodeCanonicalJsonObject_dumps hd hu v).1 hv
  rw [Json.get?_sortKeys hu, hk]
  rfl

omit [PyFloat F] in
theorem uniqueKeys_helloValue (id : ChannelId) : (helloValue id : Json F).UniqueKeys := by
  refine Json.uniqueKeys_dict_iff.2 ⟨?_, by simp⟩
  simp only [map_cons, map_nil]
  decide

omit [PyFloat F] in
theorem uniqueKeys_captureValue (id : ChannelId) {payload : Json F} (hu : payload.UniqueKeys) :
    (captureValue id payload).UniqueKeys := by
  refine Json.uniqueKeys_dict_iff.2 ⟨?_, by simpa using hu⟩
  simp only [map_cons, map_nil]
  decide

omit [PyFloat F] in
theorem uniqueKeys_summaryValue (kind : String) (id : ChannelId) (count : Nat) (digest : Str) :
    (summaryValue kind id count digest : Json F).UniqueKeys := by
  refine Json.uniqueKeys_dict_iff.2 ⟨?_, by simp⟩
  simp only [map_cons, map_nil]
  decide

theorem kind_of_sent {id : ChannelId} {x : Sent F} (hx : SentOk id x) {v : Json F}
    (hv : decodeCanonicalJsonObject (x.body id) = .ok v) :
    v.get? (.lit "kind") = some (.str (.lit x.kind)) := by
  cases x with
  | hello => exact kind_of_decoded hx (uniqueKeys_helloValue id) rfl hv
  | capture =>
    obtain ⟨payload, hu, hd⟩ := hx
    exact kind_of_decoded hd (uniqueKeys_captureValue id hu) rfl hv
  | event e =>
    obtain ⟨rfl, -⟩ := (decodeCanonicalJsonObject_eventBody e.event.2 e.admitted id hx v).1 hv
    rfl
  | finish =>
    obtain ⟨count, digest, hd⟩ := hx
    exact kind_of_decoded hd (uniqueKeys_summaryValue "END" id count digest) rfl hv

/-- A frame that was encoded is within the cap, and is the encoding of its object. -/
theorem encodeWireFrame_ok {v : Json F} {w : WireFrame} (h : encodeWireFrame v = .ok w) :
    dumps v = some w.body ∧ w.body.length < 2 ^ 32 := by
  rw [encodeWireFrame] at h
  split at h
  · cases h
  · cases h
  next c hc =>
    obtain ⟨-, -, hd, -, -⟩ := canonicalJsonSnapshot_ok hc
    split at h
    · cases h
    next hlen =>
      cases h
      refine ⟨hd, ?_⟩
      have hmax : maxFrameBytes = 2097152 := by decide
      have hhead : frameHeaderSize = 4 := rfl
      dsimp only
      omega

theorem length_body_event {id : ChannelId} {e : SentEvent F} (he : e.seq < maxEvents) :
    (e.body id).length < 2 ^ 32 := by
  obtain ⟨-, hcap⟩ := encodeEventWireFrame_ok e.admitted id he
  have hmax : maxFrameBytes = 2097152 := by decide
  rw [length_frame] at hcap
  rw [SentEvent.body]
  omega

/-! ## What the child sends -/

/-- A frame that may be followed by another event: it is no `END` and no terminal event. -/
def Sent.Plain : Sent F → Prop
  | .event e => e.isTerminal = false
  | .finish _ => False
  | _ => True

/-- The child's frames end in a terminal event and an `END`. -/
def Finished (sent : List (Sent F)) : Prop :=
  ∃ init e b, sent = init ++ [.event e, .finish b] ∧ (∀ x ∈ init, x.Plain) ∧ e.isTerminal = true

/-- What the child has sent at any time: plain frames, then perhaps a terminal event, and after it
perhaps an `END`. -/
def Shape (sent : List (Sent F)) : Prop :=
  (∀ x ∈ sent, x.Plain) ∨
  (∃ init e, sent = init ++ [.event e] ∧ (∀ x ∈ init, x.Plain) ∧ e.isTerminal = true) ∨
  Finished sent

/-- The events among the frames. -/
def eventsOf (sent : List (Sent F)) : List (SentEvent F) := sent.filterMap Sent.event?

theorem eventsOf_append (a b : List (Sent F)) :
    eventsOf (a ++ b) = eventsOf a ++ eventsOf b := filterMap_append

theorem eventsOf_concat_of_none {x : Sent F} (hx : x.event? = none) (sent : List (Sent F)) :
    eventsOf (sent ++ [x]) = eventsOf sent := by
  rw [eventsOf_append, show eventsOf [x] = [] by simp [eventsOf, hx], append_nil]

theorem not_plain_finish (b : List UInt8) : ¬ (Sent.finish b : Sent F).Plain := fun h ↦ h

/-- An `END` is the last frame. -/
theorem Shape.eq_of_finish {sent init rest : List (Sent F)} {b : List UInt8} (h : Shape sent)
    (hs : sent = init ++ .finish b :: rest) : rest = [] ∧ Finished sent := by
  have hmem : Sent.finish b ∈ sent := by simp [hs]
  rcases h with h | ⟨init', e, hs', hplain, -⟩ | hfin
  · exact absurd (h _ hmem) (not_plain_finish b)
  · rw [hs', mem_append, mem_singleton] at hmem
    rcases hmem with hmem | hmem
    · exact absurd (hplain _ hmem) (not_plain_finish b)
    · cases hmem
  · refine ⟨?_, hfin⟩
    obtain ⟨init', e, b', hs', hplain, -⟩ := hfin
    rcases eq_nil_or_concat rest with hnil | ⟨r, last, hrest⟩
    · exact hnil
    · -- without its last frame, what was sent has no `END` in it
      have hdrop : init ++ .finish b :: r = init' ++ [.event e] := by
        have h1 : sent.dropLast = init ++ .finish b :: r := by
          rw [hs, hrest, concat_eq_append, ← cons_append, ← append_assoc,
            dropLast_concat]
        have h2 : sent.dropLast = init' ++ [.event e] := by
          rw [hs', show [Sent.event e, .finish b'] = [.event e] ++ [.finish b'] from rfl,
            ← append_assoc, dropLast_concat]
        rw [← h1, h2]
      have hmem' : Sent.finish b ∈ init' ++ [.event e] := by simp [← hdrop]
      rw [mem_append, mem_singleton] at hmem'
      rcases hmem' with hmem' | hmem'
      · exact absurd (hplain _ hmem') (not_plain_finish b)
      · cases hmem'

/-- The operation is `complete`, past its first step. -/
def inComplete : Option (Nat × ChildPc F) → Bool
  | some (_, .sending (.terminal _)) => true
  | some (_, .sending .finish) => true
  | some (_, .shuttingDown) => true
  | some (_, .readingAck) => true
  | some (_, .readingTrailing _) => true
  | some (_, .returning (some _)) => true
  | _ => false

/-- An event is being sent that is not counted yet. -/
def pendingEvents : Option (Nat × ChildPc F) → Nat
  | some (_, .sending (.event _)) => 1
  | some (_, .sending (.finding _ _)) => 1
  | some (_, .sending (.terminal _)) => 1
  | _ => 0

/-- The operation is in a `sendall`. -/
def isSending : Option (Nat × ChildPc F) → Bool
  | some (_, .sending _) => true
  | _ => false

/-- What is true of a child at any time, given what its `sendall` still holds. -/
structure ChildInv (id : ChannelId) (c : Child F) (unsent : List UInt8) : Prop where
  sentOk : ∀ x ∈ c.sent, SentOk id x
  shape : Shape c.sent
  seqs : (eventsOf c.sent).map SentEvent.seq = List.range (eventsOf c.sent).length
  busy : c.active.isSome = true → c.fields.status ≠ .failed
  unsent_nil : c.fields.status ≠ .failed → isSending c.active = false → unsent = []
  count : c.fields.status ≠ .failed → c.fields.nextSeq = c.fields.eventCount ∧
    c.fields.eventCount + pendingEvents c.active = (eventsOf c.sent).length
  plain : c.active.isSome = true ∨ c.fields.status = .new ∨ c.fields.status = .started →
    inComplete c.active = false → ∀ x ∈ c.sent, x.Plain
  terminal : ∀ epoch e, c.active = some (epoch, .sending (.terminal e)) →
    ∃ init, c.sent = init ++ [.event e] ∧ (∀ x ∈ init, x.Plain) ∧ e.isTerminal = true

theorem prepareEvent_ok {id : ChannelId} {c : ChildFields} {event : Event F} {t : Bool}
    {e : SentEvent F} (h : prepareEvent id c event t = .ok e) :
    e.seq = c.nextSeq ∧ e.isTerminal = t ∧ c.eventCount < maxEvents := by
  rw [prepareEvent] at h
  split at h
  · cases h
  next snapshot hs =>
    dsimp only at h
    split at h
    · split at h <;> cases h
    next ht =>
      split at h
      · cases h
      next hcount =>
        obtain ⟨w, -, h⟩ := bind_eq_ok_iff.1 h
        split at h
        · cases h
        · cases h
          exact ⟨rfl, (not_not.1 ht).symm, by omega⟩

/-- What a call hands to `sendall`, and what it does next. -/
theorem childCall_ok {id : ChannelId} {c : ChildFields} {call : ChildCall F} {x : Sent F}
    {next : ChildNext F} (h : childCall id c call = .ok (x, next)) :
    (c.status = .new ∨ c.status = .started) ∧
    ((next = .hello ∧ ∃ b, x = .hello b ∧ SentOk id x ∧ b.length < 2 ^ 32) ∨
     (next = .capture ∧ ∃ b, x = .capture b ∧ SentOk id x ∧ b.length < 2 ^ 32) ∨
     (∃ e, x = .event e ∧ e.seq = c.nextSeq ∧ c.eventCount < maxEvents ∧
       ((e.isTerminal = false ∧ (next = .event e ∨ ∃ err, next = .finding e err)) ∨
        (e.isTerminal = true ∧ next = .terminal e)))) := by
  cases call with
  | start =>
    rw [childCall] at h
    split at h
    · cases h
    next hst =>
      obtain ⟨w, hw, h⟩ := bind_eq_ok_iff.1 h
      cases h
      obtain ⟨hd, hlen⟩ := encodeWireFrame_ok hw
      exact ⟨Or.inl (not_not.1 hst), Or.inl ⟨rfl, w.body, rfl, hd, hlen⟩⟩
  | sendEvent =>
    rw [childCall] at h
    split at h
    · cases h
    next hst =>
      obtain ⟨e, he, h⟩ := bind_eq_ok_iff.1 h
      cases h
      obtain ⟨hseq, hterm, hcount⟩ := prepareEvent_ok he
      exact ⟨Or.inr (not_not.1 hst),
        Or.inr (Or.inr ⟨e, rfl, hseq, hcount, Or.inl ⟨hterm, Or.inl rfl⟩⟩)⟩
  | sendPrivateExecutableCapture payload =>
    rw [childCall] at h
    split at h
    · cases h
    next hst =>
      refine ⟨Or.inr (not_not.1 hst), ?_⟩
      split at h
      · split at h
        next finding _ =>
          split at h
          · cases h
          next e he =>
            cases h
            obtain ⟨hseq, hterm, hcount⟩ := prepareEvent_ok he
            exact Or.inr (Or.inr ⟨e, rfl, hseq, hcount, Or.inl ⟨hterm, Or.inr ⟨_, rfl⟩⟩⟩)
        · cases h
        next w hw =>
          cases h
          obtain ⟨hd, hlen⟩ := encodeWireFrame_ok hw
          exact Or.inr (Or.inl ⟨rfl, w.body, rfl, ⟨payload.1, payload.2, hd⟩, hlen⟩)
      · cases h
  | complete =>
    rw [childCall] at h
    split at h
    · cases h
    next hst =>
      obtain ⟨e, he, h⟩ := bind_eq_ok_iff.1 h
      cases h
      obtain ⟨hseq, hterm, hcount⟩ := prepareEvent_ok he
      exact ⟨Or.inr (not_not.1 hst),
        Or.inr (Or.inr ⟨e, rfl, hseq, hcount, Or.inr ⟨hterm, rfl⟩⟩)⟩

namespace ChildInv

variable {id : ChannelId} {c : Child F} {unsent : List UInt8}

section

variable (h : ChildInv id c unsent)

include h

/-- The flags of the endpoint, and what `complete` returned, do not enter. -/
theorem congr_endpoint (endpoint : Endpoint) (ack : Option Acknowledgement) :
    ChildInv id { c with endpoint := endpoint, acknowledgement := ack } unsent :=
  ⟨h.sentOk, h.shape, h.seqs, h.busy, h.unsent_nil, h.count, h.plain, h.terminal⟩

/-- After an exception only what was sent is left to say. -/
theorem raise (endpoint : Endpoint) :
    ChildInv id { c with endpoint := endpoint, fields := { c.fields with status := .failed }
                         active := none } unsent where
  sentOk := h.sentOk
  shape := h.shape
  seqs := h.seqs
  busy hb := by cases hb
  unsent_nil hst := absurd rfl hst
  count hst := absurd rfl hst
  plain hst := by rcases hst with hst | hst | hst <;> cases hst
  terminal _ _ ha := by cases ha

/-- The end of a call. -/
theorem leave {epoch : Nat} {result : Option Acknowledgement}
    (ha : c.active = some (epoch, .returning result))
    (hres : result.isSome = true → c.fields.status = .completed) (endpoint : Endpoint)
    (ack : Option Acknowledgement) :
    ChildInv id { c with endpoint := endpoint, active := none, acknowledgement := ack }
      unsent where
  sentOk := h.sentOk
  shape := h.shape
  seqs := h.seqs
  busy hb := by cases hb
  unsent_nil hst _ := h.unsent_nil hst (by rw [ha]; rfl)
  count hst := by
    have := h.count hst
    rw [ha] at this
    exact this
  plain hst _ := by
    cases result with
    | none => exact h.plain (Or.inl (by rw [ha]; rfl)) (by rw [ha]; rfl)
    | some =>
      have := hres rfl
      dsimp only at hst
      rw [this] at hst
      rcases hst with hst | hst | hst <;> cases hst
  terminal _ _ ha' := by cases ha'

/-- The child hands one more frame to `sendall`. -/
theorem sends {x : Sent F} {fields : ChildFields} {next : ChildNext F} {epoch : Nat}
    (hx : SentOk id x) (hshape : Shape (c.sent ++ [x]))
    (hseq : ∀ e, x.event? = some e → e.seq = (eventsOf c.sent).length)
    (hlive : fields.status ≠ .failed) (hnext : fields.nextSeq = fields.eventCount)
    (hcount : fields.eventCount + pendingEvents (some (epoch, ChildPc.sending next)) =
      (eventsOf (c.sent ++ [x])).length)
    (hplain : inComplete (some (epoch, ChildPc.sending next)) = false →
      ∀ y ∈ c.sent ++ [x], y.Plain)
    (hterm : ∀ e, next = .terminal e →
      ∃ init, c.sent ++ [x] = init ++ [.event e] ∧ (∀ y ∈ init, y.Plain) ∧ e.isTerminal = true) :
    ChildInv id { c with fields := fields, active := some (epoch, .sending next)
                         sent := c.sent ++ [x] } (frame (x.body id)) where
  sentOk := forall_mem_append.2 ⟨h.sentOk, forall_mem_singleton.2 hx⟩
  shape := hshape
  seqs := by
    cases hev : x.event? with
    | none =>
      rw [eventsOf_concat_of_none hev]
      exact h.seqs
    | some e =>
      rw [eventsOf_append, show eventsOf [x] = [e] by simp [eventsOf, hev], map_append, h.seqs,
        length_append, length_singleton, range_succ, map_singleton, hseq e hev]
  busy _ := hlive
  unsent_nil _ hs := by cases hs
  count _ := ⟨hnext, hcount⟩
  plain _ := hplain
  terminal _ e ha := by
    cases ha
    exact hterm e rfl

/-- A call that starts sends one more frame. -/
theorem call (hidle : c.active = none) {call : ChildCall F} {x : Sent F} {next : ChildNext F}
    (hcall : childCall id c.fields call = .ok (x, next)) (epoch : Nat) :
    ChildInv id { c with active := some (epoch, .sending next), sent := c.sent ++ [x] }
      (frame (x.body id)) ∧
    unsent = [] ∧ (x.body id).length < 2 ^ 32 ∧ ∀ y ∈ c.sent, y.Plain := by
  obtain ⟨hstatus, hcases⟩ := childCall_ok hcall
  have hlive : c.fields.status ≠ .failed := by
    rcases hstatus with hst | hst <;> rw [hst] <;> decide
  have hplain : ∀ y ∈ c.sent, y.Plain := h.plain (Or.inr hstatus) (by rw [hidle]; rfl)
  have hnil : unsent = [] := h.unsent_nil hlive (by rw [hidle]; rfl)
  obtain ⟨hseqeq, hcount⟩ := h.count hlive
  rw [hidle] at hcount
  have hall (hx : x.Plain) : ∀ y ∈ c.sent ++ [x], y.Plain :=
    forall_mem_append.2 ⟨hplain, forall_mem_singleton.2 hx⟩
  -- a frame that is no event leaves the count as it is
  have hsame (hev : x.event? = none) :
      c.fields.eventCount + 0 = (eventsOf (c.sent ++ [x])).length := by
    rw [eventsOf_concat_of_none hev]
    exact hcount
  rcases hcases with ⟨rfl, b, rfl, hx, hlen⟩ | ⟨rfl, b, rfl, hx, hlen⟩ |
    ⟨e, rfl, hseq, hmax, hnext⟩
  · exact ⟨h.sends hx (.inl (hall trivial)) nofun hlive hseqeq (hsame rfl) (fun _ ↦ hall trivial)
      nofun, hnil, hlen, hplain⟩
  · exact ⟨h.sends hx (.inl (hall trivial)) nofun hlive hseqeq (hsame rfl) (fun _ ↦ hall trivial)
      nofun, hnil, hlen, hplain⟩
  · have hx : SentOk id (.event e) := by
      change e.seq < maxEvents
      omega
    have hseq' : ∀ e', (Sent.event e).event? = some e' → e'.seq = (eventsOf c.sent).length := by
      rintro _ ⟨⟩
      exact (hseq.trans hseqeq).trans hcount
    have hmore : c.fields.eventCount + 1 = (eventsOf (c.sent ++ [.event e])).length := by
      rw [eventsOf_append, length_append]
      exact congrArg (· + 1) hcount
    refine ⟨?_, hnil, length_body_event hx, hplain⟩
    rcases hnext with ⟨hterm, rfl | ⟨err, rfl⟩⟩ | ⟨hterm, rfl⟩
    · exact h.sends hx (.inl (hall hterm)) hseq' hlive hseqeq hmore (fun _ ↦ hall hterm) nofun
    · exact h.sends hx (.inl (hall hterm)) hseq' hlive hseqeq hmore (fun _ ↦ hall hterm) nofun
    · refine h.sends hx (.inr (.inl ⟨_, e, rfl, hplain, hterm⟩)) hseq' hlive hseqeq hmore nofun ?_
      rintro _ ⟨⟩
      exact ⟨_, rfl, hplain, hterm⟩

/-- The child's operation goes on without a frame. -/
theorem goto (hout : unsent = []) (fields : ChildFields) (pc : ChildPc F) (epoch : Nat)
    (hlive : fields.status ≠ .failed)
    (hcount : fields.nextSeq = fields.eventCount ∧ fields.eventCount = (eventsOf c.sent).length)
    (hsend : ∀ next, pc ≠ .sending next)
    (hplain : inComplete (some (epoch, pc)) = false → ∀ x ∈ c.sent, x.Plain) :
    ChildInv id { c with fields := fields, active := some (epoch, pc) } unsent where
  sentOk := h.sentOk
  shape := h.shape
  seqs := h.seqs
  busy _ := hlive
  unsent_nil _ _ := hout
  count _ := by
    refine ⟨hcount.1, ?_⟩
    cases pc with
    | sending next => exact absurd rfl (hsend next)
    | _ => exact hcount.2
  plain _ := hplain
  terminal _ e ha := by
    cases ha
    exact absurd rfl (hsend _)

/-- The child goes on after a `sendall`. -/
theorem sent {sha256 : List UInt8 → Hex64} {epoch : Nat} {next : ChildNext F}
    (ha : c.active = some (epoch, .sending next)) (hout : unsent = []) {fields : ChildFields}
    {move : ChildMove F} (hsent : childSent id sha256 c.fields next = .ok (fields, move)) :
    (∃ pc, move = .goto pc ∧
      ChildInv id { c with fields := fields, active := some (epoch, pc) } unsent) ∨
    (∃ x next', move = .send x next' ∧ (x.body id).length < 2 ^ 32 ∧
      (∀ b, .finish b ∉ c.sent) ∧
      ChildInv id { c with fields := fields, active := some (epoch, .sending next')
                           sent := c.sent ++ [x] } (frame (x.body id))) := by
  have hlive : c.fields.status ≠ .failed := h.busy (by rw [ha]; rfl)
  obtain ⟨hseq, hcount⟩ := h.count hlive
  rw [ha] at hcount
  have hplain : inComplete (some (epoch, ChildPc.sending next)) = false → ∀ x ∈ c.sent, x.Plain :=
    fun hin ↦ h.plain (Or.inl (by rw [ha]; rfl)) (by rw [ha]; exact hin)
  cases next with
  | hello =>
    cases hsent
    exact Or.inl ⟨_, rfl, h.goto hout _ _ epoch nofun ⟨hseq, hcount⟩
      nofun fun _ ↦ hplain rfl⟩
  | event =>
    cases hsent
    exact Or.inl ⟨_, rfl, h.goto hout _ _ epoch hlive ⟨congrArg (· + 1) hseq, hcount⟩
      nofun fun _ ↦ hplain rfl⟩
  | capture =>
    cases hsent
    exact Or.inl ⟨_, rfl, h.goto hout _ _ epoch hlive ⟨hseq, hcount⟩ nofun
      fun _ ↦ hplain rfl⟩
  | finding => cases hsent
  | terminal e =>
    obtain ⟨w, hw, hsent⟩ := bind_eq_ok_iff.1 hsent
    cases hsent
    obtain ⟨hd, hlen⟩ := encodeWireFrame_ok hw
    obtain ⟨init, hinit, hpl, hterm⟩ := h.terminal epoch e ha
    refine Or.inr ⟨_, _, rfl, hlen, fun b hb ↦ ?_, h.sends ⟨_, _, hd⟩ (Or.inr (Or.inr
      ⟨init, e, w.body, by rw [hinit, append_assoc]; rfl, hpl, hterm⟩)) nofun hlive
      (congrArg (· + 1) hseq) ?_ nofun nofun⟩
    · rw [hinit, mem_append, mem_singleton] at hb
      rcases hb with hb | hb
      · exact absurd (hpl _ hb) (not_plain_finish b)
      · cases hb
    · rw [eventsOf_concat_of_none rfl]
      exact hcount
  | finish =>
    cases hsent
    exact Or.inl ⟨_, rfl, h.goto hout _ _ epoch hlive ⟨hseq, hcount⟩ nofun
      nofun⟩

end

end ChildInv

end AgentGateway.EventChannel
