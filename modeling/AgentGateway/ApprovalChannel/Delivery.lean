import AgentGateway.ApprovalChannel.Codec
import AgentGateway.Py.Pipe
import AgentGateway.Py.Dict
import AgentGateway.Py.Resends

/-!
# Delivery of approval decisions

The parent sends decisions and may send one again; the child reports what it receives, and whether
it had it before.  Both keep tables of what went through: the bodies (and on the child's side the
decisions) by sequence, the sequences by delivery id, and the last sequence.  The parent looks into
its tables before it sends and writes them when `_send_all` has returned; the child looks into its
own when a frame is complete and writes them at once.  A frame goes out in chunks of any size and
comes in in chunks of any size, and any exception aborts the endpoint for good.

What the parent hands to `_send_all` is `Admissible`: every decision is an exact repetition, or has
a greater sequence than any before and a new delivery id (`admissible_of_checkSend`).  The child's
tables are those of the decisions it has read, without the repetitions (`ChildTables.Of`), so they
admit whatever comes next (`accept_of_admissible`).
-/

namespace AgentGateway.ApprovalChannel

open Py List

/-! ## The tables -/

/-- The tables of `AutonomousApprovalChannelParent`. -/
structure ParentTables where
  sentBySequence : Dict Nat (List UInt8)
  sequenceByDelivery : Dict (Str × Str × Str) Nat
  lastSequence : Nat

def ParentTables.empty : ParentTables := ⟨[], [], 0⟩

/-- The look of `send` into the tables; `true` if the decision is new. -/
def ParentTables.checkSend (t : ParentTables) (d : Decision) (body : List UInt8) :
    Except ChannelError Bool :=
  match t.sentBySequence.lookup d.deliverySequence with
  | some priorBody =>
    if priorBody ≠ body ∨
        t.sequenceByDelivery.lookup d.deliveryId ≠ some d.deliverySequence then
      .error (.protocol "autonomous approval sequence was reused with different content")
    else .ok false
  | none =>
    if (t.sequenceByDelivery.lookup d.deliveryId).isSome ∨
        d.deliverySequence ≤ t.lastSequence then
      .error (.protocol "autonomous approval delivery is stale or conflicting")
    else .ok true

/-- `send` writes a new decision down. -/
def ParentTables.record (t : ParentTables) (d : Decision) (body : List UInt8) : ParentTables where
  sentBySequence := t.sentBySequence.set d.deliverySequence body
  sequenceByDelivery := t.sequenceByDelivery.set d.deliveryId d.deliverySequence
  lastSequence := d.deliverySequence

/-- The tables of `AutonomousApprovalChannelChild`. -/
structure ChildTables where
  receivedBySequence : Dict Nat (List UInt8 × Decision)
  sequenceByDelivery : Dict (Str × Str × Str) Nat
  lastSequence : Nat

def ChildTables.empty : ChildTables := ⟨[], [], 0⟩

/-- `receive` writes a new decision down. -/
def ChildTables.record (t : ChildTables) (d : Decision) (body : List UInt8) : ChildTables where
  receivedBySequence := t.receivedBySequence.set d.deliverySequence (body, d)
  sequenceByDelivery := t.sequenceByDelivery.set d.deliveryId d.deliverySequence
  lastSequence := d.deliverySequence

/-- The look of `receive` into the tables, and what it writes: the decision it returns, and whether
it is a duplicate (`ReceivedAutonomousApprovalDecision`). -/
def ChildTables.accept (t : ChildTables) (d : Decision) (body : List UInt8) :
    Except ChannelError ((Decision × Bool) × ChildTables) :=
  match t.receivedBySequence.lookup d.deliverySequence with
  | some (priorBody, priorDecision) =>
    if priorBody ≠ body ∨
        t.sequenceByDelivery.lookup d.deliveryId ≠ some d.deliverySequence then
      .error (.protocol "autonomous approval sequence was reused with different content")
    else .ok ((priorDecision, true), t)
  | none =>
    if (t.sequenceByDelivery.lookup d.deliveryId).isSome ∨
        d.deliverySequence ≤ t.lastSequence then
      .error (.protocol "autonomous approval delivery is stale or conflicting")
    else .ok ((d, false), t.record d body)

/-- A decision on its way, with its body, and whether it is new. -/
structure Sending where
  decision : Decision
  body : List UInt8
  fresh : Bool

section Code

variable (F : Type) [PyFloat F] (authority : Authority)

/-- `send`, up to `_send_all` -/
def prepareSend (t : ParentTables) (d : Decision) : Except ChannelError Sending :=
  if d.authority ≠ authority then
    .error (.protocol "autonomous approval send changed admitted authority")
  else do
    let body ← encodeDecision F d
    let fresh ← t.checkSend d body
    .ok ⟨d, body, fresh⟩

/-- `receive`, from the complete body on. -/
def receiveBody (t : ChildTables) (body : List UInt8) :
    Except ChannelError ((Decision × Bool) × ChildTables) := do
  let d ← decodeDecision F authority body
  t.accept d body

end Code

/-! ## The system -/

/-- The parent, with the decision it is sending.  The decisions it has recorded are kept by the
program only as their bodies. -/
structure Parent where
  closed : Bool
  failed : Bool
  tables : ParentTables
  active : Option Sending
  recorded : List Decision

/-- The child, with whether a `receive` is under way.  What its calls returned and raised is not
kept by the program. -/
structure Child where
  closed : Bool
  failed : Bool
  tables : ChildTables
  active : Bool
  reports : List (Decision × Bool)
  raised : List ChannelError

/-- The two endpoints, the stream, and the decisions that were handed to `_send_all`. -/
structure Sys where
  parent : Parent
  child : Child
  pipe : Pipe
  sent : List Decision

namespace Sys

def initial : Sys where
  parent := ⟨false, false, .empty, none, []⟩
  child := ⟨false, false, .empty, false, [], []⟩
  pipe := .empty
  sent := []

/-- `_abort` at the parent, out of an operation -/
def parentAbort (s : Sys) (active : Option Sending) : Sys :=
  { s with
    parent := { s.parent with closed := true, failed := true, active := active }
    pipe := s.pipe.close }

/-- `_abort` at the child, with the exception that leaves the call -/
def childRaise (s : Sys) (active : Bool) (e : ChannelError) : Sys :=
  { s with child := { s.child with
      closed := true, failed := true, active := active, raised := s.child.raised ++ [e] } }

variable (F : Type) [PyFloat F] (authority : Authority)

/-- `send` is called. -/
def parentSend (s : Sys) (d : Decision) : Sys :=
  match prepareSend F authority s.parent.tables d with
  | .error _ => s.parentAbort none
  | .ok sending =>
    { s with
      parent := { s.parent with active := some sending }
      pipe := s.pipe.begin sending.body
      sent := s.sent ++ [d] }

/-- `_send_all` has returned. -/
def parentSent (s : Sys) (sending : Sending) : Sys :=
  { s with parent :=
      if sending.fresh then
        { s.parent with active := none
                        tables := s.parent.tables.record sending.decision sending.body
                        recorded := s.parent.recorded ++ [sending.decision] }
      else { s.parent with active := none } }

/-- The child has the next `k` bytes. -/
def childPull (s : Sys) (k : Nat) : Sys :=
  let s := { s with pipe := s.pipe.pull k }
  match header? s.pipe.held with
  | none => s
  | some n =>
    if n < 1 then
      s.childRaise false (.protocol "autonomous approval frame length is invalid")
    else
      match body? s.pipe.held with
      | none => s
      | some body =>
        let s := { s with pipe := s.pipe.finish body }
        match receiveBody F authority s.child.tables body with
        | .error e => s.childRaise false e
        | .ok (report, tables) =>
          { s with child := { s.child with
              tables := tables, active := false, reports := s.child.reports ++ [report] } }

end Sys

/-- One move of one of the endpoints.  A call may raise for reasons outside the tables (the endpoint
is gone, the timeout is none, the transport fails): at the parent before or while the frame is
sent, at the child at any time. -/
inductive Step (F : Type) [PyFloat F] (authority : Authority) : Sys → Sys → Prop
  | parentSend (s : Sys) (d : Decision) (hidle : s.parent.active = none)
      (hopen : s.parent.closed = false) (hok : s.parent.failed = false) :
      Step F authority s (s.parentSend F authority d)
  | parentRefused (s : Sys) (hidle : s.parent.active = none) :
      Step F authority s (s.parentAbort none)
  | parentConcurrent (s : Sys) (hbusy : s.parent.active.isSome = true) :
      Step F authority s (s.parentAbort s.parent.active)
  | parentPush (s : Sys) (k : Nat) (hbusy : s.parent.active.isSome = true) (hk : 0 < k)
      (hle : k ≤ s.pipe.unsent.length) (hopen : s.pipe.ended = false) :
      Step F authority s { s with pipe := s.pipe.push k }
  | parentSent (s : Sys) (sending : Sending) (hact : s.parent.active = some sending)
      (hout : s.pipe.unsent = []) : Step F authority s (s.parentSent sending)
  | parentError (s : Sys) (hbusy : s.parent.active.isSome = true) (hleft : s.pipe.unsent ≠ []) :
      Step F authority s (s.parentAbort none)
  | parentClose (s : Sys) : Step F authority s
      { s with parent := { s.parent with closed := true }, pipe := s.pipe.close }
  | childReceive (s : Sys) (hidle : s.child.active = false) (hopen : s.child.closed = false)
      (hok : s.child.failed = false) :
      Step F authority s { s with child := { s.child with active := true } }
  | childRefused (s : Sys) (hidle : s.child.active = false)
      (hgone : s.child.closed = true ∨ s.child.failed = true) :
      Step F authority s (s.childRaise false
        (.state "autonomous approval channel endpoint is unavailable"))
  | childConcurrent (s : Sys) (hbusy : s.child.active = true) :
      Step F authority s (s.childRaise true
        (.state "autonomous approval channel endpoint has concurrent owners"))
  | childPull (s : Sys) (k : Nat) (hact : s.child.active = true) (hk : 0 < k)
      (hroom : k ≤ room s.pipe.held) (hle : k ≤ s.pipe.inFlight.length) :
      Step F authority s (s.childPull F authority k)
  | childError (s : Sys) (e : ChannelError) (hact : s.child.active = true)
      (he : e.isProtocol = false) : Step F authority s (s.childRaise false e)
  | childClose (s : Sys) :
      Step F authority s { s with child := { s.child with closed := true } }

/-- The states the two endpoints can get into. -/
def Reachable (F : Type) [PyFloat F] (authority : Authority) (s : Sys) : Prop :=
  Relation.ReflTransGen (Step F authority) Sys.initial s

/-! ## The tables of a stream -/

variable {F : Type} [PyFloat F] {authority : Authority}

/-- The body of a decision that can be encoded. -/
def bodyOf (F : Type) [PyFloat F] (d : Decision) : List UInt8 := (dumps (d.frame : Json F)).getD []

variable {d : Decision}

theorem eq_bodyOf {body : List UInt8} (h : encodeDecision F d = .ok body) :
    body = bodyOf F d := by
  rw [bodyOf, (encodeDecision_ok h).1]
  rfl

/-- A decision of this authority that can be encoded. -/
def Sendable (F : Type) [PyFloat F] (authority : Authority) (d : Decision) : Prop :=
  d.authority = authority ∧ encodeDecision F d = .ok (bodyOf F d)

theorem Sendable.eq_of_body_eq {d' : Decision} (h : Sendable F authority d)
    (h' : Sendable F authority d') (hb : bodyOf F d = bodyOf F d') : d = d' := by
  refine eq_of_encode_eq h.2 ?_ (h.1.trans h'.1.symm)
  rw [hb]
  exact h'.2

/-- The greatest sequence of decisions that stand in the order of their sequences. -/
def lastOf (got : List Decision) : Nat := (got.getLast?.map Decision.deliverySequence).getD 0

/-- The parent's tables after it recorded these decisions. -/
structure ParentTables.Of (F : Type) [PyFloat F] (t : ParentTables) (got : List Decision) :
    Prop where
  sent : t.sentBySequence = got.map fun d ↦ (d.deliverySequence, bodyOf F d)
  delivery : t.sequenceByDelivery = got.map fun d ↦ (d.deliveryId, d.deliverySequence)
  last : t.lastSequence = lastOf got

/-- The child's tables after it received these decisions. -/
structure ChildTables.Of (F : Type) [PyFloat F] (t : ChildTables) (got : List Decision) :
    Prop where
  received : t.receivedBySequence = got.map fun d ↦ (d.deliverySequence, (bodyOf F d, d))
  delivery : t.sequenceByDelivery = got.map fun d ↦ (d.deliveryId, d.deliverySequence)
  last : t.lastSequence = lastOf got

/-- Streams in which every decision is a repetition or has a greater sequence than any before it and
a new delivery id. -/
abbrev Ordered (l : List Decision) : Prop :=
  Admissible Decision.deliverySequence Decision.deliveryId l

variable {l : List Decision}

theorem le_lastOf (h : Ordered l) (hd : d ∈ l) :
    d.deliverySequence ≤ lastOf (firsts l) := by
  have hsorted := h.sorted
  have hmem := mem_firsts.2 hd
  rcases eq_nil_or_concat (firsts l) with hnil | ⟨init, last, hcat⟩
  · rw [hnil] at hmem
    cases hmem
  · rw [concat_eq_append] at hcat
    rw [hcat] at hsorted hmem
    rw [hcat, lastOf, getLast?_concat]
    rcases mem_append.1 hmem with hmem | hmem
    · exact Nat.le_of_lt ((pairwise_append.1 hsorted).2.2 d hmem last (by simp))
    · rw [mem_singleton.1 hmem]
      exact le_rfl

theorem lastOf_lt (h : ∀ x ∈ l, x.deliverySequence < d.deliverySequence) :
    lastOf l < d.deliverySequence := by
  have hpos : 1 ≤ d.deliverySequence := by
    have hv := d.valid
    simp only [Bool.and_eq_true, decide_eq_true_eq] at hv
    exact hv.1.1.1.1
  rw [lastOf]
  cases hlast : l.getLast? with
  | none => exact hpos
  | some x => exact h x (mem_of_getLast? hlast)

/-- **What the parent's tables admit keeps the stream in order.** -/
theorem admissible_of_checkSend {t : ParentTables} (ht : t.Of F (firsts l)) (hl : Ordered l)
    (hsend : ∀ x ∈ l, Sendable F authority x) (hd : Sendable F authority d) {fresh : Bool}
    (h : t.checkSend d (bodyOf F d) = .ok fresh) :
    Ordered (l ++ [d]) ∧ (fresh = true ↔ d ∉ l) := by
  unfold ParentTables.checkSend at h
  rw [ht.sent, ht.delivery, ht.last] at h
  split at h
  next priorBody hprior =>
    split at h
    · cases h
    next hsame =>
      cases h
      rw [not_or, not_not, not_not] at hsame
      obtain ⟨x, hx, -, hbody⟩ := Dict.lookup_map_eq_some hprior
      have hmem := mem_firsts.1 hx
      obtain rfl := (hsend x hmem).eq_of_body_eq hd (hbody.trans hsame.1)
      exact ⟨hl.again hmem, by simp [hmem]⟩
  next hprior =>
    split at h
    · cases h
    next hnew =>
      cases h
      rw [not_or, Option.not_isSome_iff_eq_none, not_le] at hnew
      have hkeys := Dict.lookup_map_eq_none.1 hnew.1
      refine ⟨hl.fresh (fun x hx ↦ (le_lastOf hl hx).trans_lt hnew.2)
        fun x hx ↦ hkeys x (mem_firsts.2 hx), ?_⟩
      simpa using fun hmem ↦ hkeys d (mem_firsts.2 hmem) rfl

theorem lastOf_concat (got : List Decision) (d : Decision) :
    lastOf (got ++ [d]) = d.deliverySequence := by
  rw [lastOf, getLast?_concat]
  rfl

/-- The parent writes a new decision down. -/
theorem ParentTables.Of.record {t : ParentTables} {got : List Decision} (ht : t.Of F got)
    (hseq : ∀ x ∈ got, x.deliverySequence ≠ d.deliverySequence)
    (hkey : ∀ x ∈ got, x.deliveryId ≠ d.deliveryId) :
    (t.record d (bodyOf F d)).Of F (got ++ [d]) where
  sent := by
    rw [ParentTables.record, ht.sent, Dict.set_map_of_forall_ne hseq, map_append]
    rfl
  delivery := by
    rw [ParentTables.record, ht.delivery, Dict.set_map_of_forall_ne hkey, map_append]
    rfl
  last := (lastOf_concat got d).symm

/-- The child writes a new decision down. -/
theorem ChildTables.Of.record {t : ChildTables} {got : List Decision} (ht : t.Of F got)
    (hseq : ∀ x ∈ got, x.deliverySequence ≠ d.deliverySequence)
    (hkey : ∀ x ∈ got, x.deliveryId ≠ d.deliveryId) :
    (t.record d (bodyOf F d)).Of F (got ++ [d]) where
  received := by
    rw [ChildTables.record, ht.received, Dict.set_map_of_forall_ne hseq, map_append]
    rfl
  delivery := by
    rw [ChildTables.record, ht.delivery, Dict.set_map_of_forall_ne hkey, map_append]
    rfl
  last := (lastOf_concat got d).symm

/-- **The child's tables admit whatever keeps the stream in order**, and mark it as it should be. -/
theorem accept_of_admissible {t : ChildTables} (ht : t.Of F (firsts l)) (h : Ordered (l ++ [d])) :
    ∃ t' : ChildTables,
      t.accept d (bodyOf F d) = .ok ((d, decide (d ∈ l)), t') ∧ t'.Of F (firsts (l ++ [d])) := by
  obtain ⟨hl, hcases⟩ := h.of_concat
  rcases hcases with hmem | ⟨hn, hk⟩
  · have hfirst := mem_firsts.2 hmem
    have hprior : t.receivedBySequence.lookup d.deliverySequence = some (bodyOf F d, d) := by
      rw [ht.received]
      exact Dict.lookup_map_of_mem hl.nodup_numbers hfirst
    have hseq : t.sequenceByDelivery.lookup d.deliveryId = some d.deliverySequence := by
      rw [ht.delivery]
      exact Dict.lookup_map_of_mem hl.nodup_keys hfirst
    refine ⟨t, ?_, ?_⟩
    · rw [ChildTables.accept, hprior]
      dsimp only
      rw [if_neg (by rw [hseq]; simp), decide_eq_true hmem]
    · rwa [firsts_concat, if_pos hfirst]
  · have hnot : d ∉ l := fun hmem ↦ hk d hmem rfl
    have hseq : ∀ x ∈ firsts l, x.deliverySequence ≠ d.deliverySequence :=
      fun x hx ↦ (hn x (mem_firsts.1 hx)).ne
    have hkey : ∀ x ∈ firsts l, x.deliveryId ≠ d.deliveryId := fun x hx ↦ hk x (mem_firsts.1 hx)
    have hprior : t.receivedBySequence.lookup d.deliverySequence = none := by
      rw [ht.received]
      exact Dict.lookup_map_eq_none.2 hseq
    have hdelivery : t.sequenceByDelivery.lookup d.deliveryId = none := by
      rw [ht.delivery]
      exact Dict.lookup_map_eq_none.2 hkey
    have hlast : ¬ d.deliverySequence ≤ t.lastSequence := by
      rw [ht.last]
      exact not_le.2 (lastOf_lt fun x hx ↦ hn x (mem_firsts.1 hx))
    refine ⟨t.record d (bodyOf F d), ?_, ?_⟩
    · rw [ChildTables.accept, hprior]
      rw [if_neg (by rw [hdelivery]; simpa using hlast), decide_eq_false hnot]
    · rw [firsts_concat, if_neg fun hmem ↦ hnot (mem_firsts.1 hmem)]
      exact ht.record hseq hkey

/-! ## What is true of the endpoints -/

/-- The parent, after it handed these decisions to `_send_all`, which still holds `unsent`. -/
structure ParentInv (F : Type) [PyFloat F] (p : Parent) (sent : List Decision)
    (unsent : List UInt8) : Prop where
  tables : p.tables.Of F p.recorded
  idle : p.active = none → p.failed = false → unsent = []
  body : ∀ sending, p.active = some sending → sending.body = bodyOf F sending.decision
  -- a new decision that is not recorded is the last one, and its `send` is under way or was cut off
  state : (firsts sent = p.recorded ∧
      (∀ sending, p.active = some sending → sending.fresh = false)) ∨
    ∃ init d, sent = init ++ [d] ∧ firsts init = p.recorded ∧ d ∉ init ∧
      ((∃ sending, p.active = some sending ∧ sending.fresh = true ∧ sending.decision = d) ∨
        p.active = none ∧ p.failed = true ∧ unsent ≠ [])

/-- The child, after it read these decisions. -/
structure ChildInv (F : Type) [PyFloat F] (c : Child) (got : List Decision) : Prop where
  tables : c.tables.Of F (firsts got)
  reports : c.reports = marked got
  raised : ∀ e ∈ c.raised, e.isProtocol = false

structure Inv (F : Type) [PyFloat F] (authority : Authority) (s : Sys) : Prop where
  pipe : s.pipe.Ok
  written : s.pipe.written = s.sent.map (bodyOf F)
  ordered : Ordered s.sent
  sendable : ∀ d ∈ s.sent, Sendable F authority d
  parent : ParentInv F s.parent s.sent s.pipe.unsent
  child : ∃ got rest, s.sent = got ++ rest ∧ s.pipe.read = got.map (bodyOf F) ∧
    ChildInv F s.child got

theorem inv_initial : Inv F authority Sys.initial where
  pipe := Pipe.ok_empty
  written := rfl
  ordered := .nil
  sendable d hd := by cases hd
  parent := ⟨⟨rfl, rfl, rfl⟩, fun _ _ ↦ rfl, nofun,
    Or.inl ⟨rfl, nofun⟩⟩
  child := ⟨[], [], rfl, rfl, ⟨rfl, rfl, rfl⟩, rfl, nofun⟩

/-- What `send` has checked when it starts to send. -/
theorem prepareSend_ok {t : ParentTables} {sending : Sending}
    (h : prepareSend F authority t d = .ok sending) :
    Sendable F authority d ∧ sending.decision = d ∧ sending.body = bodyOf F d ∧
      t.checkSend d (bodyOf F d) = .ok sending.fresh := by
  unfold prepareSend at h
  split at h
  · cases h
  next hauth =>
    obtain ⟨body, hbody, h⟩ := bind_eq_ok_iff.1 h
    obtain ⟨fresh, hfresh, h⟩ := bind_eq_ok_iff.1 h
    cases h
    have heq := eq_bodyOf hbody
    rw [heq] at hbody hfresh
    exact ⟨⟨not_not.1 hauth, hbody⟩, rfl, heq, hfresh⟩

namespace Inv

variable {s : Sys}

section

variable (h : Inv F authority s)

include h

/-- The parent is aborted, in the middle of a frame or at the end of one. -/
theorem abort {active : Option Sending} (hact : active = s.parent.active ∨
      active = none ∧ (s.parent.active = none ∨ s.pipe.unsent ≠ [])) :
    Inv F authority (s.parentAbort active) := by
  refine ⟨h.pipe.close, h.written, h.ordered, h.sendable,
    ⟨h.parent.tables, nofun, ?_, ?_⟩, h.child⟩
  · rintro sending hs
    rcases hact with rfl | ⟨rfl, -⟩
    · exact h.parent.body sending hs
    · cases hs
  · rcases h.parent.state with ⟨hrec, hfresh⟩ | ⟨init, d, hs, hrec, hnot, hstate⟩
    · refine Or.inl ⟨hrec, fun sending ha ↦ ?_⟩
      rcases hact with rfl | ⟨rfl, -⟩
      · exact hfresh sending ha
      · cases ha
    · refine Or.inr ⟨init, d, hs, hrec, hnot, ?_⟩
      rcases hstate with ⟨sending, ha, hf, hd⟩ | ⟨ha, -, hu⟩
      · rcases hact with rfl | ⟨rfl, hnone | hu⟩
        · exact Or.inl ⟨sending, ha, hf, hd⟩
        · rw [hnone] at ha
          cases ha
        · exact Or.inr ⟨rfl, rfl, hu⟩
      · rcases hact with rfl | ⟨rfl, -⟩
        · exact Or.inr ⟨ha, rfl, hu⟩
        · exact Or.inr ⟨rfl, rfl, hu⟩

theorem parentSend (d : Decision) (hidle : s.parent.active = none)
    (hok : s.parent.failed = false) : Inv F authority (s.parentSend F authority d) := by
  have hnil := h.parent.idle hidle hok
  have hrec : firsts s.sent = s.parent.recorded := by
    rcases h.parent.state with ⟨hrec, -⟩ | ⟨_, _, -, -, -, ⟨_, ha, -⟩ | ⟨-, hf, -⟩⟩
    · exact hrec
    · rw [hidle] at ha
      cases ha
    · rw [hok] at hf
      cases hf
  rw [Sys.parentSend]
  split
  · exact h.abort (Or.inl hidle.symm)
  next sending hprep =>
    obtain ⟨hsend, hdec, hbody, hadmit⟩ := prepareSend_ok hprep
    have htables := h.parent.tables
    rw [← hrec] at htables
    obtain ⟨hord, hfresh⟩ := admissible_of_checkSend htables h.ordered h.sendable hsend hadmit
    obtain ⟨got, rest, hs, hr, hc⟩ := h.child
    refine ⟨?_, ?_, hord, ?_, ⟨h.parent.tables, nofun, ?_, ?_⟩,
      got, rest ++ [d], ?_, hr, hc⟩
    · rw [hbody]
      exact h.pipe.begin hnil (encodeDecision_ok hsend.2).2.2
    · rw [map_append, ← h.written, hbody]
      rfl
    · exact forall_mem_append.2 ⟨h.sendable, forall_mem_singleton.2 hsend⟩
    · intro sending' ha
      cases ha
      rw [hbody, hdec]
    · cases hf : sending.fresh with
      | true =>
        exact Or.inr ⟨s.sent, d, rfl, hrec, hfresh.1 hf, Or.inl ⟨sending, rfl, hf, hdec⟩⟩
      | false =>
        have hmem : d ∈ s.sent := by
          by_contra hnot
          rw [hfresh.2 hnot] at hf
          cases hf
        refine Or.inl ⟨?_, fun sending' ha ↦ ?_⟩
        · rw [firsts_concat, if_pos (mem_firsts.2 hmem)]
          exact hrec
        · cases ha
          exact hf
    · change s.sent ++ [d] = _
      rw [hs, append_assoc]

theorem parentPush (k : Nat) (hbusy : s.parent.active.isSome = true) :
    Inv F authority { s with pipe := s.pipe.push k } := by
  have hsome : s.parent.active ≠ none := fun hnone ↦ by rw [hnone] at hbusy; cases hbusy
  refine ⟨h.pipe.push k, h.written, h.ordered, h.sendable,
    ⟨h.parent.tables, fun ha ↦ absurd ha hsome, h.parent.body, ?_⟩, h.child⟩
  rcases h.parent.state with hleft | ⟨init, d, hs, hrec, hnot, hstate⟩
  · exact Or.inl hleft
  · exact Or.inr ⟨init, d, hs, hrec, hnot, hstate.imp_right fun hr ↦ absurd hr.1 hsome⟩

theorem parentSent {sending : Sending} (hact : s.parent.active = some sending)
    (hout : s.pipe.unsent = []) :
    Inv F authority (s.parentSent sending) := by
  rw [Sys.parentSent]
  split
  next hfresh =>
    rcases h.parent.state with ⟨-, hold⟩ | ⟨init, d, hs, hrec, hnot, hstate⟩
    · rw [hold sending hact] at hfresh
      cases hfresh
    · have hd : sending.decision = d := by
        rcases hstate with ⟨sending', ha, -, hd⟩ | ⟨ha, -⟩
        · rw [hact] at ha
          cases ha
          exact hd
        · rw [hact] at ha
          cases ha
      have hord := h.ordered
      rw [hs] at hord
      obtain ⟨hn, hk⟩ := hord.of_concat.2.resolve_left hnot
      have htables := h.parent.tables
      rw [← hrec] at htables
      have hfirsts : firsts s.sent = s.parent.recorded ++ [d] := by
        rw [hs, firsts_concat, if_neg fun hmem ↦ hnot (mem_firsts.1 hmem), hrec]
      refine ⟨h.pipe, h.written, h.ordered, h.sendable, ⟨?_, fun _ _ ↦ hout,
        nofun, Or.inl ⟨?_, nofun⟩⟩, h.child⟩
      · rw [h.parent.body sending hact, hd, ← hrec]
        exact htables.record (fun x hx ↦ (hn x (mem_firsts.1 hx)).ne)
          fun x hx ↦ hk x (mem_firsts.1 hx)
      · rw [hd]
        exact hfirsts
  next hold =>
    refine ⟨h.pipe, h.written, h.ordered, h.sendable, ⟨h.parent.tables, fun _ _ ↦ hout,
      nofun, ?_⟩, h.child⟩
    rcases h.parent.state with ⟨hrec, -⟩ | ⟨_, _, -, -, -, ⟨sending', ha, hf, -⟩ | ⟨ha, -⟩⟩
    · exact Or.inl ⟨hrec, nofun⟩
    · rw [hact] at ha
      cases ha
      exact absurd hf hold
    · rw [hact] at ha
      cases ha

/-- A call of the child raises, but not for what it read. -/
theorem childRaise (active : Bool) {e : ChannelError}
    (he : e.isProtocol = false) : Inv F authority (s.childRaise active e) := by
  obtain ⟨got, rest, hs, hr, hc⟩ := h.child
  exact ⟨h.pipe, h.written, h.ordered, h.sendable, h.parent, got, rest, hs, hr, hc.tables,
    hc.reports, forall_mem_append.2 ⟨hc.raised, forall_mem_singleton.2 he⟩⟩

theorem childPull (k : Nat) :
    Inv F authority (s.childPull F authority k) := by
  have hpull : Inv F authority { s with pipe := s.pipe.pull k } :=
    ⟨h.pipe.pull k, h.written, h.ordered, h.sendable, h.parent, h.child⟩
  obtain ⟨got, rest, hs, hr, hc⟩ := h.child
  have hsize : ∀ b ∈ s.pipe.written, b ≠ [] := by
    intro b hb
    rw [h.written, mem_map] at hb
    obtain ⟨d, hd, rfl⟩ := hb
    exact (encodeDecision_ok (h.sendable d hd).2).2.1
  rw [Sys.childPull]
  dsimp only
  split
  · exact hpull
  next n hn =>
    split
    next hzero =>
      obtain ⟨b, more, hw, rfl, -⟩ := hpull.pipe.next_header hn
      have hw' : s.pipe.written = s.pipe.read ++ b :: more := hw
      exact absurd (length_eq_zero_iff.1 (Nat.lt_one_iff.1 hzero))
        (hsize b (by simp [hw']))
    · split
      · exact hpull
      next body hbody =>
        obtain ⟨-, more, hnext⟩ := hpull.pipe.next_frame hbody
        have hrest : rest.map (bodyOf F) = body :: more := by
          have hw : s.pipe.written = s.pipe.read ++ body :: more := hnext
          rw [h.written, hs, map_append, hr] at hw
          exact append_cancel_left hw
        obtain ⟨d, rest', rfl, rfl, -⟩ := map_eq_cons_iff.1 hrest
        have hord : Ordered (got ++ [d]) := by
          have := h.ordered
          rw [hs, show got ++ d :: rest' = (got ++ [d]) ++ rest' by simp] at this
          exact this.of_append
        have hsend := h.sendable d (by simp [hs])
        obtain ⟨t', hadmit, ht'⟩ := accept_of_admissible hc.tables hord
        have hreceive : receiveBody F authority s.child.tables (bodyOf F d) =
            .ok ((d, decide (d ∈ got)), t') := by
          refine bind_eq_ok_iff.2 ⟨d, ?_, hadmit⟩
          rw [← hsend.1]
          exact decodeDecision_of_encode hsend.2
        rw [hreceive]
        refine ⟨hpull.pipe.finish hbody, h.written, h.ordered, h.sendable, h.parent, got ++ [d],
          rest', by rw [hs]; simp, ?_, ht', ?_, hc.raised⟩
        · rw [map_append, ← hr]
          rfl
        · rw [marked_concat, ← hc.reports]

end

end Inv

/-! ## Every run -/

theorem inv_step (F : Type) [PyFloat F] (authority : Authority) :
    Invariant (Step F authority) (Inv F authority) := by
  intro s t hstep h
  cases hstep with
  | parentSend d hidle hopen hok => exact h.parentSend d hidle hok
  | parentRefused hidle => exact h.abort (Or.inr ⟨rfl, Or.inl hidle⟩)
  | parentConcurrent => exact h.abort (Or.inl rfl)
  | parentPush k hbusy => exact h.parentPush k hbusy
  | parentSent sending hact hout => exact h.parentSent hact hout
  | parentError hbusy hleft => exact h.abort (Or.inr ⟨rfl, Or.inr hleft⟩)
  | parentClose =>
    exact ⟨h.pipe.close, h.written, h.ordered, h.sendable,
      ⟨h.parent.tables, h.parent.idle, h.parent.body, h.parent.state⟩, h.child⟩
  | childReceive =>
    obtain ⟨got, rest, hs, hr, hc⟩ := h.child
    exact ⟨h.pipe, h.written, h.ordered, h.sendable, h.parent, got, rest, hs, hr, hc.tables,
      hc.reports, hc.raised⟩
  | childRefused => exact h.childRaise false rfl
  | childConcurrent => exact h.childRaise true rfl
  | childPull k => exact h.childPull k
  | childError e hact he => exact h.childRaise false he
  | childClose =>
    obtain ⟨got, rest, hs, hr, hc⟩ := h.child
    exact ⟨h.pipe, h.written, h.ordered, h.sendable, h.parent, got, rest, hs, hr, hc.tables,
      hc.reports, hc.raised⟩

/-- The decisions the child reported as new. -/
def Child.newDecisions (c : Child) : List Decision :=
  (c.reports.filter fun report ↦ !report.2).map Prod.fst

/-- **Decisions are delivered once and in order.**  In every state the two endpoints can get into,
no call of the child has raised a protocol error; the child has reported the first of the decisions
the parent has sent, each marked as a duplicate exactly if it had been sent before; no delivery id
was reported as new twice; the new ones are in the order of their sequences, and they are the first
of those the parent has recorded, but for one whose `send` has not returned. -/
theorem decisions_delivered (F : Type) [PyFloat F] (authority : Authority) (s : Sys)
    (h : Reachable F authority s) : (∀ e ∈ s.child.raised, e.isProtocol = false) ∧
    s.child.reports.map Prod.fst = s.sent.take s.child.reports.length ∧
    (∀ i d duplicate, s.child.reports[i]? = some (d, duplicate) →
      (duplicate = true ↔ d ∈ s.sent.take i)) ∧
    (s.child.newDecisions.map Decision.deliveryId).Nodup ∧
    s.child.newDecisions.Pairwise (fun d d' ↦ d.deliverySequence < d'.deliverySequence) ∧
    (s.child.newDecisions <+: s.parent.recorded ∨
      ∃ sending, s.parent.active = some sending ∧ sending.fresh = true ∧
        s.child.newDecisions = s.parent.recorded ++ [sending.decision]) := by
  have hinv : Inv F authority s := (inv_step F authority).of_run h inv_initial
  obtain ⟨got, rest, hs, hr, hc⟩ := hinv.child
  have hlen : s.child.reports.length = got.length := by rw [hc.reports, length_marked]
  have hnew : s.child.newDecisions = firsts got := by
    rw [Child.newDecisions, hc.reports, filter_marked]
  have hord : Ordered got := Admissible.of_append (hs ▸ hinv.ordered)
  refine ⟨hc.raised, ?_, fun i d duplicate hi ↦ ?_, ?_, ?_, ?_⟩
  · rw [hlen, hs, take_left, hc.reports, map_fst_marked]
  · rw [hc.reports] at hi
    have hlt : i < got.length := by
      rw [← length_marked got]
      exact (List.getElem?_eq_some_iff.1 hi).1
    rw [mark_eq hi, decide_eq_true_eq, hs, List.take_append_of_le_length hlt.le]
  · rw [hnew]
    exact hord.nodup_keys
  · rw [hnew]
    exact hord.sorted
  · rw [hnew]
    rcases hinv.parent.state with ⟨hrec, -⟩ | ⟨init, d, hsent, hrec, hnot, hstate⟩
    · rw [← hrec, hs]
      exact Or.inl (firsts_prefix_append got rest)
    · have hprefix : got <+: init ++ [d] := by
        rw [← hsent, hs]
        exact prefix_append got rest
      rcases (prefix_concat_iff.1 hprefix).symm with ⟨more, hmore⟩ | hall
      · rw [← hrec, ← hmore]
        exact Or.inl (firsts_prefix_append got more)
      · rcases hstate with ⟨sending, ha, hf, rfl⟩ | ⟨-, -, hleft⟩
        · refine Or.inr ⟨sending, ha, hf, ?_⟩
          rw [hall, firsts_concat, if_neg fun hmem ↦ hnot (mem_firsts.1 hmem), hrec]
        · -- a frame that was cut off is not read
          obtain ⟨more, hw, hbytes⟩ := hinv.pipe.read_prefix
          have hmore : more = [] := by
            rw [hinv.written, hr, hsent, hall] at hw
            exact append_cancel_left (hw.symm.trans (append_nil _).symm)
          rw [hmore] at hbytes
          simp only [frames_nil, append_eq_nil_iff] at hbytes
          exact absurd hbytes.2.2 hleft

def sampleAuthority : Authority where
  launchNonce := .lit "0123456789abcdef0123456789abcdef"
  taskId := .lit "task"
  controlRunId := .lit "run"
  sessionId := .lit "session"
  channelId := .lit "0123456789abcdef0123456789abcdef0123456789abcdef0123456789abcdef"
  valid := by decide +kernel

def sampleDecision : Decision where
  authority := sampleAuthority
  deliverySequence := 1
  approvalId := .lit "approval"
  toolCallId := .lit "call"
  nonce := .lit "nonce"
  approved := true
  decidedAtNs := 1
  valid := by decide +kernel

theorem sendable_sampleDecision : Sendable NumToken sampleAuthority sampleDecision := by
  have hok : (encodeDecision NumToken sampleDecision).isOk = true := by decide +kernel
  cases h : encodeDecision NumToken sampleDecision with
  | error => rw [h] at hok; cases hok
  | ok => exact ⟨rfl, by rw [h, eq_bodyOf h]⟩

/-- With the header alone the child goes on reading. -/
theorem Sys.childPull_header {s : Sys} {k : Nat} {b : List UInt8}
    (hheld : (s.pipe.pull k).held = packU32 b.length) (hne : b ≠ []) (hlen : b.length < 2 ^ 32) :
    s.childPull F authority k = { s with pipe := s.pipe.pull k } := by
  have hpos : 0 < b.length := length_pos_iff.2 hne
  rw [Sys.childPull]
  rw [hheld, header?_packU32 hlen]
  dsimp only
  rw [if_neg (by omega), body?, header?_packU32 hlen]
  dsimp only
  rw [if_neg (by rw [length_packU32]; omega)]

/-- With the whole frame it reports a decision. -/
theorem Sys.childPull_frame {s : Sys} {k : Nat} {b : List UInt8} {report : Decision × Bool}
    {tables : ChildTables} (hheld : (s.pipe.pull k).held = Py.frame b) (hne : b ≠ [])
    (hlen : b.length < 2 ^ 32)
    (hreceive : receiveBody F authority s.child.tables b = .ok (report, tables)) :
    s.childPull F authority k =
      { s with pipe := (s.pipe.pull k).finish b
               child := { s.child with tables := tables, active := false
                                       reports := s.child.reports ++ [report] } } := by
  have hpos : 0 < b.length := length_pos_iff.2 hne
  rw [Sys.childPull]
  rw [hheld, header?_frame hlen]
  dsimp only
  rw [if_neg (by omega), body?_frame hlen]
  dsimp only
  rw [hreceive]

/-- The parent has put the frame of its first decision into the stream and has not come back from
`_send_all`; the child has read and reported it. -/
theorem exists_reported (hd : Sendable F authority d) :
    ∃ s : Sys, Reachable F authority s ∧ s.child.newDecisions = [d] ∧ s.parent.recorded = [] ∧
      s.pipe.unsent = [] ∧ s.parent.active = some ⟨d, bodyOf F d, true⟩ := by
  obtain ⟨-, hne, hlen⟩ := encodeDecision_ok hd.2
  have hpos : 1 ≤ d.deliverySequence := by
    have hlast : lastOf [] < d.deliverySequence := lastOf_lt nofun
    exact hlast
  have hadmit : ParentTables.empty.checkSend d (bodyOf F d) = .ok true := by
    change (if _ ∨ d.deliverySequence ≤ 0 then _ else _) = _
    refine if_neg fun hbad ↦ hbad.elim (fun hsome ↦ ?_) fun hle ↦ by omega
    cases hsome
  have hprep : prepareSend F authority ParentTables.empty d = .ok ⟨d, bodyOf F d, true⟩ := by
    rw [prepareSend, if_neg (not_not.2 hd.1)]
    exact bind_eq_ok_iff.2 ⟨_, hd.2, bind_eq_ok_iff.2 ⟨_, hadmit, rfl⟩⟩
  obtain ⟨tables, hchild, -⟩ : ∃ tables, ChildTables.empty.accept d (bodyOf F d) =
      .ok ((d, false), tables) ∧ _ :=
    accept_of_admissible (l := []) ⟨rfl, rfl, rfl⟩ (Admissible.fresh .nil nofun nofun)
  have hreceive : receiveBody F authority ChildTables.empty (bodyOf F d) =
      .ok ((d, false), tables) := by
    refine bind_eq_ok_iff.2 ⟨d, ?_, hchild⟩
    rw [← hd.1]
    exact decodeDecision_of_encode hd.2
  generalize bodyOf F d = b at *
  -- the states of the run: the frame in `_send_all`, in the stream, and the header at the child
  let parent : Parent := ⟨false, false, .empty, some ⟨d, b, true⟩, []⟩
  let child (active : Bool) : Child := ⟨false, false, .empty, active, [], []⟩
  let sending : Sys := ⟨parent, child false, ⟨[b], Py.frame b, [], [], [], false⟩, [d]⟩
  let sent : Sys := ⟨parent, child false, ⟨[b], [], Py.frame b, [], [], false⟩, [d]⟩
  let header : Sys := ⟨parent, child true, ⟨[b], [], b, packU32 b.length, [], false⟩, [d]⟩
  have hsend : Step F authority Sys.initial sending := by
    have hstep : Step F authority _ _ := Step.parentSend Sys.initial d rfl rfl rfl
    rwa [Sys.parentSend, show Sys.initial.parent.tables = .empty from rfl, hprep] at hstep
  have hpush : Step F authority sending sent := by
    have hstep : Step F authority _ _ := Step.parentPush sending (Py.frame b).length rfl
      (by rw [length_frame]; omega) le_rfl rfl
    rwa [Pipe.push, show sending.pipe.unsent = Py.frame b from rfl, drop_length,
      take_length] at hstep
  have hcall : Step F authority sent { sent with child := child true } :=
    Step.childReceive sent rfl rfl rfl
  have hheader : Step F authority { sent with child := child true } header := by
    have hstep : Step F authority _ _ := Step.childPull { sent with child := child true } 4 rfl
      (by decide) le_rfl (by change 4 ≤ (Py.frame b).length; rw [length_frame]; omega)
    have hpull : sent.pipe.pull 4 = header.pipe := by
      change (⟨[b], [], (Py.frame b).drop 4, [] ++ (Py.frame b).take 4, [], false⟩ : Pipe) = _
      rfl
    rw [Sys.childPull_header (b := b) (by rw [show Sys.pipe { sent with child := child true } =
      sent.pipe from rfl, hpull]) hne hlen] at hstep
    rwa [show Sys.pipe { sent with child := child true } = sent.pipe from rfl, hpull] at hstep
  have hbody : Step F authority header (header.childPull F authority b.length) := by
    refine Step.childPull header b.length rfl (length_pos_iff.2 hne) ?_ le_rfl
    rw [room, show header.pipe.held = packU32 b.length from rfl, header?_packU32 hlen]
    simp
  rw [Sys.childPull_frame (b := b) (by simp [header, Pipe.pull, Py.frame]) hne hlen hreceive]
    at hbody
  have hrun := ((((Relation.ReflTransGen.single hsend).tail hpush).tail hcall).tail hheader).tail
    hbody
  exact ⟨_, hrun, rfl, rfl, rfl, rfl⟩

/-- **A decision may be reported before it is recorded.** -/
theorem reported_before_recorded : ∃ s : Sys, Reachable NumToken sampleAuthority s ∧
    s.child.newDecisions = [sampleDecision] ∧ s.parent.recorded = [] ∧
    ¬ s.child.newDecisions <+: s.parent.recorded := by
  obtain ⟨s, hreach, hnew, hrec, -⟩ := exists_reported sendable_sampleDecision
  refine ⟨s, hreach, hnew, hrec, ?_⟩
  rw [hnew, hrec]
  exact fun h ↦ by cases prefix_nil.1 h

/-- `decisions_delivered` at the end of that `send`. -/
theorem decisions_delivered_sample : ∃ s : Sys, Reachable NumToken sampleAuthority s ∧
    s.child.newDecisions = [sampleDecision] ∧ s.parent.recorded = [sampleDecision] ∧
    s.child.newDecisions <+: s.parent.recorded ∧
    ∀ e ∈ s.child.raised, e.isProtocol = false := by
  obtain ⟨s, hreach, hnew, hrec, hout, hact⟩ := exists_reported sendable_sampleDecision
  have hstep : Step NumToken sampleAuthority _ _ := Step.parentSent s _ hact hout
  rw [Sys.parentSent, if_pos rfl, hrec] at hstep
  obtain ⟨hraised, -, -, -, -, hprefix⟩ :=
    decisions_delivered NumToken sampleAuthority _ (hreach.tail hstep)
  exact ⟨_, hreach.tail hstep, hnew, rfl, hprefix.resolve_right fun ⟨_, ha, _⟩ ↦ (by cases ha),
    hraised⟩

end AgentGateway.ApprovalChannel
