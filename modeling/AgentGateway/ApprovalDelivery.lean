import AgentGateway.ApprovalChannel.Delivery
import AgentGateway.ApprovalStore.OutboxProtocol

/-!
# Delivering the outbox of a run

Between the outbox of the approval store and the approval channel of a run stand two callers: the
route of a vote, which delivers the row the vote wrote, and the drainer, which goes through all
pending rows in the order of their sequence numbers.  Either of them audits the row, and then, under
the lock of the run, opens the append transaction, sends the decision on the channel inside of it
and commits.  Whatever fails there, if the decision has been sent, the row is reconciled.  A row the
drainer can never deliver is quarantined, and its run is failed.

A row whose attempt fails before the decision is sent stays pending, and the pass goes on with the
next row.  The channel, however, takes sequence numbers in increasing order only: once a later row
of the same run was sent, the row that failed is stale, and the next attempt to deliver it makes the
parent abort the channel (`stale_after_later_row`).  If every attempt that reaches the socket is for
a row before which nothing is left to send (`InOrder`), this does not happen
(`failed_delivery_stays_deliverable`).
-/

namespace AgentGateway.ApprovalDelivery

open Py ApprovalStore ApprovalChannel List

variable {F M : Type} [PyFloat F]

/-! ## Publishing one row -/

/-- The key a row is looked up by. -/
def keyOf (d : Delivery) : DeliveryKey := ⟨d.approvalId, d.context.toolCallId, d.context.nonce⟩

/-- Was the row written for this run?  (`require_matching_autonomous_delivery`) -/
def isFor (authority : Authority) (d : Delivery) : Prop :=
  d.context.taskId = authority.taskId ∧ d.context.controlRunId = authority.controlRunId ∧
    d.context.sessionId = authority.sessionId ∧ d.context.channelId = authority.channelId

instance (authority : Authority) (d : Delivery) : Decidable (isFor authority d) :=
  inferInstanceAs (Decidable (_ ∧ _))

/-- The decision `send_approval_decision` builds for a row of the run; its constructor checks the
fields. -/
def decisionOf (authority : Authority) (d : Delivery) : Option Decision :=
  if isFor authority d then
    if h : (decide (1 ≤ d.deliverySequence) && isCanonicalText 512 d.approvalId &&
        isCanonicalText 512 d.context.toolCallId && isCanonicalText 512 d.context.nonce &&
        decide (1 ≤ d.decidedAtNs.toNat)) = true then
      some ⟨authority, d.deliverySequence, d.approvalId, d.context.toolCallId, d.context.nonce,
        d.approved, d.decidedAtNs.toNat, h⟩
    else none
  else none

/-- Where an attempt fails: before the socket (the append transaction does not open), at the socket,
at the commit, or at the commit and again at the reconciliation. -/
inductive Fault where
  | beforeSend
  | transport
  | commit
  | reconcile
deriving DecidableEq

/-- The store, whether the run accepts decisions, and the parent's end of its channel: the tables,
whether it is closed, and what `send` raised.  The decisions it recorded are kept by the program
only as their bodies. -/
structure State where
  db : Db
  live : Bool
  tables : ParentTables
  closed : Bool
  raised : Option ChannelError
  sent : List Decision

def State.start : State := ⟨.empty, true, .empty, false, none, []⟩

/-- `AutonomousApprovalChannelParent.send`, and whether it returned.  An error aborts the channel.
-/
def State.send (F : Type) [PyFloat F] (authority : Authority) (s : State) (decision : Decision)
    (transportFails : Bool) : Bool × State :=
  if s.closed then (false, s)
  else
    match prepareSend F authority s.tables decision with
    | .error e => (false, { s with closed := true, raised := some e })
    | .ok sending =>
      if transportFails then (false, { s with closed := true })
      else if sending.fresh then
        (true, { s with
          tables := s.tables.record decision sending.body
          sent := s.sent ++ [decision] })
      else (true, s)

/-- `AutonomousApprovalChannelParent.require_sent` -/
def State.requireSent (F : Type) [PyFloat F] (s : State) (decision : Decision) : Bool :=
  (encodeDecision F decision).toOption.any fun body ↦
    decide (s.tables.sentBySequence.lookup decision.deliverySequence = some body ∧
      s.tables.sequenceByDelivery.lookup decision.deliveryId = some decision.deliverySequence)

/-- The append transaction opens on a pending row that is audited and not fenced. -/
def openAppend (db : Db) (k : DeliveryKey) : Except StoreError Delivery := do
  let row ← db.requireDelivery k
  let d ← auditedDelivery db k row.approved
  require (d.state = .pending) (.runtime (.lit "autonomous approval delivery is not pending"))
  requireUnfenced db k.approvalId row.approved
  .ok d

/-- A transaction of the store, and whether it committed. -/
def State.transact (s : State) (result : Except StoreError Db) : Bool × State :=
  match result with
  | .ok db => (true, { s with db })
  | .error _ => (false, s)

/-- The append transaction, with `send` inside. -/
def State.append (F : Type) [PyFloat F] (authority : Authority) (s : State) (d : Delivery)
    (decision : Decision) (publishNs : Int) (fault : Option Fault) : Bool × State :=
  if fault = some .beforeSend ∨ (openAppend s.db (keyOf d)).toOption = none then (false, s)
  else
    match s.send F authority decision (decide (fault = some .transport)) with
    | (false, s) => (false, s)
    | (true, s) =>
      if fault = some .commit ∨ fault = some .reconcile then (false, s)
      else s.transact (appendTransaction s.db publishNs (keyOf d) d.approved true)

/-- The part of `send_approval_decision` under `approval_decision_lock`, for the row with this key,
and whether it returned.  The columns it sends never change, so it does not matter when the caller
has read them. -/
def State.publish (F : Type) [PyFloat F] (authority : Authority) (s : State) (k : DeliveryKey)
    (publishNs reconcileNs : Int) (fault : Option Fault) : Bool × State :=
  match s.db.delivery? k with
  | none => (false, s)
  | some d =>
    match decisionOf authority d with
    | none => (false, s)
    | some decision =>
      if s.live = false then (false, s)
      else
        match s.append F authority d decision publishNs fault with
        | (true, s) => (true, s)
        | (false, s) =>
          if s.requireSent F decision = false ∨ fault = some .reconcile then (false, s)
          else s.transact (reconcileDuplicate s.db reconcileNs (keyOf d) d.approved)

/-- What happens to a run: an operation of the store, a look at the clock of the store, an attempt
to publish a row, or the end of the run, with which its channel is closed. -/
inductive Action (F M : Type) where
  | store (op : Op F M)
  | recoveryWindow (nowNs : Int)
  | publish (k : DeliveryKey) (publishNs reconcileNs : Int) (fault : Option Fault)
  | stop

def step (env : Env F M) (authority : Authority) (s : State) : Action F M → State
  | .store op => { s with db := s.db.step env op }
  | .recoveryWindow nowNs => (s.transact ((trustedUtcNow s.db nowNs).map Prod.snd)).2
  | .publish k publishNs reconcileNs fault =>
    (s.publish F authority k publishNs reconcileNs fault).2
  | .stop => { s with live := false, closed := true }

/-! ## The callers -/

/-- A run: the authority of its channel, its owner, and the client it was started from, both as the
registry keeps them, without blanks around them and the latter in lower case.  It has no approval
continuation. -/
structure Run where
  authority : Authority
  ownerUserId : Str
  channel : Option Str

/-- `require_matching_autonomous_delivery`: the row and the stored request are of this run, and
agree on the decision. -/
def Run.Matches (lower : Str → Str) (run : Run) (d : Delivery) (request : ApprovalRequest) : Prop :=
  isFor run.authority d ∧ run.ownerUserId ≠ [] ∧ request.approvalId = d.approvalId ∧
    request.toolCallId = d.context.toolCallId ∧ request.userId = run.ownerUserId ∧
    request.requestId = run.authority.controlRunId ∧
    request.runId = some run.authority.controlRunId ∧
    request.sessionId = some run.authority.sessionId ∧
    (∀ channel ∈ run.channel, request.channel.strip ≠ [] ∧ lower request.channel.strip = channel) ∧
    request.deciderId = some run.ownerUserId ∧
    request.state = if d.approved then .approved else .denied

instance (lower : Str → Str) (run : Run) (d : Delivery) (request : ApprovalRequest) :
    Decidable (run.Matches lower d request) :=
  inferInstanceAs (Decidable (_ ∧ _))

/-- The clock readings of an attempt, where it fails, whether the owner is still on the roster, and
whether the drainer is closing when it comes to the row. -/
structure Attempt where
  auditNs : Int
  publishNs : Int
  reconcileNs : Int
  failureNs : Int
  fault : Option Fault
  admitted : Bool
  closing : Bool

/-- `ensure_autonomous_approval_delivery_audited` -/
def State.ensureAudited (env : Env F M) (s : State) (k : DeliveryKey) (nowNs : Int) :
    Option State :=
  match (auditRead env.toHost s.db k).toOption with
  | none => none
  | some none => some s
  | some (some ticket) => (auditCommit s.db nowNs ticket).toOption.map fun db ↦ { s with db }

def deliveryError : Str := .lit "RuntimeError"

/-- What a caller makes of the state of the row it has read: it is done with it, it gives up, or it
goes on. -/
def delivered? (d : Delivery) : Option Bool :=
  if d.state = .published ∨ d.state = .acknowledged then some true
  else if d.state ≠ .pending then some false
  else none

/-- `deliver_autonomous_approval_outbox`, and whether it returned.  The columns it compares with the
request never change, so it compares them once. -/
def State.deliverOutbox (env : Env F M) (run : Run) (s : State) (d : Delivery)
    (request : ApprovalRequest) (a : Attempt) : Bool × State :=
  if ¬ run.Matches env.lower d request then (false, s)
  else
    match delivered? d with
    | some done => (done, s)
    | none =>
      match s.ensureAudited env (keyOf d) a.auditNs with
      | none => (false, s)
      | some s =>
        match (s.db.delivery? (keyOf d)).bind delivered? with
        | some done => (done, s)
        | none =>
          if s.live = false then (false, s)
          else
            match s.publish F run.authority (keyOf d) a.publishNs a.reconcileNs a.fault with
            | (true, s) => (true, s)
            | (false, s) => (false, step env run.authority s
                (.store (.recordFailure a.failureNs (keyOf d) deliveryError)))

/-- One row of a pass.  A failure that was not recorded yet is recorded (`_record_failure`); a row
that can never be delivered (`PermanentAutonomousApprovalDeliveryError`) is quarantined, and if the
store has taken that, its run is failed. -/
def State.drainRow (env : Env F M) (run : Run) (s : State) (d : Delivery) (a : Attempt) : State :=
  match (s.db.requests.find? d.approvalId).filter fun request ↦
      decide (s.live = true ∧ a.admitted = true ∧ run.Matches env.lower d request) with
  | none =>
    if (quarantine s.db a.failureNs (keyOf d) deliveryError).toOption = none then s
    else runs (step env run.authority) s
      [.store (.quarantine a.failureNs (keyOf d) deliveryError), .stop]
  | some request =>
    match s.deliverOutbox env run d request a with
    | (true, s) => s
    | (false, s) =>
      match s.db.delivery? (keyOf d) with
      | none => s
      | some current =>
        if current.state = .acknowledged ∨ d.attemptCount < current.attemptCount then s
        else step env run.authority s (.store (.recordFailure a.failureNs (keyOf d) deliveryError))

/-- `high_water`, the greatest sequence number at the beginning of a pass. -/
def State.highWater (s : State) : Nat :=
  (s.db.outbox.rows.map Delivery.deliverySequence).foldl max 0

/-- `list_pending_autonomous_approval_deliveries`, for the rows of one task. -/
def State.pendingRows (s : State) (taskId : Str) (throughSequence : Nat) : List Delivery :=
  (s.db.outbox.rows.filter fun d ↦ decide (d.state = .pending ∧ d.context.taskId = taskId ∧
    d.deliverySequence ≤ throughSequence)).insertionSort
    fun d e ↦ d.deliverySequence ≤ e.deliverySequence

/-- `drain_once`, for the rows of one task: a row that fails does not stop the pass, closing the
drainer does.  The store lists all rows of the window at once. -/
def State.drainOnce (env : Env F M) (run : Run) (s : State) (nowNs : Int)
    (attempt : Delivery → Attempt) : State :=
  if (trustedUtcNow s.db nowNs).toOption = none then s
  else
    ((s.pendingRows run.authority.taskId s.highWater).takeWhile fun d ↦
      !(attempt d).closing).foldl (fun s d ↦ s.drainRow env run d (attempt d))
      (step env run.authority s (.recoveryWindow nowNs))

/-! ## Decisions and their rows -/

section Rows

variable {authority : Authority}

theorem decisionOf_eq_some {d : Delivery} {x : Decision} (h : decisionOf authority d = some x) :
    x.authority = authority ∧ x.deliverySequence = d.deliverySequence ∧
      x.approvalId = d.approvalId := by
  rw [decisionOf] at h
  split at h
  · split at h
    · cases h
      exact ⟨rfl, rfl, rfl⟩
    · cases h
  · cases h

/-- The decision of a row depends on the columns that never change. -/
theorem decisionOf_congr {d d' : Delivery} (h : d'.identity = d.identity) :
    decisionOf authority d' = decisionOf authority d := by
  obtain ⟨⟩ := d'
  simp only [Delivery.identity, Prod.mk.injEq] at h
  obtain ⟨rfl, rfl, rfl, rfl, rfl, -⟩ := h
  rfl

theorem eq_pending_of_stateMove {st : DeliveryState} (h : StateMove st .pending) :
    st = .pending := by
  cases h
  rfl

/-- A row that is pending after an operation was pending before, or is new. -/
theorem pending_before {env : Env F M} {db : Db} {op : Op F M} (hseq : Sequenced db) {d' : Delivery}
    (hd' : d' ∈ (db.step env op).outbox.rows) (hpending : d'.state = .pending) :
    (∃ d ∈ db.outbox.rows, d.state = .pending ∧ d'.identity = d.identity) ∨
      ∀ d ∈ db.outbox.rows, d.deliverySequence < d'.deliverySequence := by
  obtain ⟨-, hstep⟩ := Db.step_outbox env db op
  rcases hstep.rows with ⟨d, hd, d₁, hmove, -, htable⟩ | ⟨hsame, -⟩ | ⟨d, hn, -, -, hrows⟩
  · have hmem : d' ∈ (db.outbox.toTable.put d₁).rows := htable ▸ hd'
    rcases Table.mem_put.1 hmem with ⟨hold, -⟩ | ⟨rfl, -⟩
    · exact .inl ⟨d', hold, hpending, rfl⟩
    · exact .inl ⟨d, hd, eq_pending_of_stateMove (hpending ▸ hmove.state.1), hmove.identity_eq⟩
  · exact .inl ⟨d', hsame ▸ hd', hpending, rfl⟩
  · have hmem : d' ∈ db.outbox.rows ++ [d] := hrows ▸ hd'
    rcases mem_append.1 hmem with hold | hnew
    · exact .inl ⟨d', hold, hpending, rfl⟩
    · rw [mem_singleton] at hnew
      subst hnew
      refine .inr fun e he ↦ ?_
      obtain ⟨n, hnext, hlt⟩ := hseq e he
      rcases hn with ⟨hnone, -⟩ | hsome
      · rw [hnone] at hnext
        cases hnext
      · rw [hsome, Option.some.injEq] at hnext
        omega

end Rows

/-! ## The channel keeps up with the outbox -/

/-- The errors of `send` that say that the caller has broken the order. -/
def isConflict (e : ChannelError) : Prop :=
  e = .protocol "autonomous approval delivery is stale or conflicting" ∨
    e = .protocol "autonomous approval sequence was reused with different content"

/-- An attempt that reaches the socket is for a row before which nothing is left to send: every
pending row of the run with a smaller sequence number has been sent. -/
def InOrder (authority : Authority) (s : State) : Action F M → Prop
  | .store _ | .recoveryWindow _ | .stop => True
  | .publish k _ _ fault => fault ≠ some .beforeSend → ∀ d, s.db.delivery? k = some d →
    ∀ e ∈ s.db.outbox.rows, e.state = .pending → e.deliverySequence < d.deliverySequence →
      ∀ x, decisionOf authority e = some x → x ∈ s.sent

/-- The decisions that were sent stand in the tables in increasing order, each belongs to a row, and
every row that is left to send comes after all of them. -/
structure Inv (F : Type) [PyFloat F] (authority : Authority) (s : State) : Prop where
  sequenced : Sequenced s.db
  tables : s.tables.Of F s.sent
  sorted : s.sent.Pairwise fun x y ↦ x.deliverySequence < y.deliverySequence
  row : ∀ x ∈ s.sent, ∃ d ∈ s.db.outbox.rows, decisionOf authority d = some x
  ahead : ∀ d ∈ s.db.outbox.rows, d.state = .pending → ∀ x, decisionOf authority d = some x →
    x ∉ s.sent → ∀ y ∈ s.sent, y.deliverySequence < x.deliverySequence
  raised : ∀ e ∈ s.raised, ¬ isConflict e
  live : s.closed = false → s.live = true

section Invariant

variable {authority : Authority} {s : State}

theorem Inv.start : Inv F authority State.start where
  sequenced _ h := absurd h not_mem_nil
  tables := ⟨rfl, rfl, rfl⟩
  sorted := .nil
  row _ h := absurd h not_mem_nil
  ahead _ h := absurd h not_mem_nil
  raised _ h := nomatch h
  live _ := rfl

/-- **The store may do what it likes.** -/
theorem Inv.store (h : Inv F authority s) (env : Env F M) (op : Op F M) :
    Inv F authority { s with db := s.db.step env op } where
  sequenced := h.sequenced.step env op
  tables := h.tables
  sorted := h.sorted
  row x hx := by
    obtain ⟨d, hd, hdx⟩ := h.row x hx
    obtain ⟨d', hd', -, -, hmoved⟩ := (Db.step_outboxAdvance env s.db op).keeps d hd trivial
    exact ⟨d', hd', (decisionOf_congr hmoved.identity).trans hdx⟩
  ahead d' hd' hpending x hx hunsent y hy := by
    rcases pending_before h.sequenced hd' hpending with ⟨d, hd, hpending', hsame⟩ | hnew
    · exact h.ahead d hd hpending' x ((decisionOf_congr hsame).symm.trans hx) hunsent y hy
    · obtain ⟨e, he, hey⟩ := h.row y hy
      rw [(decisionOf_eq_some hey).2.1, (decisionOf_eq_some hx).2.1]
      exact hnew e he
  raised := h.raised
  live := h.live

variable {d : Delivery} {x : Decision}

/-- Two decisions of rows of the outbox with one sequence number, or one approval, are the same. -/
theorem decisionOf_unique {db : Db} {e : Delivery} {y : Decision} (hd : d ∈ db.outbox.rows)
    (he : e ∈ db.outbox.rows) (hx : decisionOf authority d = some x)
    (hy : decisionOf authority e = some y)
    (hsame : x.deliverySequence = y.deliverySequence ∨ x.approvalId = y.approvalId) : x = y := by
  obtain ⟨-, hxseq, hxid⟩ := decisionOf_eq_some hx
  obtain ⟨-, hyseq, hyid⟩ := decisionOf_eq_some hy
  have : d = e := by
    rcases hsame with hsame | hsame
    · exact Indexed.eq_of_index_eq hd he (hxseq.symm.trans (hsame.trans hyseq))
    · exact Table.eq_of_key_eq hd he (hxid.symm.trans (hsame.trans hyid))
  subst this
  exact Option.some.inj (hx.symm.trans hy)

/-- **The tables admit the decision of a pending row**: as a repetition if it was sent, and
otherwise as a new one. -/
theorem Inv.checkSend (h : Inv F authority s) (hd : d ∈ s.db.outbox.rows)
    (hpending : d.state = .pending) (hx : decisionOf authority d = some x) :
    s.tables.checkSend x (bodyOf F x) = .ok (decide (x ∉ s.sent)) := by
  rw [ParentTables.checkSend, h.tables.sent, h.tables.delivery, h.tables.last]
  by_cases hsent : x ∈ s.sent
  · have hseqs : (s.sent.map Decision.deliverySequence).Nodup :=
      pairwise_map.2 (h.sorted.imp fun hlt ↦ hlt.ne)
    have hids : (s.sent.map Decision.deliveryId).Nodup := by
      refine pairwise_map.2 (h.sorted.imp_of_mem fun {y z} hy hz hlt hsame ↦ ?_)
      obtain ⟨e, he, hey⟩ := h.row y hy
      obtain ⟨e', he', hez⟩ := h.row z hz
      have := decisionOf_unique he he' hey hez (.inr (congrArg Prod.fst hsame))
      exact absurd (congrArg Decision.deliverySequence this) hlt.ne
    rw [Dict.lookup_map_of_mem hseqs hsent, Dict.lookup_map_of_mem hids hsent]
    simp [hsent]
  · have hseq : (s.sent.map fun y ↦ (y.deliverySequence, bodyOf F y)).lookup x.deliverySequence =
        none := by
      refine Dict.lookup_map_eq_none.2 fun y hy hsame ↦ hsent ?_
      obtain ⟨e, he, hey⟩ := h.row y hy
      exact decisionOf_unique he hd hey hx (.inl hsame) ▸ hy
    have hid : (s.sent.map fun y ↦ (y.deliveryId, y.deliverySequence)).lookup x.deliveryId =
        none := by
      refine Dict.lookup_map_eq_none.2 fun y hy hsame ↦ hsent ?_
      obtain ⟨e, he, hey⟩ := h.row y hy
      exact decisionOf_unique he hd hey hx (.inr (congrArg Prod.fst hsame)) ▸ hy
    have hlast := lastOf_lt (h.ahead d hd hpending x hx hsent)
    rw [hseq, hid]
    simp [hsent, hlast]

/-- A decision that cannot be encoded is refused for another reason. -/
theorem not_isConflict_of_encodeDecision {e : ChannelError}
    (h : encodeDecision F x = .error e) : ¬ isConflict e := by
  have hcases : e = .protocol "autonomous approval frame is not canonical JSON" ∨
      e = .protocol "autonomous approval frame is empty" ∨
      e = .value "'I' format requires a number" := by
    rw [encodeDecision, canonicalBody] at h
    split at h
    · cases h
      exact .inl rfl
    · cases h
      exact .inr (.inl rfl)
    next body _ _ =>
      by_cases hlen : body.length < 2 ^ 32
      · simp only [bind, Except.bind, hlen, if_true, reduceCtorEq] at h
      · simp only [bind, Except.bind, hlen, if_false, Except.error.injEq] at h
        exact .inr (.inr h.symm)
  rintro (rfl | rfl) <;> simp at hcases

/-- **A pending row before which nothing is left to send can be sent.** -/
theorem Inv.send (h : Inv F authority s) (hd : d ∈ s.db.outbox.rows) (hpending : d.state = .pending)
    (hx : decisionOf authority d = some x)
    (horder : ∀ e ∈ s.db.outbox.rows, e.state = .pending → e.deliverySequence < d.deliverySequence →
      ∀ y, decisionOf authority e = some y → y ∈ s.sent) (transportFails : Bool) :
    Inv F authority (s.send F authority x transportFails).2 := by
  obtain ⟨hauth, hxseq, -⟩ := decisionOf_eq_some hx
  have hcheck := h.checkSend hd hpending hx
  rw [State.send]
  split
  · exact h
  cases hprepare : prepareSend F authority s.tables x with
  | error e =>
    refine ⟨h.sequenced, h.tables, h.sorted, h.row, h.ahead, fun e' he' ↦ ?_, by simp⟩
    obtain rfl : e = e' := Option.some.inj he'
    rw [prepareSend, if_neg (not_not.2 hauth)] at hprepare
    cases hencode : encodeDecision F x with
    | error =>
      rw [hencode] at hprepare
      cases hprepare
      exact not_isConflict_of_encodeDecision hencode
    | ok =>
      rw [eq_bodyOf hencode] at hencode
      simp [hencode, hcheck, bind, Except.bind] at hprepare
  | ok sending =>
    obtain ⟨-, -, hbody, hfresh⟩ := prepareSend_ok hprepare
    have hnew : sending.fresh = decide (x ∉ s.sent) := Except.ok.inj (hfresh.symm.trans hcheck)
    by_cases htransport : transportFails = true
    · simp only [htransport, if_true]
      exact ⟨h.sequenced, h.tables, h.sorted, h.row, h.ahead, h.raised, by simp⟩
    · by_cases hsent : x ∈ s.sent
      · have hold : sending.fresh = false := by simp [hnew, hsent]
        simpa only [htransport, hold, Bool.false_eq_true, if_false] using h
      · have hold : sending.fresh = true := by simp [hnew, hsent]
        have hlt := h.ahead d hd hpending x hx hsent
        simp only [htransport, hold, Bool.false_eq_true, if_false, if_true]
        have hids : ∀ y ∈ s.sent, y.deliveryId ≠ x.deliveryId := by
          intro y hy hsame
          obtain ⟨e, he, hey⟩ := h.row y hy
          exact hsent (decisionOf_unique he hd hey hx (.inr (congrArg Prod.fst hsame)) ▸ hy)
        refine ⟨h.sequenced, ?_, ?_, ?_, ?_, h.raised, h.live⟩
        · rw [hbody]
          exact h.tables.record (fun y hy ↦ (hlt y hy).ne) hids
        · refine pairwise_append.2 ⟨h.sorted, pairwise_singleton _ _, fun y hy z hz ↦ ?_⟩
          rw [mem_singleton.1 hz]
          exact hlt y hy
        · intro y hy
          rcases mem_append.1 hy with hy | hy
          · exact h.row y hy
          · rw [mem_singleton.1 hy]
            exact ⟨d, hd, hx⟩
        · intro e he hpending' z hz hunsent y hy
          rw [mem_append, not_or, mem_singleton] at hunsent
          rcases mem_append.1 hy with hy | hy
          · exact h.ahead e he hpending' z hz hunsent.1 y hy
          · -- a row with a smaller number would have been sent
            rw [mem_singleton.1 hy]
            have hzseq := (decisionOf_eq_some hz).2.1
            have hne : z.deliverySequence ≠ x.deliverySequence := fun hsame ↦
              hunsent.2 (decisionOf_unique he hd hz hx (.inl hsame))
            have hnot : ¬ e.deliverySequence < d.deliverySequence := fun hlt' ↦
              hunsent.1 (horder e he hpending' hlt' z hz)
            omega

/-- A transaction is an operation of the store. -/
theorem Inv.transact (h : Inv F authority s) (env : Env F M) (op : Op F M) :
    Inv F authority (s.transact (op.body env s.db)).2 := by
  cases hresult : op.body env s.db with
  | error => exact h
  | ok db => exact Db.step_of_ok hresult ▸ h.store env op

theorem openAppend_eq_ok {db : Db} {k : DeliveryKey} (h : openAppend db k = .ok d) :
    db.delivery? k = some d ∧ d.state = .pending := by
  simp only [openAppend, auditedDelivery, Db.requireDelivery, bind_eq_ok_iff, requireSome_eq_ok_iff,
    require_eq_ok_iff] at h
  obtain ⟨row, hrow, d', ⟨-, -, d'', hd'', -, -, -, -, hret⟩, -, hpending, -, -, h⟩ := h
  cases h
  cases hret
  exact ⟨hd'', hpending⟩

theorem delivery?_keyOf {db : Db} (hd : d ∈ db.outbox.rows) :
    db.delivery? (keyOf d) = some d := by
  rw [Db.delivery?, Option.filter_eq_some_iff]
  exact ⟨Table.find?_eq_some_iff.2 ⟨hd, rfl⟩, by simp [keyOf]⟩

theorem Inv.append (h : Inv F authority s) (env : Env F M) (hd : d ∈ s.db.outbox.rows)
    (hx : decisionOf authority d = some x) (publishNs : Int) (fault : Option Fault)
    (horder : fault ≠ some .beforeSend → ∀ e ∈ s.db.outbox.rows, e.state = .pending →
      e.deliverySequence < d.deliverySequence → ∀ y, decisionOf authority e = some y → y ∈ s.sent) :
    Inv F authority (s.append F authority d x publishNs fault).2 := by
  rw [State.append]
  split
  · exact h
  next hopen =>
    obtain ⟨hfault, hsome⟩ := not_or.1 hopen
    obtain ⟨d', hd'⟩ := Option.ne_none_iff_exists'.1 hsome
    have hpending : d.state = .pending := by
      obtain ⟨hfind, hpending⟩ := openAppend_eq_ok (toOption_eq_some_iff.1 hd')
      exact (Option.some.inj ((delivery?_keyOf hd).symm.trans hfind)) ▸ hpending
    have hsend := h.send hd hpending hx (horder hfault) (decide (fault = some .transport))
    split
    next s' heq =>
      rw [heq] at hsend
      exact hsend
    next s' heq =>
      rw [heq] at hsend
      split
      · exact hsend
      · exact hsend.transact env (.appendTransaction publishNs (keyOf d) d.approved true)

/-- **One step keeps the order.** -/
theorem Inv.step (h : Inv F authority s) (env : Env F M) {a : Action F M}
    (horder : InOrder authority s a) : Inv F authority (step env authority s a) := by
  cases a with
  | store op => exact h.store env op
  | stop => exact ⟨h.sequenced, h.tables, h.sorted, h.row, h.ahead, h.raised, nofun⟩
  | recoveryWindow nowNs =>
    rw [ApprovalDelivery.step]
    cases hnow : trustedUtcNow s.db nowNs with
    | error => exact h
    | ok result =>
      -- only the clock changes
      obtain ⟨now, db⟩ := result
      obtain rfl := trustedUtcNow_eq_ok hnow
      exact ⟨h.sequenced, h.tables, h.sorted, h.row, h.ahead, h.raised, h.live⟩
  | publish k publishNs reconcileNs fault =>
    rw [ApprovalDelivery.step, State.publish]
    cases hd : s.db.delivery? k with
    | none => exact h
    | some d =>
      dsimp only
      cases hx : decisionOf authority d with
      | none => exact h
      | some x =>
        dsimp only
        split
        · exact h
        have happend := h.append env (Db.mem_of_delivery? hd).1 hx publishNs fault fun hfault ↦
          horder hfault d hd
        split
        next s' heq =>
          rw [heq] at happend
          exact happend
        next s' heq =>
          rw [heq] at happend
          split
          · exact happend
          · exact happend.transact env (.reconcileDuplicate reconcileNs (keyOf d) d.approved)

/-- A transaction that commits has opened, and has published its row. -/
theorem published_of_appendTransaction {db db' : Db} {nowNs : Int} (hd : d ∈ db.outbox.rows)
    (h : appendTransaction db nowNs (keyOf d) d.approved true = .ok db') :
    openAppend db (keyOf d) = .ok d ∧
      ∃ d' ∈ db'.outbox.rows, d'.approvalId = d.approvalId ∧ d'.state = .published := by
  have hfind := delivery?_keyOf hd
  simp only [appendTransaction, auditedDelivery, Db.requireDelivery, hfind, requireSome,
    ApprovalStore.publish, bind_eq_ok_iff, require_eq_ok_iff, Prod.exists] at h
  obtain ⟨d', ⟨_, hkey, d'', hsome, _, happroved, _, hready, hret⟩, _, hpending, _, hunfenced, -, -,
    now, db₁, hnow, hput⟩ := h
  cases hret
  cases hsome
  refine ⟨?_, ?_⟩
  · simp only [openAppend, auditedDelivery, Db.requireDelivery, hfind, requireSome, bind_eq_ok_iff,
      require_eq_ok_iff]
    exact ⟨d, rfl, d, ⟨(), hkey, d, rfl, (), happroved, (), hready, rfl⟩, (), hpending, (),
      hunfenced, rfl⟩
  · obtain rfl := trustedUtcNow_eq_ok hnow
    obtain ⟨outbox, hrow, rfl⟩ := Db.putDelivery_eq_ok hput
    have hmem : ∀ d' : Delivery, outbox.toTable = db.outbox.toTable.put d' →
        d'.approvalId = d.approvalId → d' ∈ outbox.toTable.rows := by
      intro d' htable hid
      rw [htable]
      exact Table.mem_put.2 (.inr ⟨rfl, d, hd, hid.symm⟩)
    exact ⟨_, hmem _ (Indexed.toTable_of_put? hrow) rfl, rfl, rfl⟩

/-- **The row that comes next is delivered** by an attempt in which nothing fails. -/
theorem Inv.publish (h : Inv F authority s) {db' : Db} {publishNs reconcileNs : Int}
    (hopen : s.closed = false) (hd : d ∈ s.db.outbox.rows) (hx : decisionOf authority d = some x)
    (hencode : encodeDecision F x = .ok (bodyOf F x))
    (hcommit : appendTransaction s.db publishNs (keyOf d) d.approved true = .ok db') :
    ∃ s', s.publish F authority (keyOf d) publishNs reconcileNs none = (true, s') ∧
      s'.db = db' := by
  obtain ⟨hrow, -⟩ := published_of_appendTransaction hd hcommit
  have hcheck := h.checkSend hd (openAppend_eq_ok hrow).2 hx
  have hprepare : prepareSend F authority s.tables x =
      .ok ⟨x, bodyOf F x, decide (x ∉ s.sent)⟩ := by
    rw [prepareSend, if_neg (not_not.2 (decisionOf_eq_some hx).1), hencode]
    simp [bind, Except.bind, hcheck]
  have hcommit' : ∀ s₁ : State, s₁.db = s.db →
      s₁.transact (appendTransaction s₁.db publishNs (keyOf d) d.approved true) =
        (true, { s₁ with db := db' }) := by
    intro s₁ hdb
    rw [hdb, hcommit]
    rfl
  rw [State.publish, delivery?_keyOf hd]
  simp only [hx, h.live hopen, State.append, toOption_eq_some_iff.2 hrow, State.send, hopen,
    hprepare, reduceCtorEq, decide_false, Bool.false_eq_true, Bool.true_eq_false, or_self, if_false]
  by_cases hsent : x ∈ s.sent
  · simp [hsent, hcommit']
  · simp [hsent, hcommit']

end Invariant

/-! ## Whole passes -/

/-- What a caller does is a sequence of actions. -/
def IsRun (env : Env F M) (authority : Authority) (s s' : State) : Prop :=
  ∃ actions, s' = runs (step env authority) s actions

section Callers

variable {env : Env F M} {authority : Authority}

theorem IsRun.refl (s : State) : IsRun env authority s s := ⟨[], rfl⟩

theorem IsRun.trans {s s' s'' : State} (h : IsRun env authority s s')
    (h' : IsRun env authority s' s'') : IsRun env authority s s'' := by
  obtain ⟨actions, rfl⟩ := h
  obtain ⟨actions', rfl⟩ := h'
  exact ⟨actions ++ actions', by simp⟩

theorem IsRun.step (s : State) (a : Action F M) : IsRun env authority s (step env authority s a) :=
  ⟨[a], rfl⟩

theorem IsRun.ensureAudited {s s' : State} {k : DeliveryKey} {nowNs : Int}
    (h : s.ensureAudited env k nowNs = some s') : IsRun env authority s s' := by
  rw [State.ensureAudited] at h
  split at h
  · cases h
  · cases h
    exact .refl s
  next ticket _ =>
    obtain ⟨db, hdb, rfl⟩ := Option.map_eq_some_iff.1 h
    have hop : s.db.step env (.auditCommit nowNs ticket) = db :=
      Db.step_of_ok (toOption_eq_some_iff.1 hdb)
    exact ⟨[.store (.auditCommit nowNs ticket)], by rw [← hop]; rfl⟩

theorem IsRun.deliverOutbox {run : Run} (s : State) (d : Delivery) (request : ApprovalRequest)
    (a : Attempt) : IsRun env run.authority s (s.deliverOutbox env run d request a).2 := by
  rw [State.deliverOutbox]
  split
  · exact .refl s
  split
  · exact .refl s
  split
  · exact .refl s
  next s₁ haudit =>
    have hrun : IsRun env run.authority s s₁ := .ensureAudited haudit
    split
    · exact hrun
    split
    · exact hrun
    have hpublish : IsRun env run.authority s
        (s₁.publish F run.authority (keyOf d) a.publishNs a.reconcileNs a.fault).2 :=
      hrun.trans (.step s₁ (.publish (keyOf d) a.publishNs a.reconcileNs a.fault))
    split
    next s₂ heq =>
      rw [heq] at hpublish
      exact hpublish
    next s₂ heq =>
      rw [heq] at hpublish
      exact hpublish.trans (.step s₂ (.store (.recordFailure a.failureNs (keyOf d) deliveryError)))

theorem IsRun.drainRow {run : Run} (s : State) (d : Delivery) (a : Attempt) :
    IsRun env run.authority s (s.drainRow env run d a) := by
  rw [State.drainRow]
  split
  · split
    · exact .refl s
    · exact ⟨_, rfl⟩
  next request _ =>
    have hdeliver : IsRun env run.authority s (s.deliverOutbox env run d request a).2 :=
      .deliverOutbox s d request a
    split
    next s₁ heq =>
      rw [heq] at hdeliver
      exact hdeliver
    next s₁ heq =>
      rw [heq] at hdeliver
      split
      · exact hdeliver
      split
      · exact hdeliver
      · exact hdeliver.trans (.step s₁ _)

/-- A pass of the drainer is a run of actions, and so are passes that follow one another. -/
theorem IsRun.drainOnce {run : Run} (s : State) (nowNs : Int) (attempt : Delivery → Attempt) :
    IsRun env run.authority s (s.drainOnce env run nowNs attempt) := by
  rw [State.drainOnce]
  split
  · exact .refl s
  refine .trans (.step s (.recoveryWindow nowNs)) ?_
  generalize ApprovalDelivery.step env run.authority s _ = s₁
  generalize List.takeWhile _ _ = rows
  induction rows generalizing s₁ with
  | nil => exact .refl s₁
  | cons d rows ih => exact (IsRun.drainRow s₁ d _).trans (ih _)

end Callers

/-- **A delivery that failed can still be made**, in every run in which the attempts that reach the
socket come in order: `send` is never called with a new sequence number at or below one that was
sent, no attempt aborts the channel for it, and a row that is still pending is delivered by an
attempt whose transaction commits. -/
theorem failed_delivery_stays_deliverable (env : Env F M) (authority : Authority)
    (actions : List (Action F M))
    (horder : Meets (step env authority) (InOrder authority) State.start actions) :
    let s := runs (step env authority) State.start actions
    (∀ e ∈ s.raised, ¬ isConflict e) ∧
      (s.sent.Pairwise fun x y ↦ x.deliverySequence < y.deliverySequence) ∧
      ∀ d ∈ s.db.outbox.rows, ∀ x, decisionOf authority d = some x →
        encodeDecision F x = .ok (bodyOf F x) → s.closed = false →
        ∀ publishNs reconcileNs db',
          appendTransaction s.db publishNs (keyOf d) d.approved true = .ok db' →
          (∃ s', s.publish F authority (keyOf d) publishNs reconcileNs none = (true, s') ∧
            s'.db = db') ∧
          ∃ d' ∈ db'.outbox.rows, d'.approvalId = d.approvalId ∧ d'.state = .published := by
  have h : Inv F authority (runs (step env authority) State.start actions) :=
    runs_of_meets (fun _ _ horder h ↦ h.step env horder) horder .start
  refine ⟨h.raised, h.sorted, fun d hd x hx hencode hopen publishNs reconcileNs db' hcommit ↦ ?_⟩
  exact ⟨h.publish hopen hd hx hencode hcommit, (published_of_appendTransaction hd hcommit).2⟩

/-- A run that is live. -/
def liveRun : Authority where
  launchNonce := .lit "0123456789abcdef0123456789abcdef"
  taskId := .lit "task"
  controlRunId := .lit "run"
  sessionId := .lit "job"
  channelId := .lit "0123456789abcdef0123456789abcdef0123456789abcdef0123456789abcdef"
  valid := by decide +kernel

/-- Its owner started it from the web. -/
def liveOwner : Run := ⟨liveRun, .lit "user", some (.lit "web")⟩

def approvingVote (approvalId : String) : ApprovalVote :=
  ⟨.lit ("vote-" ++ approvalId), .lit approvalId, .lit "user", none, .approved, none, 1⟩

/-- A vote decides a request of the run, and writes its row. -/
def vote (approvalId toolCallId : String) : List (Action NumToken Unit) :=
  [.store (.create (sampleRequest (.lit approvalId) (.lit toolCallId))),
    .store (.transitionState 1 (.lit approvalId) (sampleTransition .pendingUser)),
    .store (.recordVote 5 (.lit approvalId) (approvingVote approvalId)
      (some ⟨liveRun.taskId, liveRun.controlRunId, liveRun.sessionId, liveRun.channelId,
        .lit toolCallId, .lit "n"⟩))]

/-- The row is audited, and its first attempt fails before the socket. -/
def failedAttempt : List (Action NumToken Unit) :=
  let k : DeliveryKey := ⟨.lit "A", .lit "a", .lit "n"⟩
  let v := some (approvingVote "A")
  vote "A" "a" ++ [.store (.auditCommit 6
      ⟨k, voteEntryId sampleEnv.toHost k v,
        terminalEntryId sampleEnv.toHost k v .approved (epochNs 1)⟩),
    .publish k 6 6 (some .beforeSend)]

/-- The next attempt delivers it. -/
theorem failed_delivery_stays_deliverable_sample :
    let s := runs (step sampleEnv liveRun) State.start failedAttempt
    ∃ d ∈ s.db.outbox.rows, d.state = .pending ∧
      ∃ s', s.publish NumToken liveRun (keyOf d) 7 7 none = (true, s') := by
  have horder : Meets (step sampleEnv liveRun) (InOrder liveRun) State.start failedAttempt :=
    ⟨trivial, trivial, trivial, trivial, fun h ↦ absurd rfl h, trivial⟩
  have hall := failed_delivery_stays_deliverable sampleEnv liveRun failedAttempt horder
  have hopen : (runs (step sampleEnv liveRun) State.start failedAttempt).closed = false := by
    decide +kernel
  have hrow : let s := runs (step sampleEnv liveRun) State.start failedAttempt
      s.db.outbox.rows.head?.any (fun d ↦ decide (d.state = .pending) &&
        (decisionOf liveRun d).any (fun x ↦ (encodeDecision NumToken x).toOption.isSome) &&
        (appendTransaction s.db 7 (keyOf d) d.approved true).toOption.isSome) = true := by
    decide +kernel
  generalize runs (step sampleEnv liveRun) State.start failedAttempt = s at hall hopen hrow ⊢
  obtain ⟨d, hd, hrow⟩ := (Option.any_eq_true _ _).1 hrow
  rw [Bool.and_eq_true, Bool.and_eq_true, decide_eq_true_eq] at hrow
  obtain ⟨⟨hpending, hx⟩, hcommit⟩ := hrow
  obtain ⟨x, hx, hencode⟩ := (Option.any_eq_true _ _).1 hx
  obtain ⟨body, hencode⟩ := Option.isSome_iff_exists.1 hencode
  obtain ⟨db', hcommit⟩ := Option.isSome_iff_exists.1 hcommit
  rw [toOption_eq_some_iff] at hencode hcommit
  rw [eq_bodyOf hencode] at hencode
  have hmem := mem_of_head? hd
  obtain ⟨⟨s', hs', -⟩, -⟩ := hall.2.2 d hmem x hx hencode hopen 7 7 db' hcommit
  exact ⟨d, hmem, hpending, s', hs'⟩

/-- An attempt in which nothing fails. -/
def smoothAttempt : Attempt := ⟨6, 6, 6, 6, none, true, false⟩

/-- The attempt for one approval fails before the socket. -/
def firstRowFails (d : Delivery) : Attempt :=
  { smoothAttempt with fault := if d.approvalId = .lit "A" then some .beforeSend else none }

/-- **A row that failed before the socket aborts the channel on the next pass.**  Two rows of a run
are pending; in the first pass the attempt for the first of them fails before the socket, and the
pass goes on to the second; in the next pass, in which nothing fails, the first is stale. -/
theorem stale_after_later_row :
    let s := runs (step sampleEnv liveRun) State.start (vote "A" "a" ++ vote "B" "b")
    let s₁ := s.drainOnce sampleEnv liveOwner 6 firstRowFails
    let s₂ := s₁.drainOnce sampleEnv liveOwner 6 fun _ ↦ smoothAttempt
    s₁.db.outbox.rows.map (fun d ↦ (d.approvalId, d.deliverySequence, d.state)) =
        [(.lit "A", 1, .pending), (.lit "B", 2, .published)] ∧
      s₁.closed = false ∧ s₂.closed = true ∧
      s₂.raised = some (.protocol "autonomous approval delivery is stale or conflicting") := by
  decide +kernel

end AgentGateway.ApprovalDelivery
