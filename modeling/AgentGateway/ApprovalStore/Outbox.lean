import AgentGateway.ApprovalStore.Tables

/-!
# The delivery outbox

A decision of an autonomous run that has to reach its child is written into the outbox by the
transaction that makes it, audited, published, and acknowledged; each of these is a transaction of
its own with its own compare-and-set.  The clock the store writes down never goes back: a reading
below the last one raises, and with it the transaction is rolled back.

* `insertDelivery_eq_ok` and `OutboxUpdate` say what the transactions do to the outbox: the first
  appends a row under the next sequence number, and every other one moves at most one row, as
  `DeliveryMove` allows.
-/

namespace AgentGateway.ApprovalStore

open Py

/-! ## The clock -/

/-- `_datetime_from_epoch_ns` -/
def microseconds (ns : Int) : Int := ns / 1000

/-- `_datetime_to_epoch_ns` -/
def epochNs (us : Int) : Int := us * 1000

def trustedUtcNow (db : Db) (nowNs : Int) : Except StoreError (Int × Db) := do
  require (∀ prior ∈ db.clockHighWater, prior ≤ nowNs)
    (.runtime (.lit "approval clock rollback detected"))
  positiveInteger nowNs
  .ok (microseconds nowNs, { db with clockHighWater := some nowNs })

variable {db db' : Db}

theorem trustedUtcNow_eq_ok {nowNs now : Int} (h : trustedUtcNow db nowNs = .ok (now, db')) :
    db' = { db with clockHighWater := some nowNs } := by
  simp only [trustedUtcNow, bind_eq_ok_iff] at h
  obtain ⟨-, -, -, -, h⟩ := h
  cases h
  rfl

/-! ## Contexts -/

/-- `_canonical_delivery_text` lets the text through. -/
def isCanonicalDeliveryText (s : Str) : Bool :=
  s != [] && s == s.strip && decide (s.length ≤ 512) && !s.contains (.scalar '\x00')

def canonicalDeliveryText (fieldName : String) (s : Str) : Except StoreError Unit :=
  require (isCanonicalDeliveryText s)
    (.value (.lit ("autonomous approval delivery " ++ fieldName ++ " is invalid")))

/-- `_normalize_autonomous_approval_delivery_context` -/
def normalizeContext (c : DeliveryContext) : Except StoreError Unit := do
  canonicalDeliveryText "task_id" c.taskId
  canonicalDeliveryText "control_run_id" c.controlRunId
  canonicalDeliveryText "session_id" c.sessionId
  canonicalDeliveryText "channel_id" c.channelId
  canonicalDeliveryText "tool_call_id" c.toolCallId
  canonicalDeliveryText "nonce" c.nonce
  require (c.channelId.length = 64 ∧
      c.channelId.all fun p ↦ (Str.lit "0123456789abcdef").contains p)
    (.value (.lit "autonomous approval delivery channel_id is invalid"))

/-- The context of a decision that may have one. -/
def normalizeDelivery : Option DeliveryContext → Except StoreError Unit
  | none => .ok ()
  | some context => normalizeContext context

/-- The key under which an operation looks for a delivery. -/
structure DeliveryKey where
  approvalId : Str
  toolCallId : Str
  nonce : Str
deriving DecidableEq

def DeliveryKey.normalize (k : DeliveryKey) : Except StoreError Unit := do
  canonicalDeliveryText "approval_id" k.approvalId
  canonicalDeliveryText "tool_call_id" k.toolCallId
  canonicalDeliveryText "nonce" k.nonce

/-- `SELECT … WHERE approval_id = ? AND tool_call_id = ? AND nonce = ?` -/
def Db.delivery? (db : Db) (k : DeliveryKey) : Option Delivery :=
  (db.outbox.find? k.approvalId).filter fun d ↦
    d.context.toolCallId == k.toolCallId && d.context.nonce == k.nonce

theorem Db.mem_of_delivery? {k : DeliveryKey} {d : Delivery}
    (h : db.delivery? k = some d) : d ∈ db.outbox.rows ∧ d.approvalId = k.approvalId := by
  rw [Db.delivery?, Option.filter_eq_some_iff] at h
  exact Table.find?_eq_some_iff.1 h.1

/-- The delivery an operation looks for, which raises if there is none. -/
def Db.requireDelivery (db : Db) (k : DeliveryKey) : Except StoreError Delivery :=
  requireSome (db.delivery? k)
    (.key (.lit "autonomous approval delivery outbox record not found"))

/-- `_autonomous_publication_reserved` -/
def Db.publicationReserved (db : Db) (approvalId : Str) (toolCallId nonce : Option Str) : Bool :=
  db.reservations.any fun r ↦ r.decisionId == approvalId &&
    toolCallId.all (r.toolCallId == ·) && nonce.all (r.nonce == ·)

/-- `_require_unreserved_autonomous_publication` -/
def requireUnreserved (db : Db) (approvalId : Str) (toolCallId nonce : Option Str) :
    Except StoreError Unit :=
  require (db.publicationReserved approvalId toolCallId nonce = false) .reservationActive

/-- An `UPDATE` of one delivery. -/
def Db.putDelivery (db : Db) (d : Delivery) : Except StoreError Db := do
  let outbox ← requireSome (db.outbox.put? d) .integrity
  .ok { db with outbox }

theorem Db.putDelivery_eq_ok {d : Delivery} (h : db.putDelivery d = .ok db') :
    ∃ outbox, db.outbox.put? d = some outbox ∧ db' = { db with outbox } := by
  simp only [Db.putDelivery, bind_eq_ok_iff, requireSome_eq_ok_iff] at h
  obtain ⟨outbox, hput, h⟩ := h
  cases h
  exact ⟨outbox, hput, rfl⟩

/-! ## Insertion -/

/-- `_autonomous_approval_audit_entry_id` -/
def auditEntryId (H : Host) (eventType : Str) (k : DeliveryKey) (sourceId : Str) (eventAtNs : Int) :
    Str :=
  Str.lit "autonomous-approval-delivery-v1:" ++ H.sha256 (List.intercalate [.scalar '\x00']
    [Str.lit "autonomous-approval-delivery-audit-v1", eventType, k.approvalId, k.toolCallId,
      k.nonce, sourceId, Str.lit (toString eventAtNs)])

/-- The entry of the triggering vote. -/
def voteEntryId (H : Host) (k : DeliveryKey) (vote : Option ApprovalVote) : Option Str :=
  vote.map fun v ↦ auditEntryId H (.lit "vote_recorded") k v.voteId (epochNs v.decidedAt)

/-- The entry of the decision. -/
def terminalEntryId (H : Host) (k : DeliveryKey) (vote : Option ApprovalVote)
    (decided : ApprovalState) (decidedAtNs : Int) : Str :=
  auditEntryId H decided.text k ((vote.map (·.voteId)).getD (.lit "cancellation")) decidedAtNs

/-- The next value of `autonomous_approval_delivery_sequence`. -/
def takeSequence (db : Db) : Except StoreError (Nat × Db) :=
  match db.nextSequence with
  | none => .ok (1, { db with nextSequence := some 2 })
  | some n => do
    require (1 ≤ n ∧ n < sqliteMaxInteger)
      (.runtime (.lit "autonomous approval delivery sequence is invalid"))
    .ok (n, { db with nextSequence := some (n + 1) })

def decidedState (approved : Bool) : ApprovalState := if approved then .approved else .denied

/-- The checks at the head of `_insert_autonomous_approval_delivery_in_transaction`: when was the
request decided? -/
def deliveryDecidedAt (request : ApprovalRequest) (context : DeliveryContext) (approved : Bool)
    (vote : Option ApprovalVote) : Except StoreError Int := do
  require (request.state = decidedState approved)
    (.value (.lit "autonomous approval delivery disagrees with durable state"))
  require (request.toolCallId = context.toolCallId)
    (.value (.lit "autonomous approval delivery tool-call identity changed"))
  require (request.requestId = context.controlRunId ∧ request.runId = some context.controlRunId ∧
      request.sessionId = some context.sessionId)
    (.value (.lit "autonomous approval delivery run identity changed"))
  let decidedAt ← requireSome request.decidedAt
    (.runtime (.lit "terminal autonomous approval is missing decided_at"))
  require (∀ v ∈ vote, v.approvalId = request.approvalId ∧
      v.decision.state = decidedState approved ∧ v.decidedAt = decidedAt)
    (.value (.lit "autonomous approval delivery vote identity changed"))
  .ok decidedAt

/-- The row that is inserted. -/
def newDelivery (H : Host) (sequence : Nat) (request : ApprovalRequest) (context : DeliveryContext)
    (approved : Bool) (vote : Option ApprovalVote) (decidedAtNs now : Int) : Delivery where
  deliverySequence := sequence
  approvalId := request.approvalId
  context := context
  approved := approved
  decidedAtNs := decidedAtNs
  lastAttemptNs := none
  state := .pending
  auditState := .pending
  triggeringVoteId := vote.map (·.voteId)
  voteAuditEntryId := voteEntryId H ⟨request.approvalId, request.toolCallId, context.nonce⟩ vote
  terminalAuditEntryId := terminalEntryId H ⟨request.approvalId, request.toolCallId, context.nonce⟩
    vote (decidedState approved) decidedAtNs
  attemptCount := 0
  lastError := none
  createdAt := now
  updatedAt := now
  auditReadyAt := none
  publishedAt := none
  acknowledgedAt := none
  quarantinedAt := none

/-- `_insert_autonomous_approval_delivery_in_transaction`.  What it reads back at the end is the row
it has just inserted. -/
def insertDelivery (H : Host) (db : Db) (nowNs : Int) (request : ApprovalRequest)
    (context : DeliveryContext) (approved : Bool) (vote : Option ApprovalVote) :
    Except StoreError Db := do
  let decidedAt ← deliveryDecidedAt request context approved vote
  let (now, db) ← trustedUtcNow db nowNs
  let (sequence, db) ← takeSequence db
  positiveInteger (epochNs decidedAt)
  let outbox ← requireSome (db.outbox.insert?
    (newDelivery H sequence request context approved vote (epochNs decidedAt) now)) .integrity
  .ok { db with outbox }

theorem takeSequence_eq_ok {n : Nat} (h : takeSequence db = .ok (n, db')) :
    (db.nextSequence = none ∧ n = 1 ∨ db.nextSequence = some n) ∧
      db' = { db with nextSequence := some (n + 1) } := by
  rw [takeSequence] at h
  split at h
  next hnone =>
    cases h
    exact ⟨.inl ⟨hnone, rfl⟩, rfl⟩
  next m hsome =>
    simp only [bind_eq_ok_iff] at h
    obtain ⟨-, -, h⟩ := h
    cases h
    exact ⟨.inr hsome, rfl⟩

/-- **What the insertion of a delivery does**: a row for the request is appended, under the next
sequence number, with the decision of the request. -/
theorem insertDelivery_eq_ok {H : Host} {nowNs : Int} {request : ApprovalRequest}
    {context : DeliveryContext} {approved : Bool} {vote : Option ApprovalVote}
    (h : insertDelivery H db nowNs request context approved vote = .ok db') :
    request.state = decidedState approved ∧ ∃ n decidedAt outbox,
      (db.nextSequence = none ∧ n = 1 ∨ db.nextSequence = some n) ∧
      db.outbox.insert? (newDelivery H n request context approved vote (epochNs decidedAt)
        (microseconds nowNs)) = some outbox ∧
      db' = { db with clockHighWater := some nowNs, nextSequence := some (n + 1), outbox } := by
  simp only [insertDelivery, bind_eq_ok_iff, Prod.exists, requireSome_eq_ok_iff] at h
  obtain ⟨decidedAt, hdecided, now, db₁, hnow, n, db₂, hseq, -, -, outbox, hins, h⟩ := h
  have hstate : request.state = decidedState approved := by
    simp only [deliveryDecidedAt, bind_eq_ok_iff, require_eq_ok_iff] at hdecided
    obtain ⟨-, hstate, -⟩ := hdecided
    exact hstate
  have hmicro : now = microseconds nowNs := by
    simp only [trustedUtcNow, bind_eq_ok_iff] at hnow
    obtain ⟨-, -, -, -, hnow⟩ := hnow
    cases hnow
    rfl
  obtain rfl := trustedUtcNow_eq_ok hnow
  obtain ⟨hn, rfl⟩ := takeSequence_eq_ok hseq
  cases h
  exact ⟨hstate, n, decidedAt, outbox, hn, hmicro ▸ hins, rfl⟩

/-! ## Auditing -/

/-- What `ensure_autonomous_approval_delivery_audited` carries from its read to its compare-and-set,
over the calls of the audit emitter in between. -/
structure AuditTicket where
  key : DeliveryKey
  voteEntryId : Option Str
  terminalEntryId : Str
deriving DecidableEq

/-- The vote a delivery names. -/
def triggeringVote (db : Db) (d : Delivery) : Except StoreError (Option ApprovalVote) :=
  match d.triggeringVoteId with
  | none => .ok none
  | some voteId => do
    let v ← requireSome (db.votes.find? voteId)
      (.runtime (.lit "autonomous approval delivery triggering vote is missing"))
    require (v.approvalId = d.approvalId ∧ v.decision.state = decidedState d.approved ∧
        epochNs v.decidedAt = d.decidedAtNs)
      (.runtime (.lit "autonomous approval delivery vote identity mismatch"))
    .ok (some v)

/-- Is the request the one the delivery was written for? -/
def deliveryMatches (d : Delivery) (request : ApprovalRequest) : Prop :=
  request.state = decidedState d.approved ∧
    request.decision = some (decidedState d.approved).text ∧
    request.toolCallId = d.context.toolCallId ∧ request.requestId = d.context.controlRunId ∧
    request.runId = some d.context.controlRunId ∧ request.sessionId = some d.context.sessionId ∧
    request.decidedAt.map epochNs = some d.decidedAtNs

instance (d : Delivery) (request : ApprovalRequest) : Decidable (deliveryMatches d request) :=
  inferInstanceAs (Decidable (_ ∧ _))

/-- The checks of an audit on a delivery that is not audited yet. -/
def auditTicket (H : Host) (db : Db) (k : DeliveryKey) (d : Delivery) :
    Except StoreError AuditTicket := do
  require (d.state = .pending)
    (.runtime (.lit "unaudited autonomous approval delivery is not pending"))
  let request ← requireSome (db.requests.find? k.approvalId)
    (.runtime (.lit "autonomous approval delivery request is missing"))
  require (deliveryMatches d request)
    (.runtime (.lit "autonomous approval delivery durable identity mismatch"))
  let vote ← triggeringVote db d
  let ticket : AuditTicket :=
    ⟨k, voteEntryId H k vote, terminalEntryId H k vote (decidedState d.approved) d.decidedAtNs⟩
  require (d.voteAuditEntryId = ticket.voteEntryId ∧
    d.terminalAuditEntryId = ticket.terminalEntryId)
    (.runtime (.lit "autonomous approval delivery audit receipt mismatch"))
  .ok ticket

/-- The first transaction of `ensure_autonomous_approval_delivery_audited`; nothing is left to do if
the delivery has been audited. -/
def auditRead (H : Host) (db : Db) (k : DeliveryKey) : Except StoreError (Option AuditTicket) := do
  k.normalize
  let d ← db.requireDelivery k
  if d.auditState = .ready then .ok none else (auditTicket H db k d).map some

/-- The second transaction of `ensure_autonomous_approval_delivery_audited`. -/
def auditCommit (db : Db) (nowNs : Int) (t : AuditTicket) : Except StoreError Db := do
  let (now, db) ← trustedUtcNow db nowNs
  let d ← requireSome (db.delivery? t.key)
    (.runtime (.lit "autonomous approval delivery outbox disappeared"))
  if d.auditState = .ready then .ok db
  else do
    require (d.state = .pending ∧ d.terminalAuditEntryId = t.terminalEntryId ∧
        d.voteAuditEntryId = t.voteEntryId)
      (.runtime (.lit "autonomous approval delivery audit receipt compare-and-set failed"))
    db.putDelivery { d with auditState := .ready, auditReadyAt := some now, updatedAt := now }

/-! ## Publication -/

/-- The delivery, if it is audited and says what the caller takes it to say. -/
def auditedDelivery (db : Db) (k : DeliveryKey) (approved : Bool) : Except StoreError Delivery := do
  k.normalize
  let d ← db.requireDelivery k
  require (d.approved = approved) (.value (.lit "autonomous approval delivery decision changed"))
  require (d.auditState = .ready)
    (.runtime (.lit "autonomous approval delivery audit receipt is not ready"))
  .ok d

/-- An approval is not published once its cancellation is fenced. -/
def requireUnfenced (db : Db) (approvalId : Str) (approved : Bool) : Except StoreError Unit :=
  require (approved = true → approvalId ∉ db.fences)
    (.cancellationFenced (.lit "approved autonomous delivery is fenced for cancellation"))

/-- The `UPDATE` that publishes. -/
def publish (db : Db) (nowNs : Int) (d : Delivery) : Except StoreError Db := do
  let (now, db) ← trustedUtcNow db nowNs
  db.putDelivery
    { d with
      state := .published
      attemptCount := d.attemptCount + 1
      lastError := none
      updatedAt := now
      publishedAt := some now }

/-- `autonomous_approval_delivery_append_transaction` around a body that returns or raises. -/
def appendTransaction (db : Db) (nowNs : Int) (k : DeliveryKey) (approved bodyReturns : Bool) :
    Except StoreError Db := do
  let d ← auditedDelivery db k approved
  require (d.state = .pending) (.runtime (.lit "autonomous approval delivery is not pending"))
  requireUnfenced db k.approvalId approved
  require bodyReturns .body
  publish db nowNs d

/-- `reconcile_autonomous_approval_delivery_duplicate` -/
def reconcileDuplicate (db : Db) (nowNs : Int) (k : DeliveryKey) (approved : Bool) :
    Except StoreError Db := do
  let d ← auditedDelivery db k approved
  if d.state = .published ∨ d.state = .acknowledged then .ok db
  else do
    require (d.state = .pending)
      (.runtime (.lit "autonomous approval delivery cannot be reconciled"))
    requireUnfenced db k.approvalId approved
    publish db nowNs d

/-- `acknowledge_autonomous_approval_delivery` -/
def acknowledge (db : Db) (nowNs : Int) (approvalId : Str) (context : DeliveryContext)
    (approved : Bool) (decidedAtNs : Int) : Except StoreError Db := do
  canonicalDeliveryText "approval_id" approvalId
  normalizeContext context
  require (1 ≤ decidedAtNs)
    (.value (.lit "autonomous approval acknowledgment decided_at_ns is invalid"))
  requireUnreserved db approvalId (some context.toolCallId) (some context.nonce)
  let (now, db) ← trustedUtcNow db nowNs
  let d ← db.requireDelivery ⟨approvalId, context.toolCallId, context.nonce⟩
  require (d.context = context ∧ d.approved = approved ∧ d.decidedAtNs = decidedAtNs)
    (.value (.lit "autonomous approval acknowledgment authority mismatch"))
  require (d.auditState = .ready)
    (.runtime (.lit "autonomous approval acknowledgment audit is not ready"))
  if d.state = .acknowledged then .ok db
  else do
    require (d.state = .published)
      (.runtime (.lit "autonomous approval delivery was not published"))
    db.putDelivery
      { d with
        state := .acknowledged
        lastError := none
        updatedAt := now
        acknowledgedAt := some now }

/-! ## Failures -/

/-- The delivery a failure is about, and the checks before it is written. -/
def failedDelivery (db : Db) (k : DeliveryKey) (error : Str) : Except StoreError Delivery := do
  k.normalize
  canonicalDeliveryText "last_error" error
  requireUnreserved db k.approvalId (some k.toolCallId) (some k.nonce)
  db.requireDelivery k

/-- `record_autonomous_approval_delivery_failure` -/
def recordFailure (db : Db) (nowNs : Int) (k : DeliveryKey) (error : Str) :
    Except StoreError Db := do
  let d ← failedDelivery db k error
  if d.state = .acknowledged ∨ d.state = .quarantined then .ok db
  else do
    let (now, db) ← trustedUtcNow db nowNs
    db.putDelivery
      { d with
        attemptCount := d.attemptCount + 1
        lastError := some error
        updatedAt := now
        lastAttemptNs := some nowNs }

/-- `quarantine_autonomous_approval_delivery` -/
def quarantine (db : Db) (nowNs : Int) (k : DeliveryKey) (error : Str) : Except StoreError Db := do
  let d ← failedDelivery db k error
  if d.state = .quarantined then .ok db
  else do
    require (d.state = .pending)
      (.runtime (.lit "only pending autonomous approval delivery can be quarantined"))
    let (now, db) ← trustedUtcNow db nowNs
    db.putDelivery
      { d with
        state := .quarantined
        attemptCount := d.attemptCount + 1
        lastError := some error
        updatedAt := now
        lastAttemptNs := some nowNs
        quarantinedAt := some now }

/-! ## What the operations do to the outbox -/

/-- What an operation may do to a delivery, when these approvals are fenced. -/
inductive DeliveryMove (fences : List Str) (d : Delivery) : Delivery → Prop
  | audit (now : Int) (hs : d.state = .pending) :
    DeliveryMove fences d
      { d with auditState := .ready, auditReadyAt := some now, updatedAt := now }
  | publish (now : Int) (hs : d.state = .pending) (ha : d.auditState = .ready)
    (hf : d.approved = true → d.approvalId ∉ fences) :
    DeliveryMove fences d
      { d with
        state := .published
        attemptCount := d.attemptCount + 1
        lastError := none
        updatedAt := now
        publishedAt := some now }
  | acknowledge (now : Int) (hs : d.state = .published) :
    DeliveryMove fences d
      { d with
        state := .acknowledged
        lastError := none
        updatedAt := now
        acknowledgedAt := some now }
  | fail (now nowNs : Int) (error : Str) :
    DeliveryMove fences d
      { d with
        attemptCount := d.attemptCount + 1
        lastError := some error
        updatedAt := now
        lastAttemptNs := some nowNs }
  | quarantine (now nowNs : Int) (error : Str) (hs : d.state = .pending) :
    DeliveryMove fences d
      { d with
        state := .quarantined
        attemptCount := d.attemptCount + 1
        lastError := some error
        updatedAt := now
        lastAttemptNs := some nowNs
        quarantinedAt := some now }

theorem DeliveryMove.approvalId_eq {fences : List Str} {d d' : Delivery}
    (h : DeliveryMove fences d d') : d'.approvalId = d.approvalId := by
  cases h <;> rfl

/-- An operation read the clock, and moved at most one row of the outbox. -/
def OutboxUpdate (db db' : Db) : Prop :=
  ∃ clockHighWater outbox, db' = { db with clockHighWater, outbox } ∧
    (outbox = db.outbox ∨ ∃ d ∈ db.outbox.rows, ∃ d', DeliveryMove db.fences d d' ∧
      db.outbox.put? d' = some outbox)

theorem OutboxUpdate.refl (db : Db) : OutboxUpdate db db :=
  ⟨db.clockHighWater, db.outbox, rfl, .inl rfl⟩

theorem OutboxUpdate.of_trustedUtcNow {nowNs now : Int}
    (h : trustedUtcNow db nowNs = .ok (now, db')) : OutboxUpdate db db' := by
  obtain rfl := trustedUtcNow_eq_ok h
  exact ⟨some nowNs, db.outbox, rfl, .inl rfl⟩

/-- A reading of the clock, and then one row is moved. -/
theorem OutboxUpdate.of_putDelivery {db₁ : Db} {nowNs now : Int} {d d' : Delivery}
    (hnow : trustedUtcNow db nowNs = .ok (now, db₁)) (hd : d ∈ db.outbox.rows)
    (hmove : DeliveryMove db.fences d d') (hput : db₁.putDelivery d' = .ok db') :
    OutboxUpdate db db' := by
  obtain rfl := trustedUtcNow_eq_ok hnow
  obtain ⟨outbox, hrow, rfl⟩ := Db.putDelivery_eq_ok hput
  exact ⟨some nowNs, outbox, rfl, .inr ⟨d, hd, d', hmove, hrow⟩⟩

section Updates

variable {db db' : Db} {nowNs : Int} {k : DeliveryKey} {approved : Bool} {d : Delivery}

theorem auditCommit_update {t : AuditTicket} (h : auditCommit db nowNs t = .ok db') :
    OutboxUpdate db db' := by
  simp only [auditCommit, bind_eq_ok_iff, Prod.exists, requireSome_eq_ok_iff] at h
  obtain ⟨now, db₁, hnow, d, hd, h⟩ := h
  have hmem : d ∈ db.outbox.rows := by
    obtain rfl := trustedUtcNow_eq_ok hnow
    exact (Db.mem_of_delivery? hd).1
  by_cases hready : d.auditState = .ready
  · rw [if_pos hready] at h
    cases h
    exact .of_trustedUtcNow hnow
  · simp only [if_neg hready, bind_eq_ok_iff, require_eq_ok_iff] at h
    obtain ⟨-, hpending, hput⟩ := h
    exact .of_putDelivery hnow hmem (.audit now hpending.1) hput

theorem publish_update (hd : d ∈ db.outbox.rows) (hs : d.state = .pending)
    (ha : d.auditState = .ready) (hf : d.approved = true → d.approvalId ∉ db.fences)
    (h : publish db nowNs d = .ok db') : OutboxUpdate db db' := by
  simp only [publish, bind_eq_ok_iff, Prod.exists] at h
  obtain ⟨now, db₁, hnow, hput⟩ := h
  exact .of_putDelivery hnow hd (.publish now hs ha hf) hput

theorem auditedDelivery_eq_ok (h : auditedDelivery db k approved = .ok d) :
    d ∈ db.outbox.rows ∧ d.approvalId = k.approvalId ∧ d.approved = approved ∧
      d.auditState = .ready := by
  simp only [auditedDelivery, Db.requireDelivery, bind_eq_ok_iff, requireSome_eq_ok_iff,
    require_eq_ok_iff] at h
  obtain ⟨-, -, d', hd, -, happroved, -, hready, h⟩ := h
  cases h
  exact ⟨(Db.mem_of_delivery? hd).1, (Db.mem_of_delivery? hd).2, happroved, hready⟩

theorem appendTransaction_update {bodyReturns : Bool}
    (h : appendTransaction db nowNs k approved bodyReturns = .ok db') : OutboxUpdate db db' := by
  simp only [appendTransaction, requireUnfenced, bind_eq_ok_iff, require_eq_ok_iff] at h
  obtain ⟨d, hd, -, hpending, -, hunfenced, -, -, hpub⟩ := h
  obtain ⟨hmem, hid, happroved, hready⟩ := auditedDelivery_eq_ok hd
  exact publish_update hmem hpending hready (happroved ▸ hid ▸ hunfenced) hpub

theorem reconcileDuplicate_update (h : reconcileDuplicate db nowNs k approved = .ok db') :
    OutboxUpdate db db' := by
  simp only [reconcileDuplicate, bind_eq_ok_iff] at h
  obtain ⟨d, hd, h⟩ := h
  obtain ⟨hmem, hid, happroved, hready⟩ := auditedDelivery_eq_ok hd
  by_cases hdone : d.state = .published ∨ d.state = .acknowledged
  · rw [if_pos hdone] at h
    cases h
    exact .refl db
  · simp only [if_neg hdone, requireUnfenced, bind_eq_ok_iff, require_eq_ok_iff] at h
    obtain ⟨-, hpending, -, hunfenced, hpub⟩ := h
    exact publish_update hmem hpending hready (happroved ▸ hid ▸ hunfenced) hpub

theorem acknowledge_update {approvalId : Str} {context : DeliveryContext} {decidedAtNs : Int}
    (h : acknowledge db nowNs approvalId context approved decidedAtNs = .ok db') :
    OutboxUpdate db db' := by
  simp only [acknowledge, Db.requireDelivery, bind_eq_ok_iff, Prod.exists, requireSome_eq_ok_iff,
    require_eq_ok_iff] at h
  obtain ⟨-, -, -, -, -, -, -, -, now, db₁, hnow, d, hd, -, -, -, -, h⟩ := h
  have hmem : d ∈ db.outbox.rows := by
    obtain rfl := trustedUtcNow_eq_ok hnow
    exact (Db.mem_of_delivery? hd).1
  by_cases hdone : d.state = .acknowledged
  · rw [if_pos hdone] at h
    cases h
    exact .of_trustedUtcNow hnow
  · simp only [if_neg hdone, bind_eq_ok_iff, require_eq_ok_iff] at h
    obtain ⟨-, hpublished, hput⟩ := h
    exact .of_putDelivery hnow hmem (.acknowledge now hpublished) hput

theorem failedDelivery_eq_ok {error : Str} (h : failedDelivery db k error = .ok d) :
    d ∈ db.outbox.rows := by
  simp only [failedDelivery, Db.requireDelivery, bind_eq_ok_iff, requireSome_eq_ok_iff] at h
  obtain ⟨-, -, -, -, -, -, hd⟩ := h
  exact (Db.mem_of_delivery? hd).1

theorem recordFailure_update {error : Str} (h : recordFailure db nowNs k error = .ok db') :
    OutboxUpdate db db' := by
  simp only [recordFailure, bind_eq_ok_iff] at h
  obtain ⟨d, hd, h⟩ := h
  by_cases hdone : d.state = .acknowledged ∨ d.state = .quarantined
  · rw [if_pos hdone] at h
    cases h
    exact .refl db
  · simp only [if_neg hdone, bind_eq_ok_iff, Prod.exists] at h
    obtain ⟨now, db₁, hnow, hput⟩ := h
    exact .of_putDelivery hnow (failedDelivery_eq_ok hd) (.fail now nowNs error) hput

theorem quarantine_update {error : Str} (h : quarantine db nowNs k error = .ok db') :
    OutboxUpdate db db' := by
  simp only [quarantine, bind_eq_ok_iff] at h
  obtain ⟨d, hd, h⟩ := h
  by_cases hdone : d.state = .quarantined
  · rw [if_pos hdone] at h
    cases h
    exact .refl db
  · simp only [if_neg hdone, bind_eq_ok_iff, require_eq_ok_iff, Prod.exists] at h
    obtain ⟨-, hpending, now, db₁, hnow, hput⟩ := h
    exact .of_putDelivery hnow (failedDelivery_eq_ok hd) (.quarantine now nowNs error hpending) hput

end Updates

end AgentGateway.ApprovalStore
