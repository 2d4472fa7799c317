import AgentGateway.Py.Runs
import AgentGateway.Py.Sqlite
import AgentGateway.UsageOutbox.Payload

/-!
# The usage outbox

Producers enqueue batches of usage events, and shippers lease them, send them on and mark what came
of it.  A row is `pending` until it is first leased, `sending` while a shipper holds its lease, and
`retryable` after an attempt that failed or whose lease ran out; `accepted` and `dead` are the ends.

Every call is one transaction.  The table has constraints that tie the columns of a row to its state
(`Row.check`), and triggers that abort an `UPDATE` of what was enqueued or of a row that has ended
(`Row.allow`): an `Outbox` cannot hold a row that breaks the first, and no operation gets around the
second, whatever its statement says.
-/

namespace AgentGateway.UsageOutbox

open Py

/-! ## Rows -/

inductive OutboxState where
  | pending
  | sending
  | accepted
  | retryable
  | dead
deriving DecidableEq

inductive IngestStatus where
  | accepted
  | duplicate
  | conflict
  | rejectedTerminal
  | legacyUnknown
deriving DecidableEq

/-- `commercial_usage_outbox` -/
structure Row where
  evidence : Evidence
  createdAt : Str
  state : OutboxState
  attemptCount : Nat
  nextAttemptAt : Option Str
  sendingLeaseToken : Option Str
  sendingLeaseExpiresAt : Option Str
  ingestStatus : Option IngestStatus
  canonicalEventId : Option Str
  ingestReasonCode : Option Str
  ingestDecidedAt : Option Str
  acceptedAt : Option Str
  lastError : Option Str
deriving DecidableEq

def Row.eventId (r : Row) : Str := r.evidence.eventId

/-- `length(s) > 0`, which counts up to the first NUL -/
def sqlNonempty (s : Str) : Bool := s.head?.any (· ≠ .scalar '\x00')

/-- The three constraints of the table. -/
def Row.check (r : Row) : Bool :=
  (if r.state = .sending then r.sendingLeaseToken.isSome && r.sendingLeaseExpiresAt.isSome
    else r.sendingLeaseToken.isNone && r.sendingLeaseExpiresAt.isNone) &&
  (if r.state = .accepted then r.acceptedAt.isSome else r.acceptedAt.isNone) &&
  match r.state with
  | .accepted =>
    (decide (r.ingestStatus = some .accepted ∨ r.ingestStatus = some .duplicate) &&
      r.canonicalEventId.any sqlNonempty && r.ingestDecidedAt.isSome) ||
    (decide (r.ingestStatus = some .legacyUnknown) && r.canonicalEventId.isNone &&
      r.ingestReasonCode.isNone && decide (r.ingestDecidedAt = r.acceptedAt))
  | .dead =>
    (decide (r.ingestStatus = some .conflict ∨ r.ingestStatus = some .rejectedTerminal) &&
      r.ingestReasonCode.isSome && r.ingestDecidedAt.isSome) ||
    (r.ingestStatus.isNone && r.canonicalEventId.isNone && r.ingestReasonCode.isNone &&
      r.ingestDecidedAt.isNone)
  | _ =>
    r.ingestStatus.isNone && r.canonicalEventId.isNone && r.ingestReasonCode.isNone &&
      r.ingestDecidedAt.isNone

def Row.isTerminal (r : Row) : Bool := decide (r.state = .accepted ∨ r.state = .dead)

/-- The triggers on `UPDATE`. -/
def Row.allow (old new : Row) : Bool :=
  !decide (new.ingestStatus = some .legacyUnknown ∧ old.ingestStatus ≠ some .legacyUnknown) &&
    decide (new.evidence = old.evidence ∧ new.createdAt = old.createdAt) && !old.isTerminal

/-- The store, which nothing is ever deleted from. -/
abbrev Outbox := Guarded Row Row.eventId Row.check Row.allow

/-! ## Enqueueing -/

/-- The row that `enqueue_batch` inserts. -/
def Row.new (e : Evidence) (createdAt : Str) : Row :=
  ⟨e, createdAt, .pending, 0, none, none, none, none, none, none, none, none, none⟩

/-- The loop of `enqueue_batch` over the rows. -/
def insertAll (createdAt : Str) : List Evidence → Outbox → Except OutboxError Outbox
  | [], t => .ok t
  | e :: rest, t =>
    match t.find? e.eventId with
    | some existing => do
      require (existing.evidence.payloadSha256 = e.payloadSha256)
        (.conflict "conflicting commercial usage event already stored" e.eventId)
      insertAll createdAt rest t
    | none => do
      let t' ← requireSome (t.insert? (.new e createdAt)) .integrity
      insertAll createdAt rest t'

variable {F : Type} [PyFloat F] (E : Env F)

def utcText (time : Int) : Except OutboxError Str :=
  requireSome (E.utcText time) (.value "commercial outbox timestamps must be timezone-aware")

def enqueueBatch (db : Outbox) (payloads : List (Json F)) (createdAt : Int) :
    Except OutboxError Outbox := do
  require (payloads.isEmpty = false) (.value "commercial outbox batch cannot be empty")
  let prepared ← prepareBatch E payloads []
  let created ← utcText E createdAt
  insertAll created prepared db

/-! ## Leasing -/

/-- A lease that ran out is taken back. -/
def Row.expire (r : Row) (current : Str) : Row :=
  { r with
    state := .retryable, sendingLeaseToken := none, sendingLeaseExpiresAt := none
    nextAttemptAt := some current, lastError := some (.lit "sending lease expired") }

def Row.isExpired (r : Row) (current : Str) : Bool :=
  decide (r.state = .sending) && r.sendingLeaseExpiresAt.any fun at_ ↦ decide (at_.le current)

/-- `state IN ('pending', 'retryable')` -/
def Row.isWaiting (r : Row) : Bool := decide (r.state = .pending ∨ r.state = .retryable)

def Row.isReady (r : Row) (current : Str) : Bool :=
  r.isWaiting && r.nextAttemptAt.all fun at_ ↦ decide (at_.le current)

/-- `ORDER BY created_at, event_id` -/
def Row.before (r s : Row) : Prop :=
  r.createdAt ≠ s.createdAt ∧ r.createdAt.le s.createdAt ∨
    r.createdAt = s.createdAt ∧ r.eventId.le s.eventId

instance : DecidableRel Row.before := fun _ _ ↦
  inferInstanceAs (Decidable (_ ∧ Str.le _ _ ∨ _ ∧ Str.le _ _))

def Row.deadLetter (r : Row) (version : Str) : Row :=
  { r with
    state := .dead, sendingLeaseToken := none, sendingLeaseExpiresAt := none, nextAttemptAt := none
    lastError := some (.lit "unshippable_payload_schema_version:" ++ version) }

/-- The schema version of what is queued is the one that is shipped. -/
def Row.isShippable (r : Row) : Bool :=
  E.isShippable (queuedPayloadSchemaVersion r.evidence.payloadJson : Option (Json F))

/-- The gate on the schema version of what is ready: the events that may be shipped; the others are
dead. -/
def deadLetterRows : List Row → Outbox → Option (List Str × Outbox)
  | [], t => some ([], t)
  | r :: rest, t =>
    if r.isShippable E then
      (deadLetterRows rest t).map fun p ↦ (r.eventId :: p.1, p.2)
    else
      let version : Option (Json F) := queuedPayloadSchemaVersion r.evidence.payloadJson
      (t.update? (fun x ↦ decide (x.eventId = r.eventId) && x.isWaiting)
        (fun x ↦ x.deadLetter (E.reprVersion version)) fun _ ↦ rfl).bind (deadLetterRows rest)

def Row.lease (r : Row) (token expiresAt : Str) : Row :=
  { r with
    state := .sending, attemptCount := r.attemptCount + 1, sendingLeaseToken := some token
    sendingLeaseExpiresAt := some expiresAt, nextAttemptAt := none }

/-- The loop of `lease_batch` over the events that may be shipped. -/
def leaseRows (token expiresAt : Str) : List Str → Outbox → Option Outbox
  | [], t => some t
  | eventId :: rest, t =>
    (t.update? (fun x ↦ decide (x.eventId = eventId) && x.isWaiting)
      (fun x ↦ x.lease token expiresAt) fun _ ↦ rfl).bind (leaseRows token expiresAt rest)

def selectRows (t : Outbox) (eventIds : List Str) : List Row :=
  (t.rows.filter fun r ↦ decide (r.eventId ∈ eventIds)).insertionSort Row.before

/-- `lease_batch`, with the token it draws -/
def leaseBatch (db : Outbox) (limit leaseFor now : Int) (token : Str) :
    Except OutboxError (List Row × Outbox) := do
  require (0 < limit ∧ 0 < leaseFor)
    (.value "commercial outbox lease limit and duration must be positive")
  let current ← utcText E now
  let expires ← utcText E (now + leaseFor)
  let t₁ ← requireSome
    (db.update? (fun r ↦ r.isExpired current) (fun r ↦ r.expire current) fun _ ↦ rfl) .integrity
  let rows := ((t₁.rows.filter fun r ↦ r.isReady current).insertionSort Row.before).take limit.toNat
  let (eventIds, t₂) ← requireSome (deadLetterRows E rows t₁) .integrity
  let t₃ ← requireSome (leaseRows token expires eventIds t₂) .integrity
  .ok (selectRows t₃ eventIds, t₃)

/-! ## Marking -/

/-- The columns an attempt ends with. -/
structure Outcome where
  state : OutboxState
  acceptedAt : Option Str
  nextAttemptAt : Option Str
  error : Option Str
  ingestStatus : Option IngestStatus
  canonicalEventId : Option Str
  ingestReasonCode : Option Str
  ingestDecidedAt : Option Str

def Row.finish (r : Row) (o : Outcome) : Row :=
  { r with
    state := o.state, sendingLeaseToken := none, sendingLeaseExpiresAt := none
    ingestStatus := o.ingestStatus, canonicalEventId := o.canonicalEventId
    ingestReasonCode := o.ingestReasonCode, ingestDecidedAt := o.ingestDecidedAt
    acceptedAt := o.acceptedAt, nextAttemptAt := o.nextAttemptAt
    lastError := o.error.map (·.take 4096) }

/-- The row is being sent under the token. -/
def Row.isSendingUnder (r : Row) (eventId token : Str) : Bool :=
  decide (r.eventId = eventId) && decide (r.state = .sending) &&
    decide (r.sendingLeaseToken = some token)

def finishSending (db : Outbox) (eventId leaseToken : Str) (o : Outcome) :
    Except OutboxError (Bool × Outbox) := do
  let db' ← requireSome
    (db.update? (fun r ↦ r.isSendingUnder eventId leaseToken) (fun r ↦ r.finish o) fun _ ↦ rfl)
    .integrity
  .ok (decide (db.rowcount (fun r ↦ r.isSendingUnder eventId leaseToken) = 1), db')

def markAccepted (db : Outbox) (eventId leaseToken : Str) (ingestStatus : IngestStatus)
    (canonicalEventId : Str) (reasonCode : Option Str) (acceptedAt : Int) :
    Except OutboxError (Bool × Outbox) := do
  let canonicalId := canonicalEventId.strip
  require (canonicalId ≠ []) (.value "accepted usage requires canonical event identity")
  let decidedAt ← utcText E acceptedAt
  finishSending db eventId leaseToken
    { state := .accepted, acceptedAt := some decidedAt, nextAttemptAt := none, error := none
      ingestStatus := some ingestStatus, canonicalEventId := some canonicalId
      ingestReasonCode := reasonCode, ingestDecidedAt := some decidedAt }

def markRetryable (db : Outbox) (eventId leaseToken : Str) (nextAttemptAt : Int) (error : Str) :
    Except OutboxError (Bool × Outbox) := do
  let next ← utcText E nextAttemptAt
  finishSending db eventId leaseToken
    { state := .retryable, acceptedAt := none, nextAttemptAt := some next, error := some error
      ingestStatus := none, canonicalEventId := none, ingestReasonCode := none
      ingestDecidedAt := none }

/-- `(text or "").strip() or None` -/
def stripOrNone (text : Option Str) : Option Str :=
  if (text.getD []).strip = [] then none else some (text.getD []).strip

/-- The time of a decision, if there is one. -/
def decisionTime (ingestStatus : Option IngestStatus) (decidedAt : Int) :
    Except OutboxError (Option Str) :=
  if ingestStatus.isSome then (utcText E decidedAt).map some else .ok none

def markDead (db : Outbox) (eventId leaseToken : Str) (error : Str)
    (ingestStatus : Option IngestStatus) (canonicalEventId reasonCode : Option Str)
    (decidedAt : Int) :
    Except OutboxError (Bool × Outbox) := do
  require (ingestStatus.isSome = true → stripOrNone reasonCode ≠ none)
    (.value "terminal ingest decision requires reason code")
  let decided ← decisionTime E ingestStatus decidedAt
  finishSending db eventId leaseToken
    { state := .dead, acceptedAt := none, nextAttemptAt := none, error := some error
      ingestStatus, canonicalEventId := stripOrNone canonicalEventId
      ingestReasonCode := stripOrNone reasonCode, ingestDecidedAt := decided }

/-! ## Runs -/

/-- The calls of producers and shippers, with the clock and the tokens that leases draw. -/
inductive Op (F : Type) where
  | enqueue (payloads : List (Json F)) (createdAt : Int)
  | lease (limit leaseFor now : Int) (token : Str)
  | accepted (eventId leaseToken : Str) (ingestStatus : IngestStatus) (canonicalEventId : Str)
    (reasonCode : Option Str) (acceptedAt : Int)
  | retryable (eventId leaseToken : Str) (nextAttemptAt : Int) (error : Str)
  | dead (eventId leaseToken error : Str) (ingestStatus : Option IngestStatus)
    (canonicalEventId reasonCode : Option Str) (decidedAt : Int)

/-- The body of a call, without what it returns. -/
def Op.body (db : Outbox) : Op F → Except OutboxError Outbox
  | .enqueue payloads createdAt => enqueueBatch E db payloads createdAt
  | .lease limit leaseFor now token => (leaseBatch E db limit leaseFor now token).map Prod.snd
  | .accepted eventId leaseToken status canonicalEventId reasonCode acceptedAt =>
    (markAccepted E db eventId leaseToken status canonicalEventId reasonCode acceptedAt).map
      Prod.snd
  | .retryable eventId leaseToken nextAttemptAt error =>
    (markRetryable E db eventId leaseToken nextAttemptAt error).map Prod.snd
  | .dead eventId leaseToken error status canonicalEventId reasonCode decidedAt =>
    (markDead E db eventId leaseToken error status canonicalEventId reasonCode decidedAt).map
      Prod.snd

/-- A call that raises is rolled back. -/
def step (db : Outbox) (op : Op F) : Outbox :=
  match op.body E db with
  | .ok db' => db'
  | .error _ => db

def after (db : Outbox) (ops : List (Op F)) : Outbox := runs (step E) db ops

end AgentGateway.UsageOutbox
