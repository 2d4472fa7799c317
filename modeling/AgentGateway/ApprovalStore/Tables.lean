import AgentGateway.Py.Calls
import AgentGateway.Py.JsonAscii
import AgentGateway.Py.Sqlite

/-!
# The tables of the approval store

One SQLite database holds the approval requests and everything that hangs on them: the votes, the
executable bindings of parked calls with the root turns they were linked from, the prepared changes,
the raw patch authorizations, and the outbox of autonomous deliveries.  Every operation of the store
is one transaction on it, and the rows here are the columns those operations read.

A datetime is its number of microseconds since the epoch, a reading of the clock a number of
nanoseconds.  Columns that only carry data from one end of the gateway to the other are left out.
-/

namespace AgentGateway.ApprovalStore

open Py

/-! ## Requests and votes -/

inductive ApprovalState where
  | created
  | autoApproved
  | autoDenied
  | pendingUser
  | approved
  | denied
  | expired
deriving DecidableEq

namespace ApprovalState

/-- `TERMINAL_STATES` -/
def isTerminal : ApprovalState → Bool
  | created | pendingUser => false
  | approved | denied | autoApproved | autoDenied | expired => true

/-- The text of the column. -/
def text : ApprovalState → Str
  | created => .lit "created"
  | autoApproved => .lit "auto_approved"
  | autoDenied => .lit "auto_denied"
  | pendingUser => .lit "pending_user"
  | approved => .lit "approved"
  | denied => .lit "denied"
  | expired => .lit "expired"

end ApprovalState

inductive ApprovalConstraint where
  | standard
  | freshHumanOwner
  | legacyUnknown
deriving DecidableEq

inductive ApprovalReuseMode where
  | legacy
  | disabled
  | exact
deriving DecidableEq

inductive AuthorizationMode where
  | human
  | autoAllow
  | cacheHit
  | persistentGrant
  | ownerControlPlane
deriving DecidableEq

/-- The reviewed change a request is for. -/
structure ChangeIdentity where
  identitySource : Option Str
  changeSetId : Option Str
  changeHash : Option Str
  baseVectorHash : Option Str
  reviewedChangeBindingDigest : Option Str
  reviewReferenceJson : Option Str
  executionSemanticsDigest : Option Str
deriving DecidableEq

/-- `ApprovalRequest`, and the row of `approval_requests` it is stored in. -/
structure ApprovalRequest where
  approvalId : Str
  toolCallId : Str
  approvalChainId : Str
  requestId : Str
  sessionId : Option Str
  runId : Option Str
  userId : Str
  channel : Str
  toolName : Str
  toolClass : Str
  argsHash : Str
  state : ApprovalState
  stateVersion : Int
  requestedAt : Int
  decidedAt : Option Int
  expiresAt : Option Int
  deciderId : Option Str
  deciderRole : Option Str
  decision : Option Str
  decisionReason : Option Str
  policyId : Str
  policyVersion : Str
  policyBundleHash : Str
  approvalConstraint : ApprovalConstraint
  requiredOwnerUserId : Option Str
  approvalReuseMode : ApprovalReuseMode
  approvalReuseKey : Option Str
  change : ChangeIdentity
  authorizationMode : AuthorizationMode
  grantReference : Option Str
  cacheReference : Option Str
deriving DecidableEq

inductive VoteDecision where
  | approved
  | denied
deriving DecidableEq

/-- The state a vote puts a request into. -/
def VoteDecision.state : VoteDecision → ApprovalState
  | approved => .approved
  | denied => .denied

structure ApprovalVote where
  voteId : Str
  approvalId : Str
  deciderId : Str
  deciderRole : Option Str
  decision : VoteDecision
  decisionReason : Option Str
  decidedAt : Int
deriving DecidableEq

/-! ## Executable bindings and root turns -/

inductive ExecutionState where
  | unclaimed
  | claimed
  | completed
deriving DecidableEq

/-- A row of `approval_executable_bindings`. -/
structure BindingRow where
  approvalId : Str
  jobId : Str
  toolCallId : Str
  nonce : Str
  tenantStorageId : Str
  toolName : Str
  exactBackend : Option Str
  credentialGenerationRef : Option Str
  requestArgsHash : Str
  preparedInputJson : List Char
  dispatchContextJson : List Char
  operandDigest : Str
  executionState : ExecutionState
  executionClaimToken : Option Str
  executionDecisionStateVersion : Option Int
  executionResultJson : Option (List Char)
  executionResultDigest : Option Str
deriving DecidableEq

/-- The call a binding is for. -/
def BindingRow.call (r : BindingRow) : Str × Str := (r.jobId, r.toolCallId)

structure PolicyGeneration where
  generationRef : Str
  policyId : Str
  policyVersion : Str
  policyBundleHash : Str
deriving DecidableEq

/-- `RootTurnExecutableRef` -/
structure ExecutableRef where
  toolCallId : Str
  nonce : Str
deriving DecidableEq

/-- A row of `approval_root_turns`. -/
structure RootTurn where
  jobId : Str
  turnId : Str
  tenantStorageId : Str
  capabilityBindJson : List Char
  credentialGenerationRef : Option Str
  effectiveGrantJson : List Char
  researchBindingJson : List Char
  selectionSnapshotJson : List Char
  selectionProvenanceJson : List Char
  approvalRouteKind : Str
  policyGenerationRef : Str
  createdAt : Int
  executableRefs : List ExecutableRef
deriving DecidableEq

/-! ## Prepared changes and raw patches -/

/-- `PreparedBusinessModelLifecycle` -/
inductive PreparedLifecycle where
  | pending
  | authorized
  | denied
  | expired
  | supersededPrecommit
  | consumed
deriving DecidableEq

/-- `PreparedBusinessModelChange` -/
structure PreparedChange where
  schemaVersion : Str
  callerKind : Str
  userScope : Str
  idempotencyLocator : Str
  intentDigest : Str
  preparedPayload : List UInt8
  changeSetId : Str
  changeHash : Str
  baseVectorHash : Str
  preparedPayloadDigest : Str
  lifecycle : PreparedLifecycle
  createdAt : Int
  expiresAt : Option Int
  approvalId : Option Str
  approvalChainId : Option Str
  executionReceipt : Option (List UInt8)
  executionReceiptDigest : Option Str
  restorationDigest : Option Str
  checkpointId : Option Str
  consumedAt : Option Int
deriving DecidableEq

/-- The primary key of the table. -/
def PreparedChange.locator (c : PreparedChange) : Str × Str × Str :=
  (c.callerKind, c.userScope, c.idempotencyLocator)

/-- `RawPatchAuthorizationConsumption` -/
structure RawPatchConsumption where
  approvalId : Str
  changeSetId : Str
  changeHash : Str
  receipt : List UInt8
  receiptDigest : Str
  consumedAt : Int
deriving DecidableEq

/-- `RawPatchPreparedAuthorization` -/
structure RawPatchPrepared where
  approvalId : Str
  preparedPayload : List UInt8
  preparedPayloadDigest : Str
  createdAt : Int
deriving DecidableEq

/-- `RawPatchAuthorizationClaim` -/
structure RawPatchClaim where
  approvalId : Str
  claimToken : Str
  changeSetId : Str
  changeHash : Str
  preparedPayloadDigest : Str
  claimedAt : Int
  leaseExpiresAt : Int
deriving DecidableEq

/-! ## The delivery outbox -/

inductive DeliveryState where
  | pending
  | published
  | acknowledged
  | quarantined
deriving DecidableEq

inductive AuditState where
  | pending
  | ready
deriving DecidableEq

/-- The fields of `_AUTONOMOUS_APPROVAL_DELIVERY_CONTEXT_FIELDS`. -/
structure DeliveryContext where
  taskId : Str
  controlRunId : Str
  sessionId : Str
  channelId : Str
  toolCallId : Str
  nonce : Str
deriving DecidableEq

/-- A row of `autonomous_approval_delivery_outbox`; `allow_tool_type` is always 0. -/
structure Delivery where
  deliverySequence : Nat
  approvalId : Str
  context : DeliveryContext
  approved : Bool
  decidedAtNs : Int
  lastAttemptNs : Option Int
  state : DeliveryState
  auditState : AuditState
  triggeringVoteId : Option Str
  voteAuditEntryId : Option Str
  terminalAuditEntryId : Str
  attemptCount : Nat
  lastError : Option Str
  createdAt : Int
  updatedAt : Int
  auditReadyAt : Option Int
  publishedAt : Option Int
  acknowledgedAt : Option Int
  quarantinedAt : Option Int
deriving DecidableEq

/-- A row of `autonomous_publication_reservations` in state `active`. -/
structure Reservation where
  decisionId : Str
  toolCallId : Str
  nonce : Str
  placementGeneration : Int
deriving DecidableEq

/-! ## The database -/

structure Db where
  requests : Table ApprovalRequest ApprovalRequest.approvalId
  votes : Indexed ApprovalVote ApprovalVote.voteId fun v ↦ (v.approvalId, v.deciderId)
  bindings : Indexed BindingRow BindingRow.approvalId BindingRow.call
  generations : Table PolicyGeneration PolicyGeneration.generationRef
  rootTurns : Table RootTurn fun t ↦ (t.jobId, t.turnId)
  prepared : Table PreparedChange PreparedChange.locator
  rawPrepared : Table RawPatchPrepared RawPatchPrepared.approvalId
  rawClaims : Indexed RawPatchClaim RawPatchClaim.approvalId RawPatchClaim.claimToken
  rawConsumptions :
    Indexed RawPatchConsumption RawPatchConsumption.approvalId RawPatchConsumption.receiptDigest
  outbox : Indexed Delivery Delivery.approvalId Delivery.deliverySequence
  /-- `approval_clock_high_water` -/
  clockHighWater : Option Int
  /-- `autonomous_approval_delivery_sequence` -/
  nextSequence : Option Nat
  reservations : List Reservation
  /-- `persistent_grant_cancellation_fences` -/
  fences : List Str

/-- A new store. -/
def Db.empty : Db where
  requests := .empty
  votes := .empty
  bindings := .empty
  generations := .empty
  rootTurns := .empty
  prepared := .empty
  rawPrepared := .empty
  rawClaims := .empty
  rawConsumptions := .empty
  outbox := .empty
  clockHighWater := none
  nextSequence := none
  reservations := []
  fences := []

/-! ## Errors -/

/-- `ApprovalExecutableBindingErrorCode` -/
inductive BindingErrorCode where
  | missingBinding
  | nonceMismatch
  | tenantMismatch
  | callIdentityMismatch
  | operandMismatch
  | decisionMismatch
  | executionOutcomeUnknown
  | claimTokenMismatch
  | resultMismatch
deriving DecidableEq

/-- `RootTurnRecordErrorCode` -/
inductive RootTurnErrorCode where
  | missingRootTurn
  | tenantMismatch
  | snapshotMismatch
  | turnLinkMismatch
deriving DecidableEq

inductive StoreError where
  /-- `ApprovalExecutableBindingError` -/
  | binding (code : BindingErrorCode)
  /-- `RootTurnRecordError` -/
  | rootTurn (code : RootTurnErrorCode)
  /-- `PreparedBusinessModelError` -/
  | prepared (message : Str)
  /-- `RawPatchAuthorizationError` -/
  | rawPatch (message : Str)
  /-- `ApprovalRemoteReservationActive` -/
  | reservationActive
  /-- `PersistentGrantCancellationFenced` -/
  | cancellationFenced (message : Str)
  | key (message : Str)
  | value (message : Str)
  | runtime (message : Str)
  /-- `sqlite3.IntegrityError` -/
  | integrity
  /-- an integer SQLite has no room for -/
  | overflow
  /-- an exception of the body of a transaction that the caller supplies -/
  | body
deriving DecidableEq

/-! ## What the store takes from its surroundings -/

/-- Functions the store calls and does not define. -/
structure Host where
  /-- `hashlib.sha256(text.encode("utf-8")).hexdigest()` -/
  sha256 : Str → Str
  /-- `str.lower` -/
  lower : Str → Str
  /-- `ApprovalRequest.__post_init__` does not raise -/
  validRequest : ApprovalRequest → Bool

def sqliteMaxInteger : Nat := 2 ^ 63 - 1

/-- A parameter of type `INTEGER`, in a column with `CHECK (… > 0)`. -/
def positiveInteger (n : Int) : Except StoreError Unit := do
  require (n ≤ sqliteMaxInteger) .overflow
  require (0 < n) .integrity

end AgentGateway.ApprovalStore
