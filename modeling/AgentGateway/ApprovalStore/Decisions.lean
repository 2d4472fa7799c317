import AgentGateway.ApprovalStore.Outbox

/-!
# Decisions on approval requests

A request is created, shown to its user, and decided: by a vote, by the policy, by cancellation, or
because it expired or was superseded.  All of these write the state of the request through one
statement, `writeRequestTransition`, whose `WHERE` depends on the target: a terminal state is
written over anything, any other only over a state that is not terminal, and a cancellation compares
the whole identity of the request.

* `writeRequestTransition_eq_ok` says what the statement can do.
* `DecisionUpdate` says what the operations of this module do to the store: requests are rewritten
  by that statement only, and a decision that has to be delivered appends one row to the outbox.
-/

namespace AgentGateway.ApprovalStore

open Py

/-! ## Reading -/

/-- `approval_is_executable` -/
def ApprovalRequest.isExecutable (r : ApprovalRequest) : Bool :=
  match r.approvalConstraint with
  | .legacyUnknown => false
  | .freshHumanOwner => r.state == .approved && r.deciderId == r.requiredOwnerUserId
  | .standard => r.state == .approved || r.state == .autoApproved

/-- The request an operation is about. -/
def Db.requireRequest (db : Db) (approvalId : Str) : Except StoreError ApprovalRequest :=
  requireSome (db.requests.find? approvalId)
    (.key (Str.lit "approval request not found: " ++ approvalId))

/-- No executor holds the raw patch of the approval. -/
def Db.requireNoRawClaim (db : Db) (approvalId : Str) (message : String) : Except StoreError Unit :=
  require (db.rawClaims.find? approvalId = none) (.rawPatch (.lit message))

/-- `_verify_executable_request_identity` -/
def verifyRequestIdentity (row : BindingRow) (request : ApprovalRequest) :
    Except StoreError Unit := do
  require (request.userId = row.tenantStorageId) (.binding .tenantMismatch)
  require (request.approvalId = row.approvalId ∧ request.toolCallId = row.toolCallId ∧
    request.toolName = row.toolName) (.binding .callIdentityMismatch)
  require (request.argsHash = row.requestArgsHash) (.binding .operandMismatch)

/-- Is the request the one the binding is for? -/
def BindingRow.identifies (row : BindingRow) (request : ApprovalRequest) : Prop :=
  request.userId = row.tenantStorageId ∧ request.approvalId = row.approvalId ∧
    request.toolCallId = row.toolCallId ∧ request.toolName = row.toolName ∧
    request.argsHash = row.requestArgsHash

variable {request current updated : ApprovalRequest}

theorem verifyRequestIdentity_eq_ok_iff {row : BindingRow} {u : Unit} :
    verifyRequestIdentity row request = .ok u ↔ row.identifies request := by
  simp only [verifyRequestIdentity, bind_eq_ok_iff, require_eq_ok_iff, exists_const,
    BindingRow.identifies, and_assoc]

/-! ## Cancellation -/

/-- The run a cancellation takes the request to belong to. -/
structure ExpectedIdentity where
  toolCallId : Str
  userId : Str
  requestId : Str
  runId : Str
  sessionId : Str
  channel : Option Str
deriving DecidableEq

/-- `str(channel or "").strip().lower()` -/
def normalizedChannel (H : Host) (channel : Option Str) : Str :=
  H.lower (Str.strip (channel.getD []))

/-- `identity_matches` -/
def ExpectedIdentity.matchesRequest (H : Host) (e : ExpectedIdentity) (r : ApprovalRequest) :
    Prop :=
  r.toolCallId = e.toolCallId ∧ r.userId = e.userId ∧ r.requestId = e.requestId ∧
    r.runId = some e.runId ∧ r.sessionId = some e.sessionId ∧
    normalizedChannel H (some r.channel) = normalizedChannel H e.channel

instance (H : Host) (e : ExpectedIdentity) (r : ApprovalRequest) :
    Decidable (e.matchesRequest H r) := inferInstanceAs (Decidable (_ ∧ _))

/-- SQLite's `TRIM` takes spaces only. -/
def sqlTrim (s : Str) : Str :=
  ((s.dropWhile (· == .scalar ' ')).reverse.dropWhile (· == .scalar ' ')).reverse

/-- SQLite's `LOWER` knows the letters of ASCII only. -/
def sqlLower (s : Str) : Str :=
  s.map fun p ↦
    match p with
    | .scalar c => .scalar (if 'A' ≤ c ∧ c ≤ 'Z' then Char.ofNat (c.toNat + 32) else c)
    | p => p

/-- The `WHERE` of a cancellation. -/
structure CancellationCompare where
  stateVersion : Int
  identity : ExpectedIdentity
  channel : Str

def CancellationCompare.admits (c : CancellationCompare) (r : ApprovalRequest) : Prop :=
  r.state = .pendingUser ∧ r.stateVersion = c.stateVersion ∧
    r.toolCallId = c.identity.toolCallId ∧ r.userId = c.identity.userId ∧
    r.requestId = c.identity.requestId ∧ r.runId = some c.identity.runId ∧
    r.sessionId = some c.identity.sessionId ∧ sqlLower (sqlTrim r.channel) = c.channel

instance (c : CancellationCompare) (r : ApprovalRequest) : Decidable (c.admits r) :=
  inferInstanceAs (Decidable (_ ∧ _))

/-! ## The write -/

/-- The columns the statement writes. -/
def ApprovalRequest.withTransition (row updated : ApprovalRequest) : ApprovalRequest :=
  { row with
    state := updated.state
    stateVersion := updated.stateVersion
    expiresAt := updated.expiresAt
    decidedAt := updated.decidedAt
    deciderId := updated.deciderId
    deciderRole := updated.deciderRole
    decision := updated.decision
    decisionReason := updated.decisionReason }

/-- The `WHERE` of the statement, past the key. -/
def transitionAdmits (updated : ApprovalRequest) (compare : Option CancellationCompare)
    (row : ApprovalRequest) : Prop :=
  match compare with
  | some c => c.admits row
  | none => updated.state.isTerminal = true ∨ row.state.isTerminal = false

instance (updated : ApprovalRequest) (compare : Option CancellationCompare)
    (row : ApprovalRequest) : Decidable (transitionAdmits updated compare row) :=
  match compare with
  | some c => inferInstanceAs (Decidable (c.admits row))
  | none => inferInstanceAs (Decidable (_ ∨ _))

/-- `_write_request_transition_locked`, and whether it wrote a row. -/
def writeRequestTransition (db : Db) (updated : ApprovalRequest)
    (compare : Option CancellationCompare) : Except StoreError (Db × Bool) :=
  match (db.requests.find? updated.approvalId).filter fun row ↦
      decide (transitionAdmits updated compare row) with
  | some row => .ok ({ db with requests := db.requests.put (row.withTransition updated) }, true)
  | none => do
    require (compare.isSome ∨ updated.state.isTerminal = true)
      (.value (Str.lit "cannot transition terminal approval request " ++ updated.approvalId ++
        Str.lit " to " ++ updated.state.text))
    .ok (db, false)

/-! ## Operations -/

def create (H : Host) (db : Db) (request : ApprovalRequest) : Except StoreError Db := do
  require (H.validRequest request) (.value (.lit "approval request is invalid"))
  let requests ← requireSome (db.requests.insert? request) .integrity
  .ok { db with requests }

/-- The columns that identify what was approved. -/
def ApprovalRequest.identityFields (r : ApprovalRequest) :
    ApprovalConstraint × Option Str × ChangeIdentity × ApprovalReuseMode × Option Str :=
  (r.approvalConstraint, r.requiredOwnerUserId, r.change, r.approvalReuseMode, r.approvalReuseKey)

/-- The columns `update_request` writes. -/
def ApprovalRequest.withUpdate (row request : ApprovalRequest) : ApprovalRequest :=
  { row with
    argsHash := request.argsHash
    policyId := request.policyId
    policyVersion := request.policyVersion
    policyBundleHash := request.policyBundleHash
    authorizationMode := request.authorizationMode
    grantReference := request.grantReference
    cacheReference := request.cacheReference }

/-- A request that is bound to a call must stay the request of the call. -/
def verifyBoundRequest (db : Db) (request : ApprovalRequest) : Except StoreError Unit :=
  match db.bindings.find? request.approvalId with
  | none => .ok ()
  | some row => verifyRequestIdentity row request

def updateRequest (H : Host) (db : Db) (request : ApprovalRequest) : Except StoreError Db := do
  require (H.validRequest request) (.value (.lit "approval request is invalid"))
  let current ← db.requireRequest request.approvalId
  db.requireNoRawClaim request.approvalId "claimed raw patch approval cannot be modified"
  verifyBoundRequest db request
  require (current.identityFields = request.identityFields)
    (.value (.lit "approval request identity is immutable"))
  .ok { db with requests := db.requests.put (current.withUpdate request) }

/-- The arguments of `transition_state`. -/
structure Transition where
  state : ApprovalState
  expectedStateVersion : Option Int
  expiresAt : Option Int
  deciderId : Option Str
  deciderRole : Option Str
  decision : Option Str
  decisionReason : Option Str

/-- The request `transition_state` writes. -/
def Transition.apply (t : Transition) (current : ApprovalRequest) (nowNs : Int) : ApprovalRequest :=
  { current with
    state := t.state
    stateVersion := current.stateVersion + 1
    expiresAt := t.expiresAt.or current.expiresAt
    decidedAt := if t.state.isTerminal then some (microseconds nowNs) else current.decidedAt
    deciderId := t.deciderId.or current.deciderId
    deciderRole := t.deciderRole.or current.deciderRole
    decision := if t.state.isTerminal then t.decision.or (some t.state.text) else t.decision
    decisionReason := t.decisionReason.or current.decisionReason }

def transitionState (db : Db) (nowNs : Int) (approvalId : Str) (t : Transition) :
    Except StoreError Db := do
  let current ← db.requireRequest approvalId
  db.requireNoRawClaim approvalId "claimed raw patch approval cannot transition"
  require (∀ v ∈ t.expectedStateVersion, current.stateVersion = v)
    (.runtime (.lit "approval request state_version changed"))
  let (db, _) ← writeRequestTransition db (t.apply current nowNs) none
  .ok db

/-- The denied request of a cancellation. -/
def cancelled (current : ApprovalRequest) (nowNs : Int) (deciderId deciderRole : Option Str)
    (reason : Str) : ApprovalRequest :=
  { current with
    state := .denied
    stateVersion := current.stateVersion + 1
    decidedAt := some (microseconds nowNs)
    deciderId := deciderId.or current.deciderId
    deciderRole := deciderRole.or current.deciderRole
    decision := some ApprovalState.denied.text
    decisionReason := some reason }

/-- Who cancels, why, and whether the decision goes to a child. -/
structure Cancellation where
  identity : ExpectedIdentity
  deciderId : Option Str
  deciderRole : Option Str
  reason : Str
  delivery : Option DeliveryContext

/-- What a cancellation returns: was the request denied by it, and was the identity the request's?
-/
structure CancellationReply where
  transitioned : Bool
  identityMatched : Bool
deriving DecidableEq

/-- The denial itself, once the request is known to be pending and the caller's. -/
def denyPending (H : Host) (db : Db) (readNs insertNs : Int) (current : ApprovalRequest)
    (c : Cancellation) : Except StoreError Db := do
  let updated := cancelled current readNs c.deciderId c.deciderRole c.reason
  let (db, wrote) ← writeRequestTransition db updated
    (some ⟨current.stateVersion, c.identity, normalizedChannel H c.identity.channel⟩)
  require wrote (.runtime (.lit "approval cancellation compare-and-set failed"))
  match c.delivery with
  | none => .ok db
  | some context => insertDelivery H db insertNs updated context false none

/-- `terminalize_pending_for_cancellation`; the clock is read for `decided_at`, and again when the
delivery is inserted. -/
def terminalizePending (H : Host) (db : Db) (readNs insertNs : Int) (approvalId : Str)
    (c : Cancellation) : Except StoreError (CancellationReply × Db) := do
  normalizeDelivery c.delivery
  requireUnreserved db approvalId none none
  let current ← db.requireRequest approvalId
  if ¬ c.identity.matchesRequest H current then .ok (⟨false, false⟩, db)
  else if current.state ≠ .pendingUser then .ok (⟨false, true⟩, db)
  else do
    db.requireNoRawClaim approvalId "claimed raw patch approval cannot be cancelled"
    let db ← denyPending H db readNs insertNs current c
    .ok (⟨true, true⟩, db)

/-- `abort_unpublished_approval`; the grants and notifications it takes back are not modelled. -/
def abortUnpublished (H : Host) (db : Db) (nowNs : Int) (approvalId : Str)
    (identity : ExpectedIdentity) (reason : Str) : Except StoreError (CancellationReply × Db) := do
  let current ← db.requireRequest approvalId
  if ¬ identity.matchesRequest H current then .ok (⟨false, false⟩, db)
  else do
    db.requireNoRawClaim approvalId "claimed raw patch approval cannot be aborted"
    if current.state.isTerminal then .ok (⟨false, true⟩, db)
    else do
      let (db, _) ← writeRequestTransition db (cancelled current nowNs none none reason) none
      .ok (⟨true, true⟩, db)

/-- `fence_persistent_grants_for_cancellation`; the grants it revokes are not modelled. -/
def fenceForCancellation (H : Host) (db : Db) (approvalId : Str) (identity : ExpectedIdentity) :
    Except StoreError (Bool × Db) := do
  requireUnreserved db approvalId none none
  let current ← db.requireRequest approvalId
  if ¬ identity.matchesRequest H current then .ok (false, db)
  else .ok (true, { db with fences := if approvalId ∈ db.fences then db.fences
      else db.fences ++ [approvalId] })

/-! ## Votes -/

/-- The request a vote decides. -/
def voted (current : ApprovalRequest) (vote : ApprovalVote) : ApprovalRequest :=
  { current with
    state := vote.decision.state
    stateVersion := current.stateVersion + 1
    decidedAt := some vote.decidedAt
    deciderId := some vote.deciderId
    deciderRole := vote.deciderRole
    decision := some vote.decision.state.text
    decisionReason := vote.decisionReason }

/-- The vote is written down once; a second one of the same decider must be the same. -/
def recordVoteRow (db : Db) (vote : ApprovalVote) : Except StoreError Db :=
  match db.votes.rows.find? fun v ↦
      decide (v.approvalId = vote.approvalId ∧ v.deciderId = vote.deciderId) with
  | none => do
    let votes ← requireSome (db.votes.insert? vote) .integrity
    .ok { db with votes }
  | some existing => do
    require (existing.voteId = vote.voteId ∧ existing.decision = vote.decision)
      (.value (.lit "approval already has a different owner decision"))
    .ok db

/-- The write of a vote on a request that is still open. -/
def decideByVote (H : Host) (db : Db) (nowNs : Int) (current : ApprovalRequest)
    (vote : ApprovalVote)
    (delivery : Option DeliveryContext) : Except StoreError Db := do
  let db ← recordVoteRow db vote
  let (db, _) ← writeRequestTransition db (voted current vote) none
  match delivery with
  | none => .ok db
  | some context =>
    insertDelivery H db nowNs (voted current vote) context (decide (vote.decision = .approved))
      (some vote)

/-- The transaction of `_record_vote`: was the request decided by this vote?  The look into the
outbox that precedes it writes nothing. -/
def recordVote (H : Host) (db : Db) (nowNs : Int) (approvalId : Str) (vote : ApprovalVote)
    (delivery : Option DeliveryContext) : Except StoreError (Bool × Db) := do
  require (vote.approvalId = approvalId)
    (.value (.lit "approval vote identity does not match request"))
  normalizeDelivery delivery
  let current ← db.requireRequest approvalId
  require (∀ context ∈ delivery, current.toolCallId = context.toolCallId)
    (.value (.lit "autonomous approval delivery tool-call identity changed"))
  if current.state.isTerminal then .ok (false, db)
  else do
    let db ← decideByVote H db nowNs current vote delivery
    .ok (true, db)

/-! ## What the operations do to the requests -/

/-- `state in {"denied", "auto_denied", "expired"}` -/
def ApprovalState.isRefused : ApprovalState → Bool
  | denied | autoDenied | expired => true
  | created | pendingUser | approved | autoApproved => false

theorem isTerminal_of_isRefused {s : ApprovalState} (h : s.isRefused = true) :
    s.isTerminal = true := by
  cases s <;> first | rfl | cases h

theorem refused_or_approved_of_isTerminal {s : ApprovalState} (h : s.isTerminal = true) :
    s.isRefused = true ∨ s = .approved ∨ s = .autoApproved := by
  revert h
  cases s <;> decide

/-- One write of the statement on a request; a refused request stays refused unless the write
`overrules` it. -/
inductive Transitioned (overrules : Prop) (r : ApprovalRequest) : ApprovalRequest → Prop
  | write (updated : ApprovalRequest) (hversion : updated.stateVersion = r.stateVersion + 1)
    (hterminal : updated.state.isTerminal = true ∨ r.state.isTerminal = false)
    (hrefused : r.state.isRefused = true → updated.state.isRefused = true ∨ overrules) :
    Transitioned overrules r (r.withTransition updated)

/-- Any number of writes of the statement. -/
def Rewritten (overrules : Prop) : ApprovalRequest → ApprovalRequest → Prop :=
  Relation.ReflTransGen (Transitioned overrules)

section

variable {overrules : Prop}

theorem Rewritten.refl (r : ApprovalRequest) : Rewritten overrules r r :=
  Relation.ReflTransGen.refl

theorem Rewritten.trans (r s t : ApprovalRequest) (h : Rewritten overrules r s)
    (h' : Rewritten overrules s t) : Rewritten overrules r t :=
  Relation.ReflTransGen.trans h h'

/-- Every request of a table is in another, rewritten. -/
def KeepsRequests (overrules : Prop)
    (t t' : Table ApprovalRequest ApprovalRequest.approvalId) : Prop :=
  t.Keeps (fun _ ↦ True) (Rewritten overrules) t'

theorem KeepsRequests.refl (t : Table ApprovalRequest ApprovalRequest.approvalId) :
    KeepsRequests overrules t t :=
  Table.Keeps.refl Rewritten.refl t

theorem KeepsRequests.trans {t t' t'' : Table ApprovalRequest ApprovalRequest.approvalId}
    (h : KeepsRequests overrules t t') (h' : KeepsRequests overrules t' t'') :
    KeepsRequests overrules t t'' :=
  Table.Keeps.trans Rewritten.trans h h'

theorem KeepsRequests.of_insert? {t t' : Table ApprovalRequest ApprovalRequest.approvalId}
    {r : ApprovalRequest} (h : t.insert? r = some t') : KeepsRequests overrules t t' :=
  Table.keeps_append Rewritten.refl (Table.insert?_eq_some_iff.1 h).2

theorem Db.requireRequest_eq_ok {db : Db} {approvalId : Str} {r : ApprovalRequest}
    (h : db.requireRequest approvalId = .ok r) :
    db.requests.find? approvalId = some r ∧ r.approvalId = approvalId := by
  rw [Db.requireRequest, requireSome_eq_ok_iff] at h
  exact ⟨h, (Table.find?_eq_some_iff.1 h).2⟩

/-- **What the statement does**: it writes over the request as it stands, if the `WHERE` admits it,
and otherwise writes nothing. -/
theorem writeRequestTransition_eq_ok {db db' : Db} {compare : Option CancellationCompare}
    {wrote : Bool} (h : writeRequestTransition db updated compare = .ok (db', wrote))
    (hcurrent : db.requests.find? updated.approvalId = some current) :
    (wrote = true ∧ transitionAdmits updated compare current ∧
      db' = { db with requests := db.requests.put (current.withTransition updated) }) ∨
    (wrote = false ∧ ¬ transitionAdmits updated compare current ∧ db' = db) := by
  rw [writeRequestTransition, hcurrent] at h
  by_cases hadmits : transitionAdmits updated compare current
  · simp only [Option.filter, hadmits, decide_true, if_true] at h
    cases h
    exact .inl ⟨rfl, hadmits, rfl⟩
  · simp only [Option.filter, hadmits, decide_false, Bool.false_eq_true, if_false,
      bind_eq_ok_iff] at h
    obtain ⟨-, -, h⟩ := h
    cases h
    exact .inr ⟨rfl, hadmits, rfl⟩

/-- The requests after the statement has been run on a request as it stands. -/
theorem writeRequestTransition_keeps (overrules : Prop) {db db' : Db}
    {compare : Option CancellationCompare} {wrote : Bool}
    (h : writeRequestTransition db updated compare = .ok (db', wrote))
    (hcurrent : db.requests.find? updated.approvalId = some current)
    (hversion : updated.stateVersion = current.stateVersion + 1)
    (hrefused : current.state.isRefused = true → transitionAdmits updated compare current →
      updated.state.isRefused = true ∨ overrules) :
    ∃ requests, db' = { db with requests } ∧ KeepsRequests overrules db.requests requests := by
  rcases writeRequestTransition_eq_ok h hcurrent with ⟨-, hadmits, rfl⟩ | ⟨-, -, rfl⟩
  · refine ⟨_, rfl, Table.keeps_put Rewritten.refl fun r hr hkey _ ↦ ⟨trivial, ?_⟩⟩
    have hrow : r = current := by
      obtain ⟨hmem, -⟩ := Table.find?_eq_some_iff.1 hcurrent
      exact Table.eq_of_key_eq hr hmem hkey
    subst hrow
    refine .single (.write updated hversion ?_ fun hr ↦ hrefused hr hadmits)
    cases compare with
    | none => exact hadmits
    | some =>
      right
      rw [show r.state = .pendingUser from hadmits.1]
      rfl
  · exact ⟨db'.requests, rfl, .refl _⟩

/-- A row was appended to the outbox under the next sequence number, or nothing was. -/
inductive OutboxAppend (outbox : Indexed Delivery Delivery.approvalId Delivery.deliverySequence)
    (nextSequence : Option Nat) :
    Indexed Delivery Delivery.approvalId Delivery.deliverySequence → Option Nat → Prop
  | none : OutboxAppend outbox nextSequence outbox nextSequence
  | row (d : Delivery) {outbox' : Indexed Delivery Delivery.approvalId Delivery.deliverySequence}
    (hn : nextSequence = .none ∧ d.deliverySequence = 1 ∨ nextSequence = some d.deliverySequence)
    (hs : d.state = .pending) (ha : d.auditState = .pending)
    (hins : outbox.insert? d = some outbox') :
    OutboxAppend outbox nextSequence outbox' (some (d.deliverySequence + 1))

/-- What an operation of this module does to the store. -/
def DecisionUpdate (overrules : Prop) (db db' : Db) : Prop :=
  ∃ requests votes outbox clockHighWater nextSequence,
    db' = { db with requests, votes, outbox, clockHighWater, nextSequence } ∧
      KeepsRequests overrules db.requests requests ∧
      OutboxAppend db.outbox db.nextSequence outbox nextSequence

theorem DecisionUpdate.refl (db : Db) : DecisionUpdate overrules db db :=
  ⟨db.requests, db.votes, db.outbox, db.clockHighWater, db.nextSequence, rfl, .refl _, .none⟩

theorem DecisionUpdate.of_requests {db : Db}
    {requests : Table ApprovalRequest ApprovalRequest.approvalId}
    (h : KeepsRequests overrules db.requests requests) :
    DecisionUpdate overrules db { db with requests } :=
  ⟨requests, db.votes, db.outbox, db.clockHighWater, db.nextSequence, rfl, h, .none⟩

/-- The requests are written, and then the delivery is inserted, if there is one. -/
theorem DecisionUpdate.of_delivery {H : Host} {db db' : Db} {nowNs : Int}
    {requests : Table ApprovalRequest ApprovalRequest.approvalId}
    {votes : Indexed ApprovalVote ApprovalVote.voteId fun v ↦ (v.approvalId, v.deciderId)}
    (hkeeps : KeepsRequests overrules db.requests requests) {delivery : Option DeliveryContext}
    {approved : Bool} {vote : Option ApprovalVote} (h : (match delivery with
      | none => Except.ok { db with requests, votes }
      | some context => insertDelivery H { db with requests, votes } nowNs updated context approved
          vote) = .ok db') : DecisionUpdate overrules db db' := by
  cases delivery with
  | none =>
    cases h
    exact ⟨requests, votes, db.outbox, db.clockHighWater, db.nextSequence, rfl, hkeeps, .none⟩
  | some context =>
    obtain ⟨-, n, decidedAt, outbox, hn, hins, rfl⟩ := insertDelivery_eq_ok h
    exact ⟨requests, votes, outbox, some nowNs, some (n + 1), rfl, hkeeps,
      .row (newDelivery H n updated context approved vote (epochNs decidedAt) (microseconds nowNs))
        hn rfl rfl hins⟩

end

section Updates

variable {H : Host} {db db' : Db} {nowNs : Int} {approvalId : Str}

theorem create_eq_ok (h : create H db request = .ok db') :
    ∃ requests, db.requests.insert? request = some requests ∧ db' = { db with requests } := by
  simp only [create, bind_eq_ok_iff, requireSome_eq_ok_iff] at h
  obtain ⟨-, -, requests, hins, h⟩ := h
  cases h
  exact ⟨requests, hins, rfl⟩

theorem create_update (h : create H db request = .ok db') :
    DecisionUpdate False db db' := by
  obtain ⟨requests, hins, rfl⟩ := create_eq_ok h
  exact .of_requests (.of_insert? hins)

/-- Does the transition approve a request that has been refused? -/
def overrules (db : Db) (approvalId : Str) (t : Transition) : Prop :=
  (t.state = .approved ∨ t.state = .autoApproved) ∧
    ∃ r, db.requests.find? approvalId = some r ∧ r.state.isRefused = true

theorem transitionState_update {t : Transition}
    (h : transitionState db nowNs approvalId t = .ok db') :
    DecisionUpdate (overrules db approvalId t) db db' := by
  simp only [transitionState, bind_eq_ok_iff, Prod.exists] at h
  obtain ⟨current, hcurrent, -, -, -, -, db₁, wrote, hwrite, h⟩ := h
  obtain ⟨hfind, rfl⟩ := Db.requireRequest_eq_ok hcurrent
  cases h
  have hrefused : current.state.isRefused = true →
      transitionAdmits (t.apply current nowNs) none current →
      t.state.isRefused = true ∨ overrules db current.approvalId t := by
    intro hrefused hadmits
    rcases hadmits with hterminal | hopen
    · rcases refused_or_approved_of_isTerminal hterminal with hstate | hstate
      · exact .inl hstate
      · exact .inr ⟨hstate, current, hfind, hrefused⟩
    · rw [isTerminal_of_isRefused hrefused] at hopen
      cases hopen
  obtain ⟨requests, rfl, hkeeps⟩ := writeRequestTransition_keeps _ hwrite hfind rfl hrefused
  exact .of_requests hkeeps

/-- A cancellation denies the request that is pending, and no other. -/
theorem denyPending_update {readNs insertNs : Int} {c : Cancellation}
    (hcurrent : db.requests.find? current.approvalId = some current)
    (h : denyPending H db readNs insertNs current c = .ok db') : DecisionUpdate False db db' := by
  simp only [denyPending, bind_eq_ok_iff, Prod.exists] at h
  obtain ⟨db₁, wrote, hwrite, -, -, h⟩ := h
  obtain ⟨requests, rfl, hkeeps⟩ := writeRequestTransition_keeps False hwrite hcurrent rfl
    fun _ _ ↦ .inl rfl
  exact .of_delivery hkeeps h

theorem terminalizePending_update {readNs insertNs : Int} {c : Cancellation}
    {reply : CancellationReply}
    (h : terminalizePending H db readNs insertNs approvalId c = .ok (reply, db')) :
    DecisionUpdate False db db' := by
  simp only [terminalizePending, bind_eq_ok_iff] at h
  obtain ⟨-, -, -, -, current, hcurrent, h⟩ := h
  obtain ⟨hfind, rfl⟩ := Db.requireRequest_eq_ok hcurrent
  by_cases hmatch : c.identity.matchesRequest H current
  · by_cases hpending : current.state = .pendingUser
    · simp only [hmatch, hpending, not_true, ne_eq, if_false, bind_eq_ok_iff] at h
      obtain ⟨-, -, db₁, hdeny, h⟩ := h
      cases h
      exact denyPending_update hfind hdeny
    · simp only [hmatch, hpending, not_true, not_false_iff, ne_eq, if_false, if_true] at h
      cases h
      exact .refl db
  · simp only [hmatch, not_false_iff, if_true] at h
    cases h
    exact .refl db

theorem abortUnpublished_update {identity : ExpectedIdentity} {reason : Str}
    {reply : CancellationReply}
    (h : abortUnpublished H db nowNs approvalId identity reason = .ok (reply, db')) :
    DecisionUpdate False db db' := by
  simp only [abortUnpublished, bind_eq_ok_iff] at h
  obtain ⟨current, hcurrent, h⟩ := h
  obtain ⟨hfind, rfl⟩ := Db.requireRequest_eq_ok hcurrent
  by_cases hmatch : identity.matchesRequest H current
  · simp only [hmatch, not_true, if_false, bind_eq_ok_iff] at h
    obtain ⟨-, -, h⟩ := h
    by_cases hterminal : current.state.isTerminal = true
    · rw [if_pos hterminal] at h
      cases h
      exact .refl db
    · simp only [if_neg hterminal, bind_eq_ok_iff, Prod.exists] at h
      obtain ⟨db₁, wrote, hwrite, h⟩ := h
      cases h
      obtain ⟨requests, rfl, hkeeps⟩ := writeRequestTransition_keeps False hwrite hfind rfl
        fun _ _ ↦ .inl rfl
      exact .of_requests hkeeps
  · simp only [hmatch, not_false_iff, if_true] at h
    cases h
    exact .refl db

theorem recordVoteRow_eq_ok {vote : ApprovalVote} (h : recordVoteRow db vote = .ok db') :
    ∃ votes, db' = { db with votes } := by
  rw [recordVoteRow] at h
  split at h
  · simp only [bind_eq_ok_iff] at h
    obtain ⟨votes, -, h⟩ := h
    cases h
    exact ⟨votes, rfl⟩
  · simp only [bind_eq_ok_iff] at h
    obtain ⟨-, -, h⟩ := h
    cases h
    exact ⟨db.votes, rfl⟩

theorem recordVote_update {vote : ApprovalVote} {delivery : Option DeliveryContext} {decided : Bool}
    (h : recordVote H db nowNs approvalId vote delivery = .ok (decided, db')) :
    DecisionUpdate False db db' := by
  simp only [recordVote, bind_eq_ok_iff] at h
  obtain ⟨-, -, -, -, current, hcurrent, -, -, h⟩ := h
  obtain ⟨hfind, rfl⟩ := Db.requireRequest_eq_ok hcurrent
  by_cases hterminal : current.state.isTerminal = true
  · rw [if_pos hterminal] at h
    cases h
    exact .refl db
  · simp only [if_neg hterminal, decideByVote, bind_eq_ok_iff, Prod.exists] at h
    obtain ⟨db₁, ⟨db₂, hrow, db₃, wrote, hwrite, hdelivery⟩, h⟩ := h
    cases h
    obtain ⟨votes, rfl⟩ := recordVoteRow_eq_ok hrow
    obtain ⟨requests, rfl, hkeeps⟩ := writeRequestTransition_keeps False hwrite hfind rfl
      fun hrefused _ ↦ absurd (isTerminal_of_isRefused hrefused) hterminal
    exact .of_delivery hkeeps hdelivery

theorem updateRequest_eq_ok (h : updateRequest H db request = .ok db') :
    ∃ current, db.requests.find? request.approvalId = some current ∧
      current.identityFields = request.identityFields ∧
      (∀ row ∈ db.bindings.rows, row.approvalId = request.approvalId → row.identifies request) ∧
      db' = { db with requests := db.requests.put (current.withUpdate request) } := by
  simp only [updateRequest, bind_eq_ok_iff, require_eq_ok_iff] at h
  obtain ⟨-, -, current, hcurrent, -, -, _, hbound, -, hidentity, h⟩ := h
  cases h
  refine ⟨current, (Db.requireRequest_eq_ok hcurrent).1, hidentity, fun row hrow hid ↦ ?_, rfl⟩
  have hfind : db.bindings.find? request.approvalId = some row :=
    Table.find?_eq_some_iff.2 ⟨hrow, hid⟩
  simp only [verifyBoundRequest, hfind] at hbound
  exact verifyRequestIdentity_eq_ok_iff.1 hbound

theorem fenceForCancellation_eq_ok {identity : ExpectedIdentity} {matched : Bool}
    (h : fenceForCancellation H db approvalId identity = .ok (matched, db')) :
    ∃ fences, db.fences ⊆ fences ∧ db' = { db with fences } := by
  simp only [fenceForCancellation, bind_eq_ok_iff] at h
  obtain ⟨-, -, current, -, h⟩ := h
  by_cases hmatch : identity.matchesRequest H current
  · simp only [hmatch, not_true, if_false] at h
    cases h
    refine ⟨_, ?_, rfl⟩
    by_cases hmem : approvalId ∈ db.fences
    · simp [hmem]
    · simp [hmem]
  · simp only [hmatch, not_false_iff, if_true] at h
    cases h
    exact ⟨db.fences, List.Subset.refl _, rfl⟩

end Updates

end AgentGateway.ApprovalStore
