import AgentGateway.ApprovalStore.Parking

/-!
# Prepared changes

A change of a business model is prepared once and bound to the request that is to approve it.  A new
request for the same locator may take a pending record over, unless the call of the old request has
been claimed; the old request then expires and its binding, which nobody has claimed, goes.

* `createOrGetWithPrepared_eq_ok` says what this does to the requests and the bindings.
-/

namespace AgentGateway.ApprovalStore

open Py

/-! ## The record -/

/-- `_immutable_identity(a) == _immutable_identity(b)` -/
def PreparedChange.sameIdentity (a b : PreparedChange) : Prop :=
  a.schemaVersion = b.schemaVersion ∧ a.locator = b.locator ∧ a.intentDigest = b.intentDigest ∧
    a.preparedPayload = b.preparedPayload ∧ a.changeSetId = b.changeSetId ∧
    a.changeHash = b.changeHash ∧ a.baseVectorHash = b.baseVectorHash ∧
    a.preparedPayloadDigest = b.preparedPayloadDigest ∧ a.expiresAt = b.expiresAt ∧
    a.approvalId = b.approvalId ∧ a.approvalChainId = b.approvalChainId

instance (a b : PreparedChange) : Decidable (a.sameIdentity b) :=
  inferInstanceAs (Decidable (_ ∧ _))

/-- Is it another change that was prepared? -/
def PreparedChange.differentIntent (current record : PreparedChange) : Prop :=
  current.intentDigest ≠ record.intentDigest ∨ current.preparedPayload ≠ record.preparedPayload ∨
    current.changeSetId ≠ record.changeSetId ∨ current.changeHash ≠ record.changeHash ∨
    current.baseVectorHash ≠ record.baseVectorHash ∨
    current.preparedPayloadDigest ≠ record.preparedPayloadDigest

instance (current record : PreparedChange) : Decidable (current.differentIntent record) :=
  inferInstanceAs (Decidable (_ ∨ _))

/-- The record that takes another's place starts without evidence. -/
def PreparedChange.withoutEvidence (c : PreparedChange) : PreparedChange :=
  { c with
    executionReceipt := none
    executionReceiptDigest := none
    restorationDigest := none
    checkpointId := none
    consumedAt := none }

def contradictoryIntent : StoreError :=
  .prepared (.lit "idempotency locator is already bound to contradictory intent")

/-- `insert_or_verify`: the stored record, and whether it was written. -/
def insertOrVerify (db : Db) (record : PreparedChange) :
    Except StoreError ((PreparedChange × Bool) × Db) := do
  require (record.lifecycle = .pending)
    (.prepared (.lit "new prepared business-model records must start PENDING"))
  match db.prepared.find? record.locator with
  | some current =>
    if current.sameIdentity record then .ok ((current, false), db)
    else do
      require (current.lifecycle = .pending ∧ current.approvalId ≠ record.approvalId ∧
        current.differentIntent record) contradictoryIntent
      .ok ((record, true), { db with prepared := db.prepared.put record.withoutEvidence })
  | none => do
    let prepared ← requireSome (db.prepared.insert? record) .integrity
    .ok ((record, true), { db with prepared })

/-! ## Binding a request to its record -/

/-- The requests for a call that were made last. -/
def Db.newestRequests (db : Db) (toolCallId : Str) : List ApprovalRequest :=
  let candidates := db.requests.rows.filter fun r ↦ decide (r.toolCallId = toolCallId)
  candidates.filter fun r ↦ candidates.all fun s ↦ decide (s.requestedAt ≤ r.requestedAt)

/-- `ORDER BY requested_at DESC LIMIT 1`; which of several newest rows it is is SQLite's choice. -/
def Db.newestRequest (db : Db) (toolCallId : Str) (choice : Nat) : Option ApprovalRequest :=
  (db.newestRequests toolCallId)[choice % (db.newestRequests toolCallId).length]?

/-- The columns in which a request that is used again must agree. -/
def sameIntent (stored request : ApprovalRequest) : Prop :=
  stored.toolName = request.toolName ∧ stored.argsHash = request.argsHash ∧
    stored.userId = request.userId ∧ stored.approvalConstraint = request.approvalConstraint ∧
    stored.requiredOwnerUserId = request.requiredOwnerUserId ∧
    stored.approvalReuseMode = request.approvalReuseMode ∧
    stored.approvalReuseKey = request.approvalReuseKey

instance (stored request : ApprovalRequest) : Decidable (sameIntent stored request) :=
  inferInstanceAs (Decidable (_ ∧ _))

/-- The request of the call, which is created if there is none. -/
def createOrGetRequest (H : Host) (db : Db) (choice : Nat) (request : ApprovalRequest) :
    Except StoreError ((ApprovalRequest × Bool) × Db) := do
  require (H.validRequest request) (.value (.lit "approval request is invalid"))
  match db.newestRequest request.toolCallId choice with
  | none => do
    let requests ← requireSome (db.requests.insert? request) .integrity
    .ok ((request, true), { db with requests })
  | some stored => do
    require (sameIntent stored request) (.prepared
      (.lit "approval tool-call identity conflicts with prepared BusinessModel intent"))
    .ok ((stored, false), db)

/-- The record, as it is stored for a request. -/
def PreparedChange.forRequest (record : PreparedChange) (request : ApprovalRequest) :
    PreparedChange :=
  { record with
    createdAt := request.requestedAt
    expiresAt := request.expiresAt
    approvalId := some request.approvalId
    approvalChainId := some request.approvalChainId }

/-- A pending record whose call was claimed is not taken over. -/
def requireUnclaimed (db : Db) (existing : Option PreparedChange) (request : ApprovalRequest) :
    Except StoreError Unit :=
  require (∀ p ∈ existing, p.lifecycle = .pending → p.approvalId ≠ some request.approvalId →
    ∀ id ∈ p.approvalId, ∀ row ∈ db.bindings.find? id, row.executionState = .unclaimed)
    contradictoryIntent

/-- Is it the binding of an approval, and nobody has claimed it? -/
def BindingRow.unclaimedOf (approvalId : Str) (r : BindingRow) : Bool :=
  decide (r.approvalId = approvalId ∧ r.executionState = .unclaimed)

/-- `DELETE` of the binding of an approval that nobody has claimed. -/
def Db.dropUnclaimed (db : Db) (approvalId : Str) : Db where
  __ := db
  bindings := db.bindings.delete (BindingRow.unclaimedOf approvalId)

/-- The approval whose place is taken: its unclaimed binding goes, and it expires. -/
def retirePredecessor (db : Db) (predecessorId : Str) (request : ApprovalRequest) :
    Except StoreError Db :=
  let db := db.dropUnclaimed predecessorId
  match db.requests.find? predecessorId with
  | none => .ok db
  | some predecessor => do
    require (predecessor.state ≠ .approved ∧ predecessor.state ≠ .autoApproved) contradictoryIntent
    if predecessor.undecided then do
      let (db, _) ← writeRequestTransition db (expiredBy predecessor request.requestedAt
        (Str.lit "superseded by " ++ request.approvalId)) none
      .ok db
    else .ok db

/-- `create_or_get_with_prepared_business_model_change` -/
def createOrGetWithPrepared (H : Host) (db : Db) (choice : Nat) (request : ApprovalRequest)
    (record : PreparedChange) :
    Except StoreError ((ApprovalRequest × PreparedChange × Bool) × Db) := do
  let ((stored, created), db) ← createOrGetRequest H db choice request
  let existing := db.prepared.find? record.locator
  requireUnclaimed db existing stored
  let ((storedRecord, written), db) ← insertOrVerify db (record.forRequest stored)
  match if written then existing.bind (·.approvalId) else none with
  | none => .ok ((stored, storedRecord, created), db)
  | some predecessorId =>
    if predecessorId = stored.approvalId then .ok ((stored, storedRecord, created), db)
    else do
      let db ← retirePredecessor db predecessorId stored
      .ok ((stored, storedRecord, created), db)

/-! ## What the operation does to the store -/

section Updates

variable {db db' : Db}

theorem insertOrVerify_eq_ok {record stored : PreparedChange} {written : Bool}
    (h : insertOrVerify db record = .ok ((stored, written), db')) :
    ∃ prepared, db' = { db with prepared } := by
  simp only [insertOrVerify, bind_eq_ok_iff] at h
  obtain ⟨-, -, h⟩ := h
  split at h
  next current _ =>
    by_cases hsame : current.sameIdentity record
    · rw [if_pos hsame] at h
      cases h
      exact ⟨db.prepared, rfl⟩
    · simp only [if_neg hsame, bind_eq_ok_iff] at h
      obtain ⟨-, -, h⟩ := h
      cases h
      exact ⟨_, rfl⟩
  · simp only [bind_eq_ok_iff] at h
    obtain ⟨prepared, -, h⟩ := h
    cases h
    exact ⟨prepared, rfl⟩

theorem createOrGetRequest_eq_ok {H : Host} {choice : Nat} {request stored : ApprovalRequest}
    {created : Bool} (h : createOrGetRequest H db choice request = .ok ((stored, created), db')) :
    ∃ requests, db' = { db with requests } ∧ KeepsRequests False db.requests requests := by
  simp only [createOrGetRequest, bind_eq_ok_iff] at h
  obtain ⟨-, -, h⟩ := h
  split at h
  · simp only [bind_eq_ok_iff, requireSome_eq_ok_iff] at h
    obtain ⟨requests, hins, h⟩ := h
    cases h
    exact ⟨requests, rfl, .of_insert? hins⟩
  · simp only [bind_eq_ok_iff] at h
    obtain ⟨-, -, h⟩ := h
    cases h
    exact ⟨db.requests, rfl, .refl _⟩

theorem retirePredecessor_eq_ok {predecessorId : Str} {request : ApprovalRequest}
    (h : retirePredecessor db predecessorId request = .ok db') :
    ∃ requests, KeepsRequests False db.requests requests ∧
      db' = { db with
        requests := requests
        bindings := db.bindings.delete (BindingRow.unclaimedOf predecessorId) } := by
  rw [retirePredecessor] at h
  split at h
  · cases h
    exact ⟨db.requests, .refl _, rfl⟩
  next predecessor hfind =>
    simp only [bind_eq_ok_iff] at h
    obtain ⟨-, -, h⟩ := h
    by_cases hopen : predecessor.undecided
    · simp only [if_pos hopen, bind_eq_ok_iff, Prod.exists] at h
      obtain ⟨db₁, wrote, hwrite, h⟩ := h
      cases h
      obtain ⟨-, rfl⟩ := Table.find?_eq_some_iff.1 hfind
      obtain ⟨requests, rfl, hkeeps⟩ := writeRequestTransition_keeps False hwrite hfind rfl
        fun _ _ ↦ .inl rfl
      exact ⟨requests, hkeeps, rfl⟩
    · rw [if_neg hopen] at h
      cases h
      exact ⟨db.requests, .refl _, rfl⟩

/-- **What a prepared change does**: requests are created and rewritten, and at most the unclaimed
binding of one approval goes. -/
theorem createOrGetWithPrepared_eq_ok {H : Host} {choice : Nat} {request stored : ApprovalRequest}
    {record storedRecord : PreparedChange} {created : Bool}
    (h : createOrGetWithPrepared H db choice request record =
      .ok ((stored, storedRecord, created), db')) :
    ∃ requests prepared bindings, db' = { db with requests, prepared, bindings } ∧
      KeepsRequests False db.requests requests ∧
      (bindings = db.bindings ∨ ∃ predecessorId,
        bindings = db.bindings.delete (BindingRow.unclaimedOf predecessorId)) := by
  simp only [createOrGetWithPrepared, bind_eq_ok_iff, Prod.exists] at h
  obtain ⟨stored', created', db₁, hcreate, -, -, storedRecord', written, db₂, hinsert, h⟩ := h
  obtain ⟨requests, rfl, hkeeps⟩ := createOrGetRequest_eq_ok hcreate
  obtain ⟨prepared, rfl⟩ := insertOrVerify_eq_ok hinsert
  split at h
  · cases h
    exact ⟨requests, prepared, db.bindings, rfl, hkeeps, .inl rfl⟩
  next predecessorId _ =>
    by_cases hsame : predecessorId = stored'.approvalId
    · rw [if_pos hsame] at h
      cases h
      exact ⟨requests, prepared, db.bindings, rfl, hkeeps, .inl rfl⟩
    · simp only [if_neg hsame, bind_eq_ok_iff] at h
      obtain ⟨db₃, hretire, h⟩ := h
      cases h
      obtain ⟨requests', hkeeps', rfl⟩ := retirePredecessor_eq_ok hretire
      exact ⟨requests', prepared, _, rfl, hkeeps.trans hkeeps', .inr ⟨predecessorId, rfl⟩⟩

end Updates

end AgentGateway.ApprovalStore
