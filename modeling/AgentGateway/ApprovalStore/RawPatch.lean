import AgentGateway.ApprovalStore.Prepared

/-!
# Raw patch authorizations

An approved raw patch is applied by one executor at a time: the executor claims the authorization,
keeps its lease alive, and either releases the claim or consumes the authorization by storing the
receipt of the patch.  A claim whose lease has run out may be taken over under a new token.

The claim and the receipt are rows of two tables.  Consuming an authorization deletes the claim and
stores the receipt; a claim looks at the table of claims only.

* `RawPatchUpdate` says what the operations do to the store.
* The `heldClaim_of` lemmas: only the executor whose token is stored gets anything done.
-/

namespace AgentGateway.ApprovalStore

open Py

variable {F M : Type} [PyFloat F] (env : Env F M)

/-! ## Canonical values -/

/-- `[0-9a-f]{64}` -/
def isHex64 (s : Str) : Bool :=
  decide (s.length = 64) && s.all fun p ↦ (Str.lit "0123456789abcdef").contains p

/-- A text that is `head` and 64 hexadecimal digits. -/
def isTaggedHex (head : Str) (s : Str) : Bool :=
  s.take head.length == head && isHex64 (s.drop head.length)

/-- `_DIGEST_RE` -/
def isDigest : Str → Bool := isTaggedHex (.lit "sha256:")

/-- `_CHANGE_SET_RE` -/
def isChangeSet : Str → Bool := isTaggedHex (.lit "reviewed-change:v1:")

def rawPatchError (message : String) : StoreError := .rawPatch (.lit message)

def requireDigest (value : Str) (label : String) : Except StoreError Unit :=
  require (isDigest value) (rawPatchError (label ++ " is not canonical"))

/-- The digest a receipt carries, if its bytes are canonical JSON and the digest is that of the
other members. -/
def receiptDigest (receipt : List UInt8) : Option Str := do
  let text ← decodeUtf8 receipt
  match identityJsonLoads (F := F) text with
  | some (.dict kvs) =>
    match kvs.lookup (.lit "receipt_digest") with
    | some (.str d) =>
      if (identityJsonDumps (.dict (kvs.filter fun kv ↦ kv.1 != .lit "receipt_digest"))).map
          (digestText env) = some d then some d else none
    | _ => none
  | _ => none

/-- `_digest`, of bytes that are canonical JSON. -/
def payloadDigest (payload : List UInt8) : Option Str := do
  let text ← decodeUtf8 payload
  let _ ← identityJsonLoads (F := F) text
  some (digestText env text)

/-! ## Validation -/

/-- What an executor says about the approval it executes. -/
structure RawPatchArgs where
  approvalId : Str
  approvalChainId : Str
  authorizationMode : AuthorizationMode
  grantReference : Option Str
  cacheReference : Option Str
  userId : Str
  toolName : Str
  argsHash : Str
  changeSetId : Str
  changeHash : Str
  baseVectorHash : Str
  reviewedChangeBindingDigest : Str
  executionSemanticsDigest : Str
  preparedPayloadDigest : Str
deriving DecidableEq

/-- The `expected` fields. -/
def RawPatchArgs.matchesRequest (a : RawPatchArgs) (r : ApprovalRequest) : Prop :=
  r.approvalChainId = a.approvalChainId ∧ r.authorizationMode = a.authorizationMode ∧
    r.grantReference = a.grantReference ∧ r.cacheReference = a.cacheReference ∧
    r.userId = a.userId ∧ r.toolName = a.toolName ∧ r.toolClass = .lit "state_write" ∧
    r.argsHash = a.argsHash ∧ r.change.identitySource = some (.lit "reviewed_change_binding") ∧
    r.change.changeSetId = some a.changeSetId ∧ r.change.changeHash = some a.changeHash ∧
    r.change.baseVectorHash = some a.baseVectorHash ∧
    r.change.reviewedChangeBindingDigest = some a.reviewedChangeBindingDigest ∧
    r.change.executionSemanticsDigest = some a.executionSemanticsDigest

instance (a : RawPatchArgs) (r : ApprovalRequest) : Decidable (a.matchesRequest r) :=
  inferInstanceAs (Decidable (_ ∧ _))

/-- `_validate_raw_patch_authorization_locked` -/
def validateRawPatch (db : Db) (a : RawPatchArgs) : Except StoreError Unit := do
  let request ← db.requireRequest a.approvalId
  require (a.matchesRequest request)
    (rawPatchError "approval identity changed before raw patch execution")
  require ((request.state = .approved ∨ request.state = .autoApproved) ∧
      request.decision = some request.state.text)
    (rawPatchError "approval outcome is not executable for raw patch execution")
  require (∃ p, db.rawPrepared.find? a.approvalId = some p ∧
      p.preparedPayloadDigest = a.preparedPayloadDigest)
    (rawPatchError "prepared patch identity changed before raw patch execution")

/-! ## Claims -/

/-- `RawPatchAuthorizationClaim.__post_init__` -/
def checkRawPatchClaim (c : RawPatchClaim) : Except StoreError Unit := do
  require (c.approvalId ≠ [] ∧ c.claimToken ≠ [])
    (rawPatchError "raw patch claim identity is incomplete")
  require (isChangeSet c.changeSetId) (rawPatchError "claim change_set_id is not canonical")
  requireDigest c.changeHash "claim change_hash"
  requireDigest c.preparedPayloadDigest "claim prepared payload"
  require (c.claimedAt ≤ c.leaseExpiresAt)
    (rawPatchError "claim lease cannot expire before it starts")

/-- The lease of `claim`, 120 seconds. -/
def claimLease : Int := 120 * 1000000

/-- The claim an executor asks for. -/
def RawPatchArgs.claim (a : RawPatchArgs) (now : Int) (token : Str) : RawPatchClaim where
  approvalId := a.approvalId
  claimToken := token
  changeSetId := a.changeSetId
  changeHash := a.changeHash
  preparedPayloadDigest := a.preparedPayloadDigest
  claimedAt := now
  leaseExpiresAt := now + claimLease

/-- Are two claims for the same patch? -/
def samePatch (a b : RawPatchClaim) : Prop :=
  a.changeSetId = b.changeSetId ∧ a.changeHash = b.changeHash ∧
    a.preparedPayloadDigest = b.preparedPayloadDigest

instance (a b : RawPatchClaim) : Decidable (samePatch a b) := inferInstanceAs (Decidable (_ ∧ _))

def Db.putRawClaim (db : Db) (c : RawPatchClaim) : Except StoreError Db := do
  let rawClaims ← requireSome (db.rawClaims.put? c) .integrity
  .ok { db with rawClaims }

/-- `claim`, which inserts a claim or takes one over whose lease has run out. -/
def claimOrTakeOver (db : Db) (candidate : RawPatchClaim) : Except StoreError Db :=
  match db.rawClaims.find? candidate.approvalId with
  | some current => do
    require (samePatch current candidate)
      (rawPatchError "authorization is already claimed by a different patch identity")
    require (current.leaseExpiresAt ≤ candidate.claimedAt)
      (rawPatchError "authorization already has an active execution claim")
    db.putRawClaim candidate
  | none => do
    let rawClaims ← requireSome (db.rawClaims.insert? candidate) .integrity
    .ok { db with rawClaims }

/-- `claim_raw_patch_authorization` -/
def claimRawPatch (db : Db) (now : Int) (token : Str) (a : RawPatchArgs) :
    Except StoreError (RawPatchClaim × Db) := do
  validateRawPatch db a
  checkRawPatchClaim (a.claim now token)
  let db ← claimOrTakeOver db (a.claim now token)
  .ok (a.claim now token, db)

/-- The claim an executor holds: `WHERE approval_id = ? AND claim_token = ?`. -/
def Db.heldClaim (db : Db) (approvalId token : Str) : Option RawPatchClaim :=
  (db.rawClaims.find? approvalId).filter fun c ↦ c.claimToken == token

/-- `heartbeat_raw_patch_authorization_claim`; the lease is `none` if it is not positive. -/
def heartbeatRawPatch (db : Db) (now : Int) (approvalId token : Str) (lease : Option Nat) :
    Except StoreError (RawPatchClaim × Db) := do
  let lease ← requireSome lease (rawPatchError "claim lease must be positive")
  let held ← requireSome (db.heldClaim approvalId token)
    (rawPatchError "raw patch claim changed before heartbeat")
  let renewed := { held with leaseExpiresAt := now + lease }
  let db ← db.putRawClaim renewed
  checkRawPatchClaim renewed
  .ok (renewed, db)

/-- `finalize_claim` and `release_claim` -/
def dropRawClaim (db : Db) (approvalId token : Str) (message : String) : Except StoreError Db := do
  require (db.heldClaim approvalId token ≠ none) (rawPatchError message)
  .ok { db with rawClaims := db.rawClaims.delete fun c ↦
    c.approvalId == approvalId && c.claimToken == token }

/-- `release_raw_patch_authorization_claim` -/
def releaseRawPatch (db : Db) (token : Str) (a : RawPatchArgs) : Except StoreError Db := do
  validateRawPatch db a
  dropRawClaim db a.approvalId token "raw patch claim changed before release"

/-! ## Consumption -/

/-- The receipt that is to be stored, if `RawPatchAuthorizationConsumption.__post_init__` accepts
it. -/
def rawPatchConsumption (now : Int) (a : RawPatchArgs) (receipt : List UInt8) :
    Except StoreError RawPatchConsumption := do
  require (a.approvalId.strip ≠ []) (rawPatchError "approval_id must be non-empty text")
  require (isChangeSet a.changeSetId) (rawPatchError "change_set_id is not canonical")
  requireDigest a.changeHash "change_hash"
  let digest ← requireSome (receiptDigest env receipt)
    (rawPatchError "receipt digest does not match its body")
  requireDigest digest "receipt_digest"
  .ok ⟨a.approvalId, a.changeSetId, a.changeHash, receipt, digest, now⟩

/-- `consume` -/
def storeConsumption (db : Db) (candidate : RawPatchConsumption) :
    Except StoreError ((RawPatchConsumption × Bool) × Db) :=
  match db.rawConsumptions.find? candidate.approvalId with
  | some current => do
    require (current.changeSetId = candidate.changeSetId ∧
        current.changeHash = candidate.changeHash ∧ current.receipt = candidate.receipt ∧
        current.receiptDigest = candidate.receiptDigest)
      (rawPatchError "authorization was already consumed by a different patch receipt")
    .ok ((current, false), db)
  | none => do
    let rawConsumptions ← requireSome (db.rawConsumptions.insert? candidate) .integrity
    .ok ((candidate, true), { db with rawConsumptions })

/-- The claim is the executor's, and for the patch it names. -/
def claimHolds (db : Db) (token : Str) (a : RawPatchArgs) : Prop :=
  ∃ c, db.heldClaim a.approvalId token = some c ∧ c.changeSetId = a.changeSetId ∧
    c.changeHash = a.changeHash ∧ c.preparedPayloadDigest = a.preparedPayloadDigest

instance (db : Db) (token : Str) (a : RawPatchArgs) : Decidable (claimHolds db token a) :=
  decidable_of_iff (∃ c ∈ db.heldClaim a.approvalId token, c.changeSetId = a.changeSetId ∧
    c.changeHash = a.changeHash ∧ c.preparedPayloadDigest = a.preparedPayloadDigest) Iff.rfl

/-- `consume_raw_patch_authorization` -/
def consumeRawPatch (db : Db) (now : Int) (token : Str) (a : RawPatchArgs) (receipt : List UInt8) :
    Except StoreError ((RawPatchConsumption × Bool) × Db) := do
  validateRawPatch db a
  require (claimHolds db token a)
    (rawPatchError "raw patch authorization claim changed before consumption")
  let candidate ← rawPatchConsumption env now a receipt
  let (stored, db) ← storeConsumption db candidate
  let db ← dropRawClaim db a.approvalId token "raw patch claim changed before finalization"
  .ok (stored, db)

/-! ## Preparation -/

/-- `bind_raw_patch_prepared_authorization` -/
def bindRawPatch (db : Db) (now : Int) (approvalId : Str) (payload : List UInt8) :
    Except StoreError (Bool × Db) := do
  let _ ← db.requireRequest approvalId
  require (approvalId.strip ≠ []) (rawPatchError "approval_id must be non-empty text")
  let digest ← requireSome (payloadDigest env payload)
    (rawPatchError "prepared payload must contain canonical JSON")
  match db.rawPrepared.find? approvalId with
  | some current => do
    require (current.preparedPayload = payload)
      (rawPatchError "authorization is already bound to different prepared patch bytes")
    .ok (false, db)
  | none => do
    let rawPrepared ← requireSome (db.rawPrepared.insert? ⟨approvalId, payload, digest, now⟩)
      .integrity
    .ok (true, { db with rawPrepared })

/-! ## What the operations do to the store -/

/-- Only the tables of raw patches changed, and at most one receipt was added. -/
def RawPatchUpdate (db db' : Db) : Prop :=
  ∃ rawPrepared rawClaims rawConsumptions,
    db' = { db with rawPrepared, rawClaims, rawConsumptions } ∧
      (rawConsumptions = db.rawConsumptions ∨
        ∃ c, db.rawConsumptions.insert? c = some rawConsumptions)

section Updates

variable {env : Env F M} {db db' : Db} {now : Int} {approvalId token : Str} {a : RawPatchArgs}

theorem RawPatchUpdate.of_rawClaims
    (h : ∃ rawClaims, db' = { db with rawClaims }) : RawPatchUpdate db db' := by
  obtain ⟨rawClaims, rfl⟩ := h
  exact ⟨db.rawPrepared, rawClaims, db.rawConsumptions, rfl, .inl rfl⟩

theorem Db.putRawClaim_eq_ok {c : RawPatchClaim} (h : db.putRawClaim c = .ok db') :
    ∃ rawClaims, db' = { db with rawClaims } := by
  simp only [Db.putRawClaim, bind_eq_ok_iff] at h
  obtain ⟨rawClaims, -, h⟩ := h
  cases h
  exact ⟨rawClaims, rfl⟩

theorem claimOrTakeOver_eq_ok {candidate : RawPatchClaim}
    (h : claimOrTakeOver db candidate = .ok db') : ∃ rawClaims, db' = { db with rawClaims } := by
  rw [claimOrTakeOver] at h
  split at h
  · simp only [bind_eq_ok_iff] at h
    obtain ⟨-, -, -, -, h⟩ := h
    exact Db.putRawClaim_eq_ok h
  · simp only [bind_eq_ok_iff] at h
    obtain ⟨rawClaims, -, h⟩ := h
    cases h
    exact ⟨rawClaims, rfl⟩

theorem claimRawPatch_update {claim : RawPatchClaim}
    (h : claimRawPatch db now token a = .ok (claim, db')) : RawPatchUpdate db db' := by
  simp only [claimRawPatch, bind_eq_ok_iff] at h
  obtain ⟨-, -, -, -, db₁, hclaim, h⟩ := h
  cases h
  exact .of_rawClaims (claimOrTakeOver_eq_ok hclaim)

theorem heartbeatRawPatch_update {lease : Option Nat} {claim : RawPatchClaim}
    (h : heartbeatRawPatch db now approvalId token lease = .ok (claim, db')) :
    RawPatchUpdate db db' := by
  simp only [heartbeatRawPatch, bind_eq_ok_iff] at h
  obtain ⟨lease, -, held, -, db₁, hput, -, -, h⟩ := h
  cases h
  exact .of_rawClaims (Db.putRawClaim_eq_ok hput)

theorem dropRawClaim_eq_ok {message : String}
    (h : dropRawClaim db approvalId token message = .ok db') :
    db.heldClaim approvalId token ≠ none ∧ ∃ rawClaims, db' = { db with rawClaims } := by
  simp only [dropRawClaim, bind_eq_ok_iff, require_eq_ok_iff] at h
  obtain ⟨-, hheld, h⟩ := h
  cases h
  exact ⟨hheld, _, rfl⟩

theorem releaseRawPatch_update (h : releaseRawPatch db token a = .ok db') :
    RawPatchUpdate db db' := by
  simp only [releaseRawPatch, bind_eq_ok_iff] at h
  obtain ⟨-, -, h⟩ := h
  exact .of_rawClaims (dropRawClaim_eq_ok h).2

theorem storeConsumption_eq_ok {candidate stored : RawPatchConsumption} {created : Bool}
    (h : storeConsumption db candidate = .ok ((stored, created), db')) :
    ∃ rawConsumptions, db' = { db with rawConsumptions } ∧
      (rawConsumptions = db.rawConsumptions ∨
        ∃ c, db.rawConsumptions.insert? c = some rawConsumptions) := by
  rw [storeConsumption] at h
  split at h
  · simp only [bind_eq_ok_iff] at h
    obtain ⟨-, -, h⟩ := h
    cases h
    exact ⟨db.rawConsumptions, rfl, .inl rfl⟩
  · simp only [bind_eq_ok_iff, requireSome_eq_ok_iff] at h
    obtain ⟨rawConsumptions, hins, h⟩ := h
    cases h
    exact ⟨rawConsumptions, rfl, .inr ⟨_, hins⟩⟩

theorem consumeRawPatch_update {receipt : List UInt8} {stored : RawPatchConsumption × Bool}
    (h : consumeRawPatch env db now token a receipt = .ok (stored, db')) :
    RawPatchUpdate db db' := by
  simp only [consumeRawPatch, bind_eq_ok_iff, Prod.exists] at h
  obtain ⟨-, -, -, -, candidate, -, consumption, created, db₁, hstore, db₂, hdrop, h⟩ := h
  cases h
  obtain ⟨rawConsumptions, rfl, hadded⟩ := storeConsumption_eq_ok hstore
  obtain ⟨-, rawClaims, rfl⟩ := dropRawClaim_eq_ok hdrop
  exact ⟨db.rawPrepared, rawClaims, rawConsumptions, rfl, hadded⟩

theorem bindRawPatch_update {payload : List UInt8} {bound : Bool}
    (h : bindRawPatch env db now approvalId payload = .ok (bound, db')) :
    RawPatchUpdate db db' := by
  simp only [bindRawPatch, bind_eq_ok_iff] at h
  obtain ⟨-, -, -, -, digest, -, h⟩ := h
  split at h
  · simp only [bind_eq_ok_iff] at h
    obtain ⟨-, -, h⟩ := h
    cases h
    exact .of_rawClaims ⟨db.rawClaims, rfl⟩
  · simp only [bind_eq_ok_iff] at h
    obtain ⟨rawPrepared, -, h⟩ := h
    cases h
    exact ⟨rawPrepared, db.rawClaims, db.rawConsumptions, rfl, .inl rfl⟩

/-! ## Who may do what -/

/-- The executor holds the claim that is stored. -/
def Db.holdsRawClaim (db : Db) (approvalId token : Str) : Prop :=
  ∃ c ∈ db.rawClaims.rows, c.approvalId = approvalId ∧ c.claimToken = token

theorem Db.holdsRawClaim_of_heldClaim {c : RawPatchClaim}
    (h : db.heldClaim approvalId token = some c) : db.holdsRawClaim approvalId token := by
  simp only [Db.heldClaim, Option.filter_eq_some_iff, beq_iff_eq] at h
  obtain ⟨hmem, hid⟩ := Table.find?_eq_some_iff.1 h.1
  exact ⟨c, hmem, hid, h.2⟩

theorem heldClaim_of_heartbeatRawPatch {lease : Option Nat} {claim : RawPatchClaim}
    (h : heartbeatRawPatch db now approvalId token lease = .ok (claim, db')) :
    db.holdsRawClaim approvalId token := by
  simp only [heartbeatRawPatch, bind_eq_ok_iff, requireSome_eq_ok_iff] at h
  obtain ⟨-, -, held, hheld, -⟩ := h
  exact Db.holdsRawClaim_of_heldClaim hheld

theorem heldClaim_of_releaseRawPatch (h : releaseRawPatch db token a = .ok db') :
    db.holdsRawClaim a.approvalId token := by
  simp only [releaseRawPatch, bind_eq_ok_iff] at h
  obtain ⟨-, -, h⟩ := h
  obtain ⟨c, hc⟩ := Option.ne_none_iff_exists'.1 (dropRawClaim_eq_ok h).1
  exact Db.holdsRawClaim_of_heldClaim hc

theorem heldClaim_of_consumeRawPatch {receipt : List UInt8} {stored : RawPatchConsumption × Bool}
    (h : consumeRawPatch env db now token a receipt = .ok (stored, db')) :
    db.holdsRawClaim a.approvalId token := by
  simp only [consumeRawPatch, bind_eq_ok_iff, require_eq_ok_iff] at h
  obtain ⟨-, -, -, ⟨c, hc, -⟩, -⟩ := h
  exact Db.holdsRawClaim_of_heldClaim hc

theorem validateRawPatch_of_claimRawPatch {claim : RawPatchClaim}
    (h : claimRawPatch db now token a = .ok (claim, db')) : validateRawPatch db a = .ok () := by
  simp only [claimRawPatch, bind_eq_ok_iff] at h
  obtain ⟨_, hvalid, -⟩ := h
  exact hvalid

end Updates

end AgentGateway.ApprovalStore
