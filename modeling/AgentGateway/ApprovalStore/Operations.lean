import AgentGateway.ApprovalStore.RawPatch
import AgentGateway.Py.Runs

/-!
# The approval store as a state machine

`Op` lists the operations of the store, each with its arguments and with the readings of the clock
and the names it draws.  An operation is one transaction: `Db.step` runs its body, and if the body
raises the database stays as it was.  A run is a list of operations, and `Db.after` the database it
ends with; which process an operation comes from does not matter.

* `Op.effect` sorts the operations by what they do to the tables, so that an invariant of the store
  is proved once for each kind of effect and not once for each operation.
-/

namespace AgentGateway.ApprovalStore

open Py

variable {F M : Type} [PyFloat F]

/-- The operations of the store. -/
inductive Op (F M : Type) where
  | create (request : ApprovalRequest)
  | updateRequest (request : ApprovalRequest)
  | recordVote (nowNs : Int) (approvalId : Str) (vote : ApprovalVote)
    (delivery : Option DeliveryContext)
  | transitionState (nowNs : Int) (approvalId : Str) (t : Transition)
  | terminalizePending (readNs insertNs : Int) (approvalId : Str) (c : Cancellation)
  | abortUnpublished (nowNs : Int) (approvalId : Str) (identity : ExpectedIdentity) (reason : Str)
  | fenceForCancellation (approvalId : Str) (identity : ExpectedIdentity)
  | recordExecutableBinding (a : BindingArgs F)
  | park (nowNs : Int) (a : BindingArgs F) (policyGenerationRef : Option Str)
  | reissue (nowNs turnNs expiryNs : Int) (fresh : FreshNames) (a : ReissueArgs)
  | createOrGetWithPrepared (choice : Nat) (request : ApprovalRequest) (record : PreparedChange)
  | claimExecutableBinding (b : ExecutableBinding F) (version : Int) (token : Str)
  | completeExecutableBinding (b : ExecutableBinding F) (version : Int) (token : Str)
    (result : ToolResult F M)
  | recordPolicyGeneration (g : PolicyGeneration)
  | recordRootTurn (nowNs : Int) (a : RootTurnArgs F)
  | linkRootTurn (jobId turnId toolCallId nonce tenantStorageId : Str)
  | auditRead (k : DeliveryKey)
  | auditCommit (nowNs : Int) (t : AuditTicket)
  | appendTransaction (nowNs : Int) (k : DeliveryKey) (approved bodyReturns : Bool)
  | reconcileDuplicate (nowNs : Int) (k : DeliveryKey) (approved : Bool)
  | acknowledge (nowNs : Int) (approvalId : Str) (context : DeliveryContext) (approved : Bool)
    (decidedAtNs : Int)
  | recordFailure (nowNs : Int) (k : DeliveryKey) (error : Str)
  | quarantine (nowNs : Int) (k : DeliveryKey) (error : Str)
  | bindRawPatch (now : Int) (approvalId : Str) (payload : List UInt8)
  | claimRawPatch (now : Int) (token : Str) (a : RawPatchArgs)
  | heartbeatRawPatch (now : Int) (approvalId token : Str) (lease : Option Nat)
  | releaseRawPatch (token : Str) (a : RawPatchArgs)
  | consumeRawPatch (now : Int) (token : Str) (a : RawPatchArgs) (receipt : List UInt8)
  /-- the edge takes and releases reservations -/
  | reserve (reservations : List Reservation)

/-- The body of an operation, without what it returns. -/
def Op.body (env : Env F M) (db : Db) : Op F M → Except StoreError Db
  | .create request => ApprovalStore.create env.toHost db request
  | .updateRequest request => ApprovalStore.updateRequest env.toHost db request
  | .recordVote nowNs approvalId vote delivery =>
    (ApprovalStore.recordVote env.toHost db nowNs approvalId vote delivery).map Prod.snd
  | .transitionState nowNs approvalId t => ApprovalStore.transitionState db nowNs approvalId t
  | .terminalizePending readNs insertNs approvalId c =>
    (ApprovalStore.terminalizePending env.toHost db readNs insertNs approvalId c).map Prod.snd
  | .abortUnpublished nowNs approvalId identity reason =>
    (ApprovalStore.abortUnpublished env.toHost db nowNs approvalId identity reason).map Prod.snd
  | .fenceForCancellation approvalId identity =>
    (ApprovalStore.fenceForCancellation env.toHost db approvalId identity).map Prod.snd
  | .recordExecutableBinding a => ApprovalStore.recordExecutableBinding env db a
  | .park nowNs a policyGenerationRef =>
    (ApprovalStore.park env db nowNs a policyGenerationRef).map Prod.snd
  | .reissue nowNs turnNs expiryNs fresh a =>
    (ApprovalStore.reissue env db nowNs turnNs expiryNs fresh a).map Prod.snd
  | .createOrGetWithPrepared choice request record =>
    (ApprovalStore.createOrGetWithPrepared env.toHost db choice request record).map Prod.snd
  | .claimExecutableBinding b version token =>
    (ApprovalStore.claimExecutableBinding env db b version token).map Prod.snd
  | .completeExecutableBinding b version token result =>
    ApprovalStore.completeExecutableBinding env db b version token result
  | .recordPolicyGeneration g => ApprovalStore.recordPolicyGeneration db g
  | .recordRootTurn nowNs a => ApprovalStore.recordRootTurn db nowNs a
  | .linkRootTurn jobId turnId toolCallId nonce tenantStorageId =>
    ApprovalStore.linkRootTurn db jobId turnId toolCallId nonce tenantStorageId
  | .auditRead k => (ApprovalStore.auditRead env.toHost db k).map fun _ ↦ db
  | .auditCommit nowNs t => ApprovalStore.auditCommit db nowNs t
  | .appendTransaction nowNs k approved bodyReturns =>
    ApprovalStore.appendTransaction db nowNs k approved bodyReturns
  | .reconcileDuplicate nowNs k approved => ApprovalStore.reconcileDuplicate db nowNs k approved
  | .acknowledge nowNs approvalId context approved decidedAtNs =>
    ApprovalStore.acknowledge db nowNs approvalId context approved decidedAtNs
  | .recordFailure nowNs k error => ApprovalStore.recordFailure db nowNs k error
  | .quarantine nowNs k error => ApprovalStore.quarantine db nowNs k error
  | .bindRawPatch now approvalId payload =>
    (ApprovalStore.bindRawPatch env db now approvalId payload).map Prod.snd
  | .claimRawPatch now token a => (ApprovalStore.claimRawPatch db now token a).map Prod.snd
  | .heartbeatRawPatch now approvalId token lease =>
    (ApprovalStore.heartbeatRawPatch db now approvalId token lease).map Prod.snd
  | .releaseRawPatch token a => ApprovalStore.releaseRawPatch db token a
  | .consumeRawPatch now token a receipt =>
    (ApprovalStore.consumeRawPatch env db now token a receipt).map Prod.snd
  | .reserve reservations => .ok { db with reservations }

/-- The database after an operation, which is rolled back if it raises. -/
def Db.step (env : Env F M) (db : Db) (op : Op F M) : Db :=
  match op.body env db with
  | .ok db' => db'
  | .error _ => db

/-- The database after a run. -/
def Db.after (env : Env F M) (db : Db) (ops : List (Op F M)) : Db := runs (Db.step env) db ops

/-- An operation either returns, or changes nothing. -/
theorem Db.step_cases (env : Env F M) (db : Db) (op : Op F M) :
    db.step env op = db ∨ op.body env db = .ok (db.step env op) := by
  rw [Db.step]
  cases h : op.body env db with
  | error => exact .inl rfl
  | ok => exact .inr rfl

theorem Db.step_of_ok {env : Env F M} {db db' : Db} {op : Op F M} (h : op.body env db = .ok db') :
    db.step env op = db' := by
  rw [Db.step, h]

/-! ## Kinds of effects -/

/-- Does the operation approve a request that has been refused? -/
def Op.overrules (db : Db) : Op F M → Prop
  | .transitionState _ approvalId t => ApprovalStore.overrules db approvalId t
  | _ => False

/-- What an operation that returns can do to the tables. -/
inductive Effect (env : Env F M) (db : Db) : Op F M → Db → Prop
  | decision {op : Op F M} {db' : Db} (h : DecisionUpdate (op.overrules db) db db') :
    Effect env db op db'
  | outbox {op : Op F M} {db' : Db} (h : OutboxUpdate db db') : Effect env db op db'
  | fence {op : Op F M} {fences : List Str} (h : db.fences ⊆ fences) :
    Effect env db op { db with fences }
  | update {request current : ApprovalRequest}
    (hcurrent : db.requests.find? request.approvalId = some current)
    (hidentity : current.identityFields = request.identityFields)
    (hbound : ∀ row ∈ db.bindings.rows, row.approvalId = request.approvalId →
      row.identifies request) :
    Effect env db (.updateRequest request)
      { db with requests := db.requests.put (current.withUpdate request) }
  | record {op : Op F M} {row : BindingRow}
    {bindings : Indexed BindingRow BindingRow.approvalId BindingRow.call}
      {request : ApprovalRequest}
    (hrequest : db.requests.find? row.approvalId = some request) (hrow : row.identifies request)
    (hunclaimed : row.executionState = .unclaimed)
      (hins : db.bindings.insert? row = some bindings) :
    Effect env db op { db with bindings }
  | park {op : Op F M} {nowNs : Int} {args : BindingArgs F} {p : Payload F}
    {policyGenerationRef : Option Str} {nonce : Str} {db' : Db}
    (hp : executableBindingPayload args = .ok p)
    (h : parkExecutableBinding env db nowNs p policyGenerationRef = .ok (nonce, db')) :
    Effect env db op db'
  | reissue {nowNs turnNs expiryNs : Int} {fresh : FreshNames} {a : ReissueArgs} {issued : Reissued}
    {db' : Db} (h : ApprovalStore.reissue env db nowNs turnNs expiryNs fresh a =
      .ok (issued, db')) :
    Effect env db (.reissue nowNs turnNs expiryNs fresh a) db'
  | prepared {op : Op F M} {requests : Table ApprovalRequest ApprovalRequest.approvalId}
    {prepared : Table PreparedChange PreparedChange.locator}
    {bindings : Indexed BindingRow BindingRow.approvalId BindingRow.call}
    (hkeeps : KeepsRequests False db.requests requests)
    (hbindings : bindings = db.bindings ∨ ∃ predecessorId,
      bindings = db.bindings.delete (BindingRow.unclaimedOf predecessorId)) :
    Effect env db op { db with requests, prepared, bindings }
  | claim {b : ExecutableBinding F} {version : Int} {token : Str}
    {result : Option (ToolResult F M)} {db' : Db}
    (h : ApprovalStore.claimExecutableBinding env db b version token = .ok (result, db')) :
    Effect env db (.claimExecutableBinding b version token) db'
  | complete {b : ExecutableBinding F} {version : Int} {token : Str} {result : ToolResult F M}
    {db' : Db}
    (h : ApprovalStore.completeExecutableBinding env db b version token result = .ok db') :
    Effect env db (.completeExecutableBinding b version token result) db'
  | turns {op : Op F M} {generations : Table PolicyGeneration PolicyGeneration.generationRef}
    {rootTurns : Table RootTurn fun t ↦ (t.jobId, t.turnId)} :
    Effect env db op { db with generations, rootTurns }
  | rawPatch {op : Op F M} {db' : Db} (h : RawPatchUpdate db db') : Effect env db op db'
  | reserve {op : Op F M} {reservations : List Reservation} :
    Effect env db op { db with reservations }

/-- **Every operation that returns has one of these effects.** -/
theorem Op.effect {env : Env F M} {db db' : Db} {op : Op F M} (h : op.body env db = .ok db') :
    Effect env db op db' := by
  cases op with
  | create => exact .decision (create_update h)
  | updateRequest =>
    obtain ⟨current, hcurrent, hidentity, hbound, rfl⟩ := updateRequest_eq_ok h
    exact .update hcurrent hidentity hbound
  | recordVote =>
    obtain ⟨⟨decided, db₁⟩, hop, rfl⟩ := map_eq_ok_iff.1 h
    exact .decision (recordVote_update hop)
  | transitionState => exact .decision (transitionState_update h)
  | terminalizePending =>
    obtain ⟨⟨reply, db₁⟩, hop, rfl⟩ := map_eq_ok_iff.1 h
    exact .decision (terminalizePending_update hop)
  | abortUnpublished =>
    obtain ⟨⟨reply, db₁⟩, hop, rfl⟩ := map_eq_ok_iff.1 h
    exact .decision (abortUnpublished_update hop)
  | fenceForCancellation =>
    obtain ⟨⟨matched, db₁⟩, hop, rfl⟩ := map_eq_ok_iff.1 h
    obtain ⟨fences, hsub, hdb⟩ := fenceForCancellation_eq_ok hop
    rw [hdb]
    exact .fence hsub
  | recordExecutableBinding =>
    rcases recordExecutableBinding_eq_ok h with
      rfl | ⟨row, bindings, request, hrequest, hrow, hunclaimed, hins, rfl⟩
    · exact .outbox (.refl _)
    · exact .record hrequest hrow hunclaimed hins
  | park =>
    obtain ⟨⟨nonce, db₁⟩, hop, rfl⟩ := map_eq_ok_iff.1 h
    simp only [ApprovalStore.park, bind_eq_ok_iff] at hop
    obtain ⟨p, hp, hop⟩ := hop
    exact .park hp hop
  | reissue =>
    obtain ⟨⟨issued, db₁⟩, hop, rfl⟩ := map_eq_ok_iff.1 h
    exact .reissue hop
  | createOrGetWithPrepared =>
    obtain ⟨⟨⟨stored, storedRecord, created⟩, db₁⟩, hop, rfl⟩ := map_eq_ok_iff.1 h
    obtain ⟨requests, prepared, bindings, hdb, hkeeps, hbindings⟩ :=
      createOrGetWithPrepared_eq_ok hop
    rw [hdb]
    exact .prepared hkeeps hbindings
  | claimExecutableBinding =>
    obtain ⟨⟨result, db₁⟩, hop, rfl⟩ := map_eq_ok_iff.1 h
    exact .claim hop
  | completeExecutableBinding => exact .complete h
  | recordPolicyGeneration =>
    obtain ⟨generations, rfl⟩ := recordPolicyGeneration_eq_ok h
    exact .turns
  | recordRootTurn =>
    obtain ⟨rootTurns, rfl⟩ := recordRootTurn_eq_ok h
    exact .turns
  | linkRootTurn =>
    obtain ⟨rootTurns, rfl⟩ := linkRootTurn_eq_ok h
    exact .turns
  | auditRead =>
    obtain ⟨ticket, -, rfl⟩ := map_eq_ok_iff.1 h
    exact .outbox (.refl _)
  | auditCommit => exact .outbox (auditCommit_update h)
  | appendTransaction => exact .outbox (appendTransaction_update h)
  | reconcileDuplicate => exact .outbox (reconcileDuplicate_update h)
  | acknowledge =>
    exact .outbox (acknowledge_update h)
  | recordFailure => exact .outbox (recordFailure_update h)
  | quarantine => exact .outbox (quarantine_update h)
  | bindRawPatch =>
    obtain ⟨⟨bound, db₁⟩, hop, rfl⟩ := map_eq_ok_iff.1 h
    exact .rawPatch (bindRawPatch_update hop)
  | claimRawPatch =>
    obtain ⟨⟨claim, db₁⟩, hop, rfl⟩ := map_eq_ok_iff.1 h
    exact .rawPatch (claimRawPatch_update hop)
  | heartbeatRawPatch =>
    obtain ⟨⟨claim, db₁⟩, hop, rfl⟩ := map_eq_ok_iff.1 h
    exact .rawPatch (heartbeatRawPatch_update hop)
  | releaseRawPatch => exact .rawPatch (releaseRawPatch_update h)
  | consumeRawPatch =>
    obtain ⟨⟨stored, db₁⟩, hop, rfl⟩ := map_eq_ok_iff.1 h
    exact .rawPatch (consumeRawPatch_update hop)
  | reserve =>
    cases h
    exact .reserve

/-! ## A small store -/

/-- Surroundings in which everything can be computed. -/
def sampleEnv : Env NumToken Unit where
  sha256 s := s
  lower s := s
  validRequest _ := true
  jsonEq v w := v.asciiText == w.asciiText
  dump _ _ := .null
  validate _ _ := some ()

/-- A request as it is created. -/
def sampleRequest (approvalId toolCallId : Str) : ApprovalRequest where
  approvalId := approvalId
  toolCallId := toolCallId
  approvalChainId := .lit "chain"
  requestId := .lit "run"
  sessionId := some (.lit "job")
  runId := some (.lit "run")
  userId := .lit "user"
  channel := .lit "web"
  toolName := .lit "tool"
  toolClass := .lit "state_write"
  argsHash := .lit "args"
  state := .created
  stateVersion := 0
  requestedAt := 0
  decidedAt := none
  expiresAt := none
  deciderId := none
  deciderRole := none
  decision := none
  decisionReason := none
  policyId := .lit "policy"
  policyVersion := .lit "1"
  policyBundleHash := .lit "bundle"
  approvalConstraint := .standard
  requiredOwnerUserId := none
  approvalReuseMode := .disabled
  approvalReuseKey := none
  change := ⟨none, none, none, none, none, none, none⟩
  authorizationMode := .human
  grantReference := none
  cacheReference := none

/-- A transition that fills in nothing but the state. -/
def sampleTransition (state : ApprovalState) : Transition :=
  ⟨state, none, none, none, none, none, none⟩

end AgentGateway.ApprovalStore
