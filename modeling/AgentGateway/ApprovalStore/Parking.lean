import AgentGateway.ApprovalStore.Bindings

/-!
# Parking, root turns and re-issue

A call that has to wait is parked: its binding is written for the approval it waits for, and the
root turn it belongs to is linked to it by the nonce it was published under.  Parking again may move
a binding, to another call of the same approval or to another approval for the same call, but never
one whose call was claimed.

When the policy generation changes, a parked call is issued again: a new approval takes the binding
over under a new nonce and a new root turn, and its predecessor expires with a reason that names it.

* `parkExecutableBinding_eq_ok` says what parking does to the requests and the bindings.
* `reissue_eq_ok` takes a re-issue apart into the smaller operations it is made of.
-/

namespace AgentGateway.ApprovalStore

open Py

variable {F M : Type} [PyFloat F] (env : Env F M)

/-! ## Root turns -/

/-- The generation of a policy. -/
def policyGeneration (policyId policyVersion policyBundleHash : Str) : PolicyGeneration where
  generationRef := Str.lit "approval-policy:" ++ digestText env
    (Json.asciiText (F := F) (.dict [(.lit "policy_id", .str policyId),
      (.lit "policy_version", .str policyVersion),
      (.lit "policy_bundle_hash", .str policyBundleHash)]))
  policyId := policyId
  policyVersion := policyVersion
  policyBundleHash := policyBundleHash

/-- `record_policy_generation`, without the pointer to the current one. -/
def recordPolicyGeneration (db : Db) (g : PolicyGeneration) : Except StoreError Db :=
  match db.generations.find? g.generationRef with
  | some existing => do
    require (existing = g) (.rootTurn .snapshotMismatch)
    .ok db
  | none => do
    let generations ← requireSome (db.generations.insert? g) .integrity
    .ok { db with generations }

/-- The arguments of `record_root_turn`; a mapping that may be missing is `null` if it is. -/
structure RootTurnArgs (F : Type) where
  jobId : Str
  turnId : Str
  tenantStorageId : Str
  capabilityBind : Json F
  credentialGenerationRef : Option Str
  effectiveGrant : Json F
  researchBinding : Json F
  selectionSnapshot : Json F
  selectionProvenance : Json F
  approvalRouteKind : Str
  policyGenerationRef : Str
  createdAt : Option Int

/-- The row of a root turn, and the snapshot a repeated record is compared with. -/
def RootTurnArgs.row (a : RootTurnArgs F) (createdAt : Int) (refs : List ExecutableRef) :
    Option RootTurn := do
  some
    { jobId := a.jobId
      turnId := a.turnId
      tenantStorageId := a.tenantStorageId
      capabilityBindJson := ← identityJsonDumps a.capabilityBind
      credentialGenerationRef := a.credentialGenerationRef
      effectiveGrantJson := ← identityJsonDumps a.effectiveGrant
      researchBindingJson := ← identityJsonDumps a.researchBinding
      selectionSnapshotJson := ← identityJsonDumps a.selectionSnapshot
      selectionProvenanceJson := ← identityJsonDumps a.selectionProvenance
      approvalRouteKind := a.approvalRouteKind
      policyGenerationRef := a.policyGenerationRef
      createdAt := createdAt
      executableRefs := refs }

/-- `_record_root_turn_locked` -/
def recordRootTurn (db : Db) (nowNs : Int) (a : RootTurnArgs F) : Except StoreError Db :=
  match db.rootTurns.find? (a.jobId, a.turnId) with
  | some existing => do
    let row ← requireSome (a.row (a.createdAt.getD existing.createdAt) existing.executableRefs)
      (.rootTurn .snapshotMismatch)
    require (existing.tenantStorageId = a.tenantStorageId) (.rootTurn .tenantMismatch)
    require (existing = row) (.rootTurn .snapshotMismatch)
    .ok db
  | none => do
    let row ← requireSome (a.row (a.createdAt.getD (microseconds nowNs)) [])
      (.rootTurn .snapshotMismatch)
    require ((db.generations.find? a.policyGenerationRef).isSome) .integrity
    let rootTurns ← requireSome (db.rootTurns.insert? row) .integrity
    .ok { db with rootTurns }

/-- `_root_turn_record_from_row` checks that the documents of the turn can be read. -/
def RootTurn.args (t : RootTurn) : Option (RootTurnArgs F) := do
  some
    { jobId := t.jobId
      turnId := t.turnId
      tenantStorageId := t.tenantStorageId
      capabilityBind := ← identityJsonLoads t.capabilityBindJson
      credentialGenerationRef := t.credentialGenerationRef
      effectiveGrant := ← identityJsonLoads t.effectiveGrantJson
      researchBinding := ← identityJsonLoads t.researchBindingJson
      selectionSnapshot := ← identityJsonLoads t.selectionSnapshotJson
      selectionProvenance := ← identityJsonLoads t.selectionProvenanceJson
      approvalRouteKind := t.approvalRouteKind
      policyGenerationRef := t.policyGenerationRef
      createdAt := some t.createdAt }

/-- The turns of a job that hold a reference, one entry for each time it is held. -/
def Db.turnsHolding (db : Db) (jobId tenantStorageId : Str) (ref : ExecutableRef) : List RootTurn :=
  (db.rootTurns.rows.filter fun t ↦
      decide (t.jobId = jobId ∧ t.tenantStorageId = tenantStorageId)).flatMap fun t ↦
    (t.executableRefs.filter fun r ↦ decide (r = ref)).map fun _ ↦ t

def RootTurn.withRef (t : RootTurn) (ref : ExecutableRef) : RootTurn :=
  { t with executableRefs := t.executableRefs ++ [ref] }

/-- A turn may be linked to the nonce of the binding, and before there is one to a call that has a
request. -/
def requireLinkable (db : Db) (jobId toolCallId nonce tenantStorageId : Str) :
    Option BindingRow → Except StoreError Unit
  | none =>
    require (∃ r ∈ db.requests.rows, r.sessionId = some jobId ∧ r.toolCallId = toolCallId ∧
      r.userId = tenantStorageId) (.binding .missingBinding)
  | some b => do
    require (b.tenantStorageId = tenantStorageId) (.binding .tenantMismatch)
    require (b.nonce = nonce) (.binding .nonceMismatch)

/-- `_link_root_turn_executable_binding_locked` -/
def linkRootTurn (db : Db) (jobId turnId toolCallId nonce tenantStorageId : Str) :
    Except StoreError Db := do
  let root ← requireSome (db.rootTurns.find? (jobId, turnId)) (.rootTurn .missingRootTurn)
  require (root.tenantStorageId = tenantStorageId) (.rootTurn .tenantMismatch)
  let held := db.bindingOfCall (jobId, toolCallId)
  requireLinkable db jobId toolCallId nonce tenantStorageId held
  -- a captured call's current nonce belongs to one turn; older nonces stay where they were issued
  require (∀ t ∈ db.rootTurns.rows, t.jobId = jobId → ∀ ref ∈ t.executableRefs,
      ref.toolCallId = toolCallId → (∀ b ∈ held, ref.nonce = b.nonce) → t.turnId = turnId)
    (.rootTurn .turnLinkMismatch)
  if (⟨toolCallId, nonce⟩ : ExecutableRef) ∈ root.executableRefs then .ok db
  else .ok { db with rootTurns := db.rootTurns.put (root.withRef ⟨toolCallId, nonce⟩) }

/-! ## Parking -/

/-- `request.state in {"created", "pending_user"}` -/
def ApprovalRequest.undecided (r : ApprovalRequest) : Prop :=
  r.state = .created ∨ r.state = .pendingUser

instance (r : ApprovalRequest) : Decidable r.undecided := inferInstanceAs (Decidable (_ ∨ _))

/-- `_linked_root_generation_locked` -/
def linkedRootGeneration (db : Db) (row : BindingRow) : Option Str :=
  match db.turnsHolding row.jobId row.tenantStorageId ⟨row.toolCallId, row.nonce⟩ with
  | [t] => some t.policyGenerationRef
  | _ => none

/-- Is the binding of an approval of an older generation, which the new approval supersedes? -/
def supersedes (db : Db) (policyGenerationRef : Option Str) (existing : BindingRow)
    (holder : ApprovalRequest) : Prop :=
  policyGenerationRef ≠ none ∧
    (holder.state = .created ∨ holder.state = .pendingUser ∨ holder.state = .approved) ∧
    linkedRootGeneration db existing ≠ none ∧
    linkedRootGeneration db existing ≠ policyGenerationRef

instance (db : Db) (policyGenerationRef : Option Str) (existing : BindingRow)
    (holder : ApprovalRequest) : Decidable (supersedes db policyGenerationRef existing holder) :=
  inferInstanceAs (Decidable (_ ∧ _))

/-- What becomes of a binding that is in the way: may it go, and is its approval superseded? -/
def parkOver (db : Db) (policyGenerationRef : Option Str) (row : BindingRow)
    (request holder : ApprovalRequest) (existing : BindingRow) : Except StoreError Bool := do
  require (existing.tenantStorageId = row.tenantStorageId) (.binding .tenantMismatch)
  require (existing.toolName = row.toolName ∧ existing.executionState = .unclaimed)
    (.binding .callIdentityMismatch)
  if existing.approvalId = row.approvalId then do
    require request.undecided (.binding .callIdentityMismatch)
    .ok false
  else if supersedes db policyGenerationRef existing holder then .ok true
  else do
    require (holder.state = .denied ∨ holder.state = .autoDenied ∨ holder.state = .expired)
      (.binding .callIdentityMismatch)
    .ok false

/-- The loop over the bindings in the way: the nonce that is published, and the approvals that are
superseded.  A call that is already bound keeps its nonce, unless its approval is superseded. -/
def parkScan (db : Db) (policyGenerationRef : Option Str) (row : BindingRow)
    (request : ApprovalRequest) :
    List (BindingRow × ApprovalRequest) → Str → Except StoreError (Str × List Str)
  | [], nonce => .ok (nonce, [])
  | (existing, holder) :: rest, nonce => do
    let superseded ← parkOver db policyGenerationRef row request holder existing
    let (published, ids) ← parkScan db policyGenerationRef row request rest
      (if superseded = false ∧ existing.call = row.call then existing.nonce else nonce)
    .ok (published, if superseded then existing.approvalId :: ids else ids)

/-- The bindings in the way, each with its request. -/
def Db.boundRequests (db : Db) (row : BindingRow) : List (BindingRow × ApprovalRequest) :=
  (db.bindingsFor row).filterMap fun r ↦ (db.requests.find? r.approvalId).map (r, ·)

def reissuedAs (approvalId : Str) : Str :=
  Str.lit "approval policy generation changed; re-issued as " ++ approvalId

/-- A request that expires because another takes its place. -/
def expiredBy (r : ApprovalRequest) (decidedAt : Int) (reason : Str) : ApprovalRequest :=
  { r with
    state := .expired
    stateVersion := r.stateVersion + 1
    decidedAt := some decidedAt
    decision := some ApprovalState.expired.text
    decisionReason := some reason }

/-- The superseded approvals expire. -/
def expireAll (db : Db) (decidedAt : Int) (reason : Str) : List Str → Except StoreError Db
  | [] => .ok db
  | id :: ids => do
    let predecessor ← requireSome (db.requests.find? id) (.binding .missingBinding)
    let (db, _) ← writeRequestTransition db (expiredBy predecessor decidedAt reason) none
    expireAll db decidedAt reason ids

/-- The request moves to the call that is parked. -/
def moveRequest (db : Db) (request : ApprovalRequest) (toolCallId : Str) : Except StoreError Db :=
  if request.toolCallId = toolCallId then .ok db
  else do
    require request.undecided (.binding .callIdentityMismatch)
    .ok { db with requests := db.requests.put { request with toolCallId } }

/-- The binding takes the place of those in its way. -/
def replaceBindings (db : Db) (row : BindingRow) : Except StoreError Db := do
  let bindings ← requireSome ((db.bindings.delete row.clashes).insert? row) .integrity
  .ok { db with bindings }

/-- `_park_executable_binding_locked`: the nonce that is published. -/
def parkExecutableBinding (db : Db) (nowNs : Int) (p : Payload F)
    (policyGenerationRef : Option Str) : Except StoreError (Str × Db) := do
  let request ← requireSome (db.requests.find? p.row.approvalId) (.binding .missingBinding)
  let (nonce, superseded) ←
    parkScan db policyGenerationRef p.row request (db.boundRequests p.row) p.row.nonce
  let db ← moveRequest db request p.row.toolCallId
  let row := { p.row with nonce }
  verifyRequestIdentity { row with requestArgsHash := request.argsHash }
    { request with toolCallId := p.row.toolCallId }
  let row ← Payload.bind env { p with row } request.argsHash
  let db ← replaceBindings db row
  let db ← expireAll db (microseconds nowNs) (reissuedAs row.approvalId) superseded
  .ok (nonce, db)

/-- `park_executable_binding` -/
def park (db : Db) (nowNs : Int) (a : BindingArgs F) (policyGenerationRef : Option Str) :
    Except StoreError (Str × Db) := do
  let payload ← executableBindingPayload a
  parkExecutableBinding env db nowNs payload policyGenerationRef

/-! ## Re-issue -/

/-- The arguments of `reissue_parked_approval`. -/
structure ReissueArgs where
  approvalId : Str
  jobId : Str
  toolCallId : Str
  nonce : Str
  turnId : Str
  tenantStorageId : Str
  generation : PolicyGeneration

/-- The names a re-issue draws. -/
structure FreshNames where
  approvalId : Str
  turnId : Str
  nonce : Str

/-- What a re-issue returns: the successor, the nonce it is published under, its root turn, and
whether this call created it. -/
structure Reissued where
  successor : ApprovalRequest
  nonce : Str
  turnId : Str
  created : Bool
deriving DecidableEq

/-- `_reissued_successor_locked` -/
def reissuedSuccessor (db : Db) (predecessor : ApprovalRequest) (a : ReissueArgs) :
    Option Reissued := do
  let bound ← (db.bindingOfCall (a.jobId, a.toolCallId)).filter fun b ↦
    decide (b.tenantStorageId = a.tenantStorageId)
  if predecessor.decisionReason ≠ some (reissuedAs bound.approvalId) then none
  else
    match db.turnsHolding a.jobId a.tenantStorageId ⟨a.toolCallId, bound.nonce⟩ with
    | [turn] => do
      let successor ← db.requests.find? bound.approvalId
      some ⟨successor, bound.nonce, turn.turnId, false⟩
    | _ => none

/-- The request a re-issue inserts. -/
def successorRequest (request : ApprovalRequest) (approvalId : Str) (now : Int)
    (g : PolicyGeneration) : ApprovalRequest :=
  { request with
    approvalId := approvalId
    state := .created
    stateVersion := 0
    requestedAt := now
    decidedAt := none
    expiresAt := none
    deciderId := none
    deciderRole := none
    decision := none
    decisionReason := none
    policyId := g.policyId
    policyVersion := g.policyVersion
    policyBundleHash := g.policyBundleHash }

/-- The request that waits for the user again, for as long as its predecessor did. -/
def pendingSuccessor (parked request : ApprovalRequest) (now : Int) : ApprovalRequest :=
  { parked with
    state := .pendingUser
    stateVersion := parked.stateVersion + 1
    expiresAt := request.expiresAt.map fun e ↦ now + (e - request.requestedAt) }

/-- The part of a re-issue that creates the successor.  The clock is read for the request, for the
root turn and for the expiry of the predecessor. -/
def issueSuccessor (db : Db) (nowNs turnNs expiryNs : Int) (fresh : FreshNames) (a : ReissueArgs)
    (request : ApprovalRequest) : Except StoreError (Reissued × Db) := do
  let turn ← requireSome ((db.rootTurns.find? (a.jobId, a.turnId)).filter fun t ↦
    decide (t.tenantStorageId = a.tenantStorageId)) (.rootTurn .missingRootTurn)
  let record ← requireSome (turn.args (F := F)) (.rootTurn .snapshotMismatch)
  let (binding, _) ← readExecutableBinding env db a.jobId a.toolCallId a.nonce a.tenantStorageId
  let created := successorRequest request fresh.approvalId (microseconds nowNs) a.generation
  let db ← create env.toHost db created
  let db ← recordRootTurn db turnNs
    { record with
      turnId := fresh.turnId
      policyGenerationRef := a.generation.generationRef
      createdAt := none }
  let preparedCall ← PreparedToolCall.make binding.preparedInput binding.exactBackend
  let payload ← executableBindingPayload
    { approvalId := fresh.approvalId
      jobId := a.jobId
      toolCallId := a.toolCallId
      nonce := fresh.nonce
      tenantStorageId := a.tenantStorageId
      toolName := binding.toolName
      preparedCall := preparedCall
      dispatchContext := binding.dispatchContext
      credentialGenerationRef := binding.credentialGenerationRef }
  let (published, db) ← parkExecutableBinding env db expiryNs payload
    (some a.generation.generationRef)
  let db ← linkRootTurn db a.jobId fresh.turnId a.toolCallId published a.tenantStorageId
  let parked ← db.requireRequest fresh.approvalId
  let successor := pendingSuccessor parked request (microseconds nowNs)
  let (db, _) ← writeRequestTransition db successor none
  .ok (⟨successor, published, fresh.turnId, true⟩, db)

/-- `reissue_parked_approval` -/
def reissue (db : Db) (nowNs turnNs expiryNs : Int) (fresh : FreshNames) (a : ReissueArgs) :
    Except StoreError (Reissued × Db) := do
  let request ← requireSome (db.requests.find? a.approvalId) (.rootTurn .missingRootTurn)
  match if request.state = .expired then reissuedSuccessor db request a else none with
  | some issued => .ok (issued, db)
  | none => issueSuccessor env db nowNs turnNs expiryNs fresh a request

/-! ## What the operations do to the store -/

section Updates

variable {env : Env F M} {db db' : Db} {nowNs : Int}

theorem recordPolicyGeneration_eq_ok {g : PolicyGeneration}
    (h : recordPolicyGeneration db g = .ok db') : ∃ generations, db' = { db with generations } := by
  rw [recordPolicyGeneration] at h
  split at h
  · simp only [bind_eq_ok_iff] at h
    obtain ⟨-, -, h⟩ := h
    cases h
    exact ⟨db.generations, rfl⟩
  · simp only [bind_eq_ok_iff] at h
    obtain ⟨generations, -, h⟩ := h
    cases h
    exact ⟨generations, rfl⟩

variable {a : RootTurnArgs F}

theorem recordRootTurn_eq_ok (h : recordRootTurn db nowNs a = .ok db') :
    ∃ rootTurns, db' = { db with rootTurns } := by
  rw [recordRootTurn] at h
  split at h
  · simp only [bind_eq_ok_iff] at h
    obtain ⟨-, -, -, -, -, -, h⟩ := h
    cases h
    exact ⟨db.rootTurns, rfl⟩
  · simp only [bind_eq_ok_iff] at h
    obtain ⟨-, -, -, -, rootTurns, -, h⟩ := h
    cases h
    exact ⟨rootTurns, rfl⟩

theorem RootTurn.args_eq_some {t : RootTurn} (h : t.args = some a) :
    a.jobId = t.jobId ∧ a.tenantStorageId = t.tenantStorageId := by
  simp only [RootTurn.args, Option.bind_eq_bind, Option.bind_eq_some_iff, Option.some.injEq] at h
  obtain ⟨_, -, _, -, _, -, _, -, _, -, rfl⟩ := h
  exact ⟨rfl, rfl⟩

/-- A root turn under a new name is appended, and holds nothing yet. -/
theorem recordRootTurn_new (h : recordRootTurn db nowNs a = .ok db')
    (hnew : db.rootTurns.find? (a.jobId, a.turnId) = none) :
    ∃ t rootTurns, db.rootTurns.insert? t = some rootTurns ∧ t.jobId = a.jobId ∧
      t.turnId = a.turnId ∧ t.tenantStorageId = a.tenantStorageId ∧ t.executableRefs = [] ∧
      db' = { db with rootTurns } := by
  simp only [recordRootTurn, hnew, bind_eq_ok_iff, requireSome_eq_ok_iff] at h
  obtain ⟨t, ht, -, -, rootTurns, hins, h⟩ := h
  cases h
  simp only [RootTurnArgs.row, Option.bind_eq_bind, Option.bind_eq_some_iff,
    Option.some.injEq] at ht
  obtain ⟨_, -, _, -, _, -, _, -, _, -, rfl⟩ := ht
  exact ⟨_, rootTurns, hins, rfl, rfl, rfl, rfl, rfl⟩

variable {nonce : Str}

variable {toolCallId : Str}

theorem linkRootTurn_eq_ok {jobId turnId tenantStorageId : Str}
    (h : linkRootTurn db jobId turnId toolCallId nonce tenantStorageId = .ok db') :
    ∃ rootTurns, db' = { db with rootTurns } := by
  simp only [linkRootTurn, bind_eq_ok_iff] at h
  obtain ⟨root, -, -, -, -, -, -, -, h⟩ := h
  by_cases hmem : (⟨toolCallId, nonce⟩ : ExecutableRef) ∈ root.executableRefs
  · rw [if_pos hmem] at h
    cases h
    exact ⟨db.rootTurns, rfl⟩
  · rw [if_neg hmem] at h
    cases h
    exact ⟨_, rfl⟩

/-- A turn that holds nothing is linked. -/
theorem linkRootTurn_new {jobId turnId tenantStorageId : Str} {root : RootTurn}
    (h : linkRootTurn db jobId turnId toolCallId nonce tenantStorageId = .ok db')
    (hroot : db.rootTurns.find? (jobId, turnId) = some root) (hrefs : root.executableRefs = []) :
    db' = { db with rootTurns := db.rootTurns.put (root.withRef ⟨toolCallId, nonce⟩) } := by
  simp only [linkRootTurn, hroot, requireSome, bind_eq_ok_iff] at h
  obtain ⟨root', hroot', -, -, -, -, -, -, h⟩ := h
  cases hroot'
  rw [hrefs, if_neg List.not_mem_nil] at h
  cases h
  rfl

variable {policyGenerationRef : Option Str}

variable {request : ApprovalRequest} {row : BindingRow}

/-- A binding that is in the way was never claimed. -/
theorem parkOver_eq_ok {existing : BindingRow} {holder : ApprovalRequest} {superseded : Bool}
    (h : parkOver db policyGenerationRef row request holder existing = .ok superseded) :
    existing.executionState = .unclaimed := by
  simp only [parkOver, bind_eq_ok_iff, require_eq_ok_iff] at h
  obtain ⟨-, -, -, hunclaimed, -⟩ := h
  exact hunclaimed.2

/-- The call of another approval is taken over if that approval is superseded, or was refused. -/
theorem parkOver_cases {existing : BindingRow} {holder : ApprovalRequest} {superseded : Bool}
    (h : parkOver db policyGenerationRef row request holder existing = .ok superseded)
    (hne : existing.approvalId ≠ row.approvalId) :
    superseded = true ∨ superseded = false ∧
      (holder.state = .denied ∨ holder.state = .autoDenied ∨ holder.state = .expired) := by
  simp only [parkOver, if_neg hne, bind_eq_ok_iff] at h
  obtain ⟨-, -, -, -, h⟩ := h
  by_cases hsupersedes : supersedes db policyGenerationRef existing holder
  · rw [if_pos hsupersedes] at h
    cases h
    exact .inl rfl
  · simp only [if_neg hsupersedes, bind_eq_ok_iff, require_eq_ok_iff] at h
    obtain ⟨-, hrefused, h⟩ := h
    cases h
    exact .inr ⟨rfl, hrefused⟩

theorem parkScan_eq_ok {pairs : List (BindingRow × ApprovalRequest)} {published : Str}
    {superseded : List Str}
    (h : parkScan db policyGenerationRef row request pairs nonce = .ok (published, superseded)) :
    ∀ pair ∈ pairs, pair.1.executionState = .unclaimed := by
  induction pairs generalizing nonce published superseded with
  | nil => simp
  | cons pair rest ih =>
    simp only [parkScan, bind_eq_ok_iff, Prod.exists] at h
    obtain ⟨o, ho, published', ids, hrest, -⟩ := h
    intro pair hpair
    rcases List.mem_cons.1 hpair with rfl | hpair
    · exact parkOver_eq_ok ho
    · exact ih hrest pair hpair

/-- Superseded requests are rewritten, and nothing else happens. -/
theorem expireAll_eq_ok {decidedAt : Int} {reason : Str} {ids : List Str}
    (h : expireAll db decidedAt reason ids = .ok db') :
    ∃ requests, db' = { db with requests } ∧ KeepsRequests False db.requests requests := by
  induction ids generalizing db with
  | nil =>
    cases h
    exact ⟨db'.requests, rfl, .refl _⟩
  | cons id ids ih =>
    simp only [expireAll, bind_eq_ok_iff, requireSome_eq_ok_iff, Prod.exists] at h
    obtain ⟨predecessor, hfind, db₁, wrote, hwrite, h⟩ := h
    obtain ⟨-, rfl⟩ := Table.find?_eq_some_iff.1 hfind
    obtain ⟨requests, rfl, hkeeps⟩ := writeRequestTransition_keeps False hwrite hfind rfl
      fun _ _ ↦ .inl rfl
    obtain ⟨requests', rfl, hkeeps'⟩ := ih h
    exact ⟨requests', rfl, hkeeps.trans hkeeps'⟩

/-- One request is superseded: it is written over as it stands. -/
theorem expireAll_singleton {decidedAt : Int} {reason : Str} {predecessor : ApprovalRequest}
    (h : expireAll db decidedAt reason [predecessor.approvalId] = .ok db')
    (hfind : db.requests.find? predecessor.approvalId = some predecessor) :
    db' = { db with
      requests := db.requests.put
        (predecessor.withTransition (expiredBy predecessor decidedAt reason)) } := by
  simp only [expireAll, bind_eq_ok_iff, requireSome_eq_ok_iff, Prod.exists] at h
  obtain ⟨predecessor', hfind', db₁, wrote, hwrite, h⟩ := h
  obtain rfl : predecessor' = predecessor := Option.some.inj (hfind'.symm.trans hfind)
  cases h
  rcases writeRequestTransition_eq_ok hwrite hfind with ⟨-, -, rfl⟩ | ⟨-, hnot, -⟩
  · rfl
  · exact absurd (.inl rfl) hnot

theorem moveRequest_eq_ok (h : moveRequest db request toolCallId = .ok db') :
    (request.toolCallId = toolCallId ∧ db' = db) ∨
      (request.undecided ∧
        db' = { db with requests := db.requests.put { request with toolCallId } }) := by
  rw [moveRequest] at h
  by_cases hcall : request.toolCallId = toolCallId
  · rw [if_pos hcall] at h
    cases h
    exact .inl ⟨hcall, rfl⟩
  · simp only [if_neg hcall, bind_eq_ok_iff, require_eq_ok_iff] at h
    obtain ⟨-, hundecided, h⟩ := h
    cases h
    exact .inr ⟨hundecided, rfl⟩

/-- **What parking does**: the request moves to the call, the bindings in the way go, which nobody
has claimed, the new one is inserted, and the superseded requests are rewritten. -/
theorem parkExecutableBinding_eq_ok {p : Payload F}
    (h : parkExecutableBinding env db nowNs p policyGenerationRef = .ok (nonce, db')) :
    ∃ request superseded digest row moved bindings,
      db.requests.find? p.row.approvalId = some request ∧
      parkScan db policyGenerationRef p.row request (db.boundRequests p.row) p.row.nonce =
        .ok (nonce, superseded) ∧
      row = { p.row with
        nonce := nonce, requestArgsHash := request.argsHash, operandDigest := digest } ∧
      row.identifies { request with toolCallId := p.row.toolCallId } ∧
      ((request.toolCallId = p.row.toolCallId ∧ moved = db.requests) ∨
        (request.undecided ∧
          moved = db.requests.put { request with toolCallId := p.row.toolCallId })) ∧
      (db.bindings.delete row.clashes).insert? row = some bindings ∧
      expireAll { db with requests := moved, bindings := bindings } (microseconds nowNs)
        (reissuedAs row.approvalId) superseded = .ok db' := by
  simp only [parkExecutableBinding, bind_eq_ok_iff, requireSome_eq_ok_iff, Prod.exists] at h
  obtain ⟨request, hrequest, nonce', superseded, hscan, db₁, hmove, _, hverify, row, hrow, db₂,
    hreplace, db₃, hexpire, h⟩ := h
  cases h
  obtain ⟨digest, rfl⟩ := Payload.bind_eq_ok hrow
  have hidentifies := verifyRequestIdentity_eq_ok_iff.1 hverify
  simp only [replaceBindings, bind_eq_ok_iff, requireSome_eq_ok_iff] at hreplace
  obtain ⟨bindings, hins, hdb₂⟩ := hreplace
  cases hdb₂
  rcases moveRequest_eq_ok hmove with ⟨hcall, rfl⟩ | ⟨hundecided, rfl⟩
  · exact ⟨request, superseded, digest, _, db₁.requests, bindings, hrequest, hscan, rfl,
      hidentifies, .inl ⟨hcall, rfl⟩, hins, hexpire⟩
  · exact ⟨request, superseded, digest, _, _, bindings, hrequest, hscan, rfl, hidentifies,
      .inr ⟨hundecided, rfl⟩, hins, hexpire⟩

/-- The successor of an approval is the one that is bound, if the reason it expired for names it. -/
theorem reissuedSuccessor_eq {predecessor : ApprovalRequest} {a : ReissueArgs}
    (hrow : db.bindingOfCall (a.jobId, a.toolCallId) = some row)
    (htenant : row.tenantStorageId = a.tenantStorageId) :
    reissuedSuccessor db predecessor a =
      if predecessor.decisionReason ≠ some (reissuedAs row.approvalId) then none
      else
        match db.turnsHolding a.jobId a.tenantStorageId ⟨a.toolCallId, row.nonce⟩ with
        | [turn] => (db.requests.find? row.approvalId).map fun successor ↦
          ⟨successor, row.nonce, turn.turnId, false⟩
        | _ => none := by
  rw [reissuedSuccessor, hrow]
  simp only [Option.filter, htenant, decide_true, if_true, Option.bind_eq_bind, Option.bind_some,
    Option.map_eq_bind]
  rfl

theorem parkExecutableBinding_frame {p : Payload F}
    (h : parkExecutableBinding env db nowNs p policyGenerationRef = .ok (nonce, db')) :
    ∃ requests bindings, db' = { db with requests, bindings } := by
  obtain ⟨_, _, _, _, moved, bindings, -, -, -, -, -, -, hexpire⟩ := parkExecutableBinding_eq_ok h
  obtain ⟨requests, rfl, -⟩ := expireAll_eq_ok hexpire
  exact ⟨requests, bindings, rfl⟩

/-- **A re-issue is made of smaller operations**: unless it finds a successor, it creates a request,
records a root turn, parks the call again, links the turn and puts the request to the user. -/
theorem reissue_eq_ok {nowNs turnNs expiryNs : Int} {fresh : FreshNames} {a : ReissueArgs}
    {issued : Reissued} (h : reissue env db nowNs turnNs expiryNs fresh a = .ok (issued, db')) :
    db' = db ∨ ∃ request db₁ db₂ payload published db₃ db₄ parked wrote,
      create env.toHost db (successorRequest request fresh.approvalId (microseconds nowNs)
        a.generation) = .ok db₁ ∧
      (∃ rootTurns, db₂ = { db₁ with rootTurns }) ∧
      (∃ args : BindingArgs F, executableBindingPayload args = .ok payload) ∧
      parkExecutableBinding env db₂ expiryNs payload (some a.generation.generationRef) =
        .ok (published, db₃) ∧
      (∃ rootTurns, db₄ = { db₃ with rootTurns }) ∧
      db₄.requests.find? fresh.approvalId = some parked ∧
      writeRequestTransition db₄ (pendingSuccessor parked request (microseconds nowNs)) none =
        .ok (db', wrote) := by
  simp only [reissue, bind_eq_ok_iff] at h
  obtain ⟨request, -, h⟩ := h
  split at h
  · cases h
    exact .inl rfl
  · simp only [issueSuccessor, bind_eq_ok_iff, Prod.exists] at h
    obtain ⟨turn, -, record, -, binding, _, -, db₁, hcreate, db₂, hturn, call, -, payload, hpayload,
      published, db₃, hpark, db₄, hlink, parked, hparked, db₅, wrote, hwrite, h⟩ := h
    cases h
    exact .inr ⟨request, db₁, db₂, payload, published, db₃, db₄, parked, wrote, hcreate,
      recordRootTurn_eq_ok hturn, ⟨_, hpayload⟩, hpark, linkRootTurn_eq_ok hlink,
      (Db.requireRequest_eq_ok hparked).1, hwrite⟩

theorem reissue_frame {nowNs turnNs expiryNs : Int} {fresh : FreshNames} {a : ReissueArgs}
    {issued : Reissued} (h : reissue env db nowNs turnNs expiryNs fresh a = .ok (issued, db')) :
    ∃ requests bindings rootTurns, db' = { db with requests, bindings, rootTurns } := by
  rcases reissue_eq_ok h with rfl | ⟨request, db₁, db₂, payload, published, db₃, db₄, parked, wrote,
    hcreate, ⟨rootTurns, rfl⟩, -, hpark, ⟨rootTurns', rfl⟩, hparked, hwrite⟩
  · exact ⟨db'.requests, db'.bindings, db'.rootTurns, rfl⟩
  · obtain ⟨requests, -, rfl⟩ := create_eq_ok hcreate
    obtain ⟨requests', bindings, rfl⟩ := parkExecutableBinding_frame hpark
    obtain ⟨-, hid⟩ := Table.find?_eq_some_iff.1 hparked
    rw [← hid] at hparked
    rcases writeRequestTransition_eq_ok hwrite hparked with ⟨-, -, rfl⟩ | ⟨-, -, rfl⟩
    · exact ⟨_, bindings, rootTurns', rfl⟩
    · exact ⟨requests', bindings, rootTurns', rfl⟩

end Updates

end AgentGateway.ApprovalStore
