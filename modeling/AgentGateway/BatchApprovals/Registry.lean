import AgentGateway.Py.Dict
import AgentGateway.Py.Text

/-!
# The registry of live batch approvals

The sessions of a batch hold the approvals that wait for a decision in their `pending_tools`.  The
registry projects them: `syncCarrier` reads the pending approvals of a registered session into
`projections`.  A producer that is about to make an approval first acquires an admission, binds the
durable request to it, and releases it when the approval is published or given up.

To cancel a batch, or to freeze it, one first fences it.  A fenced batch takes no further session
and no further admission, and once the admissions that were acquired before have been released
(`drained`) its approvals can be read off.  While the batch is fenced two more stores are kept for
it: the projections from before the fence, to put back on a rollback, and the history of what has
been published since.

Session objects are told apart by numbers, and so are admissions; what a session holds is a function
of its number.  Calls that raise may leave changes behind, so a call returns the registry in any
case.
-/

namespace AgentGateway.BatchApprovals

open Py

/-! ## Sessions, carriers and projections -/

/-- An entry of `pending_tools` -/
structure Pending where
  status : Str
  approvalId : Str
  nonce : Str
  stageRunSeq : Option Int
deriving DecidableEq

/-- A session, as far as it is read here -/
structure Session where
  userId : Str
  channel : Option Str
  sessionId : Str
  pendingTools : Dict Str Pending

/-- The session objects. -/
abbrev Sessions := Nat → Session

/-- The owner and the number of a batch. -/
abbrev Key := Str × Int

instance : LawfulBEq Key := inferInstance

/-- `_BatchApprovalCarrier` -/
structure Carrier where
  batchId : Int
  runId : Str
  ownerUserId : Str
  channel : Option Str
  session : Nat
  store : Option Nat
  policy : Option Nat
deriving DecidableEq

def Carrier.key (c : Carrier) : Key := (c.ownerUserId, c.batchId)

/-- `ApprovalProjection` -/
structure Projection where
  approvalId : Str
  batchId : Int
  runId : Str
  stageRunSeq : Option Int
  ownerUserId : Str
  channel : Option Str
  toolCallId : Str
  nonce : Str
  sessionId : Str
  session : Nat
  store : Option Nat
  policy : Option Nat
deriving DecidableEq

def Projection.key (p : Projection) : Key := (p.ownerUserId, p.batchId)

/-- The projections by approval. -/
abbrev Projections := Dict Str Projection

/-- `_BatchAdmissionGate` -/
structure Gate where
  closed : Bool
  active : Nat
  closeWhenDrained : Bool
  drained : Bool
  admissions : List Nat
deriving DecidableEq

def Gate.new : Gate := ⟨false, 0, false, true, []⟩

/-- `BatchApprovalProjectionRegistry` -/
structure Registry where
  carriers : Dict (Str × Int × Nat) Carrier
  projections : Projections
  fences : List Key
  fenceSnapshots : Dict Key Projections
  fenceHistory : Dict Key Projections
  gates : Dict Key Gate
  shutdownStarted : Bool

def Registry.empty : Registry := ⟨[], [], [], [], [], [], false⟩

inductive RegistryError where
  /-- `ValueError` -/
  | value (message : String)
  /-- `RuntimeError` -/
  | runtime (message : String)
deriving DecidableEq

/-- A call, which returns the registry also if it raises. -/
abbrev Call (α : Type) := Except RegistryError α × Registry

/-! ## Reading the sessions -/

/-- What becomes of a pending tool: it is passed over, it is a live approval, or its stage is no
number. -/
inductive Reading where
  | skip
  | live (p : Projection)
  | badStage

/-- The body of the loop of `_sync_carrier`, up to the projections. -/
def Carrier.read (c : Carrier) (sessionId toolCallId : Str) (pending : Pending) : Reading :=
  if pending.status ≠ .lit "approval_pending" ∨ pending.approvalId.strip = [] ∨
      pending.nonce.strip = [] ∨ toolCallId.strip = [] then .skip
  else if ∃ seq ∈ pending.stageRunSeq, seq < 1 then .badStage
  else .live
    { approvalId := pending.approvalId.strip, batchId := c.batchId, runId := c.runId
      stageRunSeq := pending.stageRunSeq, ownerUserId := c.ownerUserId, channel := c.channel
      toolCallId := toolCallId.strip, nonce := pending.nonce.strip, sessionId := sessionId
      session := c.session, store := c.store, policy := c.policy }

/-- The loop of `_sync_carrier`: the live approvals, or what it raises. -/
def Carrier.sync (c : Carrier) (sessionId : Str) :
    List (Str × Pending) → Projections → Except RegistryError (List Str) × Projections
  | [], ps => (.ok [], ps)
  | (toolCallId, pending) :: rest, ps =>
    match c.read sessionId toolCallId pending with
    | .skip => c.sync sessionId rest ps
    | .badStage => (.error (.value "batch approval stage_run_seq must be a positive integer"), ps)
    | .live p =>
      if ∃ existing ∈ ps.lookup p.approvalId, existing ≠ p then
        (.error (.value "conflicting batch approval identity registration"), ps)
      else
        match c.sync sessionId rest (ps.set p.approvalId p) with
        | (.ok live, ps') => (.ok (p.approvalId :: live), ps')
        | (.error e, ps') => (.error e, ps')

variable (sessions : Sessions)

def syncCarrier (reg : Registry) (c : Carrier) (force : Bool) : Call Unit :=
  if force = false ∧ (reg.shutdownStarted = true ∨ c.key ∈ reg.fences) then (.ok (), reg)
  else
    let session := sessions c.session
    if session.sessionId.strip = [] then
      (.error (.value "batch approval session_id is required"), reg)
    else
      match c.sync session.sessionId.strip session.pendingTools reg.projections with
      | (.error e, ps) => (.error e, { reg with projections := ps })
      | (.ok live, ps) =>
        (.ok (), { reg with
          projections := ps.filter fun p ↦ decide (p.2.session ≠ c.session ∨ p.1 ∈ live) })

/-- The loops that resync carriers one after another. -/
def syncCarriers : List Carrier → Registry → Call Unit
  | [], reg => (.ok (), reg)
  | c :: rest, reg =>
    match syncCarrier sessions reg c true with
    | (.ok _, reg') => syncCarriers rest reg'
    | (.error e, reg') => (.error e, reg')

/-- The carriers of a batch. -/
def Registry.carriersOf (reg : Registry) (key : Key) : List Carrier :=
  (reg.carriers.map Prod.snd).filter fun c ↦ decide (c.key = key)

/-! ## Registering and admitting -/

/-- `normalize_approval_channel`, with `str.lower` left open -/
def normalizeChannel (lower : Str → Str) (channel : Option Str) : Option Str :=
  let normalized := lower (channel.getD []).strip
  if normalized = [] then none else some normalized

/-- `f"batch_{batch_id}"` -/
def batchRunId (batchId : Int) : Str := .lit "batch_" ++ .lit (toString batchId)

/-- `_admission_gates.setdefault(key, _BatchAdmissionGate())` -/
def Registry.gateOf (reg : Registry) (key : Key) : Gate := (reg.gates.lookup key).getD .new

def Registry.setGate (reg : Registry) (key : Key) (gate : Gate) : Registry :=
  { reg with gates := reg.gates.set key gate }

/-- What `register_session` makes of its arguments. -/
def newCarrier (lower : Str → Str) (batchId : Int) (ownerUserId : Str) (channel : Option Str)
    (session : Nat) (store policy : Option Nat) : Carrier :=
  ⟨batchId, batchRunId batchId, ownerUserId.strip, normalizeChannel lower channel, session, store,
    policy⟩

/-- The checks of `register_session` -/
def registrationError (lower : Str → Str) (reg : Registry) (carrier : Carrier) :
    Option RegistryError :=
  if carrier.batchId < 1 then some (.value "batch_id must be a positive integer")
  else if carrier.ownerUserId = [] then some (.value "batch approval owner_user_id is required")
  else if reg.shutdownStarted then
    some (.runtime "batch approval projection registry is shutting down")
  else if carrier.key ∈ reg.fences then
    some (.runtime "batch approval projection admission is fenced")
  else if (sessions carrier.session).userId.strip ≠ carrier.ownerUserId then
    some (.value "batch approval session owner mismatch")
  else if normalizeChannel lower (sessions carrier.session).channel ≠ carrier.channel then
    some (.value "batch approval session channel mismatch")
  else if ∃ existing ∈ reg.carriers.lookup (carrier.ownerUserId, carrier.batchId, carrier.session),
      existing ≠ carrier then
    some (.value "conflicting batch approval session registration")
  else none

def registerSession (lower : Str → Str) (reg : Registry) (batchId : Int) (ownerUserId : Str)
    (channel : Option Str) (session : Nat) (store policy : Option Nat) : Call Carrier :=
  let carrier := newCarrier lower batchId ownerUserId channel session store policy
  match registrationError sessions lower reg carrier with
  | some e => (.error e, reg)
  | none =>
    match syncCarrier sessions reg carrier false with
    | (.error e, _) => (.error e, reg)
    | (.ok _, reg') =>
      (.ok carrier,
        { reg' with
          carriers := reg'.carriers.set (carrier.ownerUserId, carrier.batchId, session) carrier
        }.setGate carrier.key (reg'.gateOf carrier.key))

/-- `acquire_admission`, which makes the admission `admission` -/
def acquireAdmission (reg : Registry) (batchId : Int) (ownerUserId : Str)
    (session admission : Nat) :
    Call Carrier :=
  let key : Key := (ownerUserId.strip, batchId)
  match reg.carriers.lookup (key.1, key.2, session) with
  | none => (.error (.runtime "batch approval session is not registered"), reg)
  | some carrier =>
    let gate := reg.gateOf key
    let reg := reg.setGate key gate
    if reg.shutdownStarted then
      (.error (.runtime "batch approval projection registry is shutting down"), reg)
    else if gate.closed = true ∨ key ∈ reg.fences then
      (.error (.runtime "batch approval projection admission is fenced"), reg)
    else
      (.ok carrier, reg.setGate key
        { gate with
          active := gate.active + 1, admissions := gate.admissions ++ [admission]
          drained := false })

/-! ## Closing a batch -/

def closeBatchNow (reg : Registry) (key : Key) : Registry where
  carriers := reg.carriers.filter fun c ↦ decide (c.2.key ≠ key)
  projections := reg.projections.filter fun p ↦ decide (p.2.key ≠ key)
  fences := reg.fences.filter (· ≠ key)
  fenceSnapshots := reg.fenceSnapshots.pop key
  fenceHistory := reg.fenceHistory.pop key
  gates := reg.gates.pop key
  shutdownStarted := reg.shutdownStarted

def Registry.addFence (reg : Registry) (key : Key) : Registry :=
  { reg with fences := if key ∈ reg.fences then reg.fences else key :: reg.fences }

def closeBatch (reg : Registry) (key : Key) : Registry :=
  match reg.gates.lookup key with
  | some gate =>
    if 0 < gate.active then
      (reg.setGate key { gate with closed := true, closeWhenDrained := true }).addFence key
    else closeBatchNow reg key
  | none => closeBatchNow reg key

def releaseAdmission (reg : Registry) (key : Key) (admission : Nat) : Call Unit :=
  match reg.gates.lookup key with
  | none => (.error (.runtime "batch approval admission accounting is invalid"), reg)
  | some gate =>
    if gate.active < 1 then
      (.error (.runtime "batch approval admission accounting is invalid"), reg)
    else if admission ∈ gate.admissions then
      let gate' : Gate :=
        { gate with
          active := gate.active - 1, admissions := gate.admissions.erase admission
          drained := gate.drained || decide (gate.active - 1 = 0) }
      let reg' := reg.setGate key gate'
      if gate'.active = 0 ∧ gate.closeWhenDrained = true ∧ reg.shutdownStarted = false then
        (.ok (), closeBatchNow reg' key)
      else (.ok (), reg')
    else (.error (.runtime "batch approval admission registration is invalid"), reg)

/-! ## Publishing -/

/-- A durable approval request, as far as it is read here -/
structure Request where
  approvalId : Str
  toolCallId : Str
  userId : Str
  requestId : Str
  runId : Str
  sessionId : Str
  channel : Option Str
deriving DecidableEq

def Request.hasLifecycleRunId (r : Request) : Bool :=
    decide (r.runId ≠ [] ∧ r.runId = r.runId.strip)

/-- `approval_record_matches_projection` -/
def matchesProjection (lower : Str → Str) (r : Request) (p : Projection) : Bool :=
  decide (r.approvalId = p.approvalId ∧ r.toolCallId = p.toolCallId ∧ r.userId = p.ownerUserId ∧
    r.requestId = p.runId ∧ r.hasLifecycleRunId = true ∧ r.sessionId = p.sessionId ∧
    normalizeChannel lower r.channel = p.channel)

/-- `BatchApprovalAdmission` -/
structure Admission where
  key : Key
  carrier : Carrier
  released : Bool
  published : Bool
  request : Option Request

/-- The projection that the request of an admission is published as, if they agree. -/
def Admission.published? (lower : Str → Str) (a : Admission) (ps : Projections) :
    Option Projection := do
  let request ← a.request
  let p ← ps.lookup request.approvalId.strip
  if p.session = a.carrier.session ∧ matchesProjection lower request p = true then some p else none

/-- Note what is published of a batch that is fenced. -/
def Registry.note (reg : Registry) (key : Key) (p : Projection) : Registry :=
  match reg.fenceHistory.lookup key with
  | none => reg
  | some history =>
    { reg with fenceHistory := reg.fenceHistory.set key (history.set p.approvalId p) }

def publishAdmittedCarrier (lower : Str → Str) (reg : Registry) (a : Admission) : Call Unit :=
  match reg.gates.lookup a.key with
  | none => (.error (.runtime "batch approval admission is not active"), reg)
  | some gate =>
    if gate.active < 1 then (.error (.runtime "batch approval admission is not active"), reg)
    else
      match syncCarrier sessions reg a.carrier true with
      | (.error e, reg') => (.error e, { reg' with projections := reg.projections })
      | (.ok _, reg') =>
        match a.published? lower reg'.projections with
        | none =>
          (.error (.runtime "batch approval publication identity is unavailable"),
            { reg' with projections := reg.projections })
        | some p => (.ok (), reg'.note a.key p)

/-! ## Fencing -/

/-- `_projection_snapshot_for_batch` -/
def snapshotForBatch (reg : Registry) (key : Key) : List Projection :=
  ((reg.projections.map Prod.snd).filter fun p ↦ decide (p.key = key)).insertionSort
    fun p q ↦ p.approvalId.le q.approvalId

def restoreBatchProjections (reg : Registry) (key : Key) (prior : Projections) : Registry :=
  { reg with
    projections := Dict.update (reg.projections.filter fun p ↦ decide (p.2.key ≠ key)) prior }

/-- Forget what is kept for a fence, and put the projections back on a rollback. -/
def Registry.dropFenceStores (reg : Registry) (key : Key) (rollback : Bool) : Registry :=
  let reg' : Registry :=
    { reg with
      fenceSnapshots := reg.fenceSnapshots.pop key, fenceHistory := reg.fenceHistory.pop key }
  match reg.fenceSnapshots.lookup key with
  | some prior => if rollback then restoreBatchProjections reg' key prior else reg'
  | none => reg'

def Registry.openGate (reg : Registry) (key : Key) : Registry :=
  match reg.gates.lookup key with
  | some gate => if reg.shutdownStarted then reg else reg.setGate key { gate with closed := false }
  | none => reg

def releaseBatchFence (reg : Registry) (key : Key) (rollback : Bool) : Registry :=
  let reg' := reg.dropFenceStores key rollback
  { reg' with fences := reg'.fences.filter (· ≠ key) }.openGate key

def closeBatchAdmission (reg : Registry) (key : Key) : Call (List Projection) :=
  if reg.shutdownStarted then
    (.error (.runtime "batch approval projection registry is shutting down"), reg)
  else if key ∈ reg.fences then
    (.error (.runtime "batch approval projection admission is already fenced"), reg)
  else
    let prior : Projections := reg.projections.filter fun p ↦ decide (p.2.key = key)
    let gate := reg.gateOf key
    let reg₁ := (reg.setGate key { gate with closed := true }).addFence key
    match syncCarriers sessions (reg₁.carriersOf key) reg₁ with
    | (.error e, reg₂) =>
      let reg₃ := restoreBatchProjections reg₂ key prior
      (.error e, { reg₃ with fences := reg₃.fences.filter (· ≠ key) }.setGate key
        { reg₃.gateOf key with closed := false })
    | (.ok _, reg₂) =>
      let reg₃ : Registry :=
        { reg₂ with
          fenceSnapshots := reg₂.fenceSnapshots.set key prior
          fenceHistory := reg₂.fenceHistory.set key [] }
      (.ok (snapshotForBatch reg₃ key), reg₃)

/-- `merge_projection_sets`, of two sets -/
def mergeProjectionSets (first then_ : List Projection) : List Projection :=
  let merged : Projections := Dict.update [] ((first ++ then_).map fun p ↦ (p.approvalId, p))
  (merged.map Prod.snd).insertionSort fun p q ↦ p.approvalId.le q.approvalId

def snapshotFencedBatch (reg : Registry) (key : Key) : Call (List Projection) :=
  if reg.shutdownStarted = false ∧ key ∉ reg.fences then
    (.error (.runtime "batch approval projection admission is not fenced"), reg)
  else
    match syncCarriers sessions (reg.carriersOf key) reg with
    | (.error e, reg') => (.error e, reg')
    | (.ok _, reg') =>
      let history := (reg'.fenceHistory.lookup key).getD []
      (.ok (mergeProjectionSets (history.map Prod.snd) (snapshotForBatch reg' key)),
        { reg' with fenceHistory := reg'.fenceHistory.pop key })

end AgentGateway.BatchApprovals
