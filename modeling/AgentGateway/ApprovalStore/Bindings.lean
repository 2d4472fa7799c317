import AgentGateway.ApprovalStore.Decisions

/-!
# Executable bindings

A parked call is bound to the approval it waits for: the exact operands are stored as canonical
JSON under a digest, and an executor that wants to run the call presents them again.  The binding is
claimed once, by an executor whose approval is executable at the version it names, and completed
once, with the result the call returned; from then on a claim reads that result.

Operands and results are stored as text, and are read through `identityJsonLoads`, which refuses any
text that is not the one its value would be written as.

* `verifyExecutableAttempt_eq_ok_iff` says when a presented binding is the stored one.
* `claimExecutableBinding_eq_ok` and `completeExecutableBinding_eq_ok` say what the two steps of an
  execution do to its row.
-/

namespace AgentGateway.ApprovalStore

open Py

variable {F M : Type} [PyFloat F]

/-! ## Identity JSON -/

/-- `_identity_json_object` and `_reject_identity_json_constant` -/
def identityHooks : LoadsHooks F Unit where
  invalid := ()
  objectPairsHook kvs := if (kvs.map Prod.fst).Nodup then .ok (.dict kvs) else .error ()
  parseConstant _ := ()

/-- `identity_json_dumps`, and `canonical_json_strict`, which writes the same text. -/
def identityJsonDumps (v : Json F) : Option (List Char) :=
  if v.encodableWith fun _ ↦ true then some v.asciiText else none

def identityJsonLoads (text : List Char) : Option (Json F) :=
  match loads identityHooks text with
  | .error _ => none
  | .ok v => if identityJsonDumps v = some text then some v else none

omit [PyFloat F] in
theorem keepsDistinct_identityHooks : KeepsDistinct (identityHooks (F := F)) :=
  fun _ hkvs ↦ if_pos hkvs

/-- **A value without surrogate pairs is read back from what was written of it**, its keys in
order. -/
theorem identityJsonLoads_asciiText {v : Json F} (henc : v.encodableWith noSurrogatePair = true)
    (hu : v.UniqueKeys) :
    identityJsonDumps v = some v.asciiText ∧ identityJsonLoads v.asciiText = some v.sortKeys := by
  have hany : v.encodableWith (fun _ ↦ true) = true := Json.every_mono (fun _ _ ↦ rfl) henc
  have hloads := loads_asciiText keepsDistinct_identityHooks henc hu
  have hsorted : identityJsonDumps v.sortKeys = some v.asciiText := by
    rw [identityJsonDumps, if_pos ((Json.every_sortKeys ..).trans hany), Json.asciiText,
      Json.sortKeys_sortKeys, ← Json.asciiText]
  refine ⟨if_pos hany, ?_⟩
  simp only [identityJsonLoads, hloads, if_pos hsorted]

/-! ## Results -/

/-- The two contracts whose values are stored under their own name. -/
inductive ResultKind where
  | agentCompletionEnvelope
  | taskResult
deriving DecidableEq

def ResultKind.name : ResultKind → Str
  | agentCompletionEnvelope => .lit "AgentCompletionEnvelope"
  | taskResult => .lit "TaskResult"

/-- What the store takes from its surroundings: `Host`, the equality of JSON values in Python, and
the contracts. -/
structure Env (F M : Type) extends Host where
  /-- `a == b` -/
  jsonEq : Json F → Json F → Bool
  /-- `model_dump(mode="json")` -/
  dump : ResultKind → M → Json F
  /-- `model_validate` -/
  validate : ResultKind → Json F → Option M

/-- The value of a tool result. -/
inductive ToolValue (F M : Type) where
  | json (v : Json F)
  | model (kind : ResultKind) (m : M)

/-- `ToolResult`: a value, and an error or `None`. -/
structure ToolResult (F M : Type) where
  value : ToolValue F M
  error : Option (List (Str × Json F))

variable (env : Env F M)

/-- The name a value is stored under. -/
def ToolValue.kindName : ToolValue F M → Str
  | .json _ => .lit "json"
  | .model kind _ => kind.name

/-- The JSON a value is stored as. -/
def ToolValue.payload : ToolValue F M → Json F
  | .json v => v
  | .model kind m => env.dump kind m

/-- The value `_executable_result_json` writes. -/
def ToolResult.document (r : ToolResult F M) : Json F :=
  .list [.dict [(.lit "kind", .str r.value.kindName), (.lit "value", r.value.payload env)],
    match r.error with
    | none => .null
    | some kvs => .dict kvs]

def executableResultJson (r : ToolResult F M) : Option (List Char) :=
  identityJsonDumps (r.document env)

/-- `"sha256:" + hashlib.sha256(text.encode("utf-8")).hexdigest()` -/
def digestText (text : List Char) : Str := Str.lit "sha256:" ++ env.sha256 (text.map .scalar)

def executableResultDigest (operandDigest claimToken : Str) (decisionStateVersion : Int)
    (resultJson : List Char) : Option Str :=
  (identityJsonDumps (F := F) (.dict
    [(.lit "operand_digest", .str operandDigest), (.lit "claim_token", .str claimToken),
      (.lit "decision_state_version", .int decisionStateVersion),
      (.lit "result_json", .str (resultJson.map .scalar))])).map (digestText env)

def restoreExecutableResult (value : Json F) : Option (ToolValue F M) :=
  match value with
  | .dict kvs =>
    match kvs.lookup (.lit "kind"), kvs.lookup (.lit "value") with
    | some (.str kind), some v =>
      if kvs.length ≠ 2 then none
      else if kind = .lit "json" then some (.json v)
      else if kind = ResultKind.agentCompletionEnvelope.name then
        (env.validate .agentCompletionEnvelope v).map (.model .agentCompletionEnvelope)
      else if kind = ResultKind.taskResult.name then
        (env.validate .taskResult v).map (.model .taskResult)
      else none
    | _, _ => none
  | _ => none

/-- The result in a document. -/
def readDocument (document : Json F) : Option (ToolResult F M) :=
  match document with
  | .list [.dict kvs, .null] => (restoreExecutableResult env (.dict kvs)).map (⟨·, none⟩)
  | .list [.dict kvs, .dict error] =>
    (restoreExecutableResult env (.dict kvs)).map (⟨·, some error⟩)
  | _ => none

/-- The result with the keys of its objects in order; in Python the two are equal. -/
def ToolResult.sorted (r : ToolResult F M) : ToolResult F M where
  value :=
    match r.value with
    | .json v => .json v.sortKeys
    | .model kind m => .model kind m
  error := r.error.map fun kvs ↦
    (kvs.map fun kv ↦ (kv.1, kv.2.sortKeys)).insertionSort Json.keyLE

/-- A result that survives being written and read: no string in it has a surrogate pair, and a
contract is restored from its dump. -/
structure ToolResult.Readable (r : ToolResult F M) : Prop where
  encodable : (r.document env).encodableWith noSurrogatePair = true
  uniqueKeys : (r.document env).UniqueKeys
  restored : ∀ kind m, r.value = .model kind m →
    env.validate kind (env.dump kind m).sortKeys = some m

omit [PyFloat F] in
/-- The keys of a document's first object are in order already. -/
theorem sortKeys_document (r : ToolResult F M) : (r.document env).sortKeys =
      .list [.dict [(.lit "kind", .str r.value.kindName),
          (.lit "value", (r.value.payload env).sortKeys)],
        match r.sorted.error with
        | none => .null
        | some kvs => .dict kvs] := by
  have hle : Json.keyLE (F := F) (.lit "kind", .str r.value.kindName)
      (.lit "value", (r.value.payload env).sortKeys) :=
    show Str.le (.lit "kind") (.lit "value") by decide
  have hkind : (Json.str r.value.kindName : Json F).sortKeys = .str r.value.kindName := rfl
  have hnull : (Json.null : Json F).sortKeys = .null := rfl
  rw [ToolResult.document, ToolResult.sorted, Json.sortKeys_list]
  cases r.error <;> simp [Json.sortKeys_dict, hkind, hnull, hle]

omit [PyFloat F] in
theorem restoreExecutableResult_sorted {r : ToolResult F M}
    (hr : ∀ kind m, r.value = .model kind m → env.validate kind (env.dump kind m).sortKeys =
      some m) :
    restoreExecutableResult env (.dict [(.lit "kind", .str r.value.kindName),
      (.lit "value", (r.value.payload env).sortKeys)]) = some r.sorted.value := by
  have hkind : ∀ x y : Json F, [(Str.lit "kind", x), (.lit "value", y)].lookup (.lit "kind") =
    some x :=
    fun _ _ ↦ rfl
  have hpayload : ∀ x y : Json F,
      [(Str.lit "kind", x), (.lit "value", y)].lookup (.lit "value") = some y := fun _ _ ↦ rfl
  cases hvalue : r.value with
  | json =>
    simp [restoreExecutableResult, ToolResult.sorted, hvalue, ToolValue.kindName, ToolValue.payload,
      hkind, hpayload]
  | model kind m =>
    have hrestored := hr kind m hvalue
    have hjson : kind.name ≠ .lit "json" := by cases kind <;> decide
    cases kind with
    | agentCompletionEnvelope =>
      simp [restoreExecutableResult, ToolResult.sorted, hvalue, ToolValue.kindName,
        ToolValue.payload, hkind, hpayload, hrestored, hjson]
    | taskResult =>
      have hname : ResultKind.taskResult.name ≠ ResultKind.agentCompletionEnvelope.name := by decide
      simp [restoreExecutableResult, ToolResult.sorted, hvalue, ToolValue.kindName,
        ToolValue.payload, hkind, hpayload, hrestored, hjson, hname]

/-- **A readable result is read back as it was stored.** -/
theorem readDocument_of_readable {r : ToolResult F M} (hr : r.Readable env) :
    executableResultJson env r = some (r.document env).asciiText ∧
      ∃ document, identityJsonLoads (r.document env).asciiText = some document ∧
        readDocument env document = some r.sorted := by
  obtain ⟨hdumps, hloads⟩ := identityJsonLoads_asciiText hr.encodable hr.uniqueKeys
  refine ⟨hdumps, _, hloads, ?_⟩
  have hrestore := restoreExecutableResult_sorted env hr.restored
  rw [sortKeys_document]
  cases herror : r.sorted.error with
  | none =>
    simp only [readDocument, hrestore, Option.map_some]
    rw [← herror]
  | some =>
    simp only [readDocument, hrestore, Option.map_some]
    rw [← herror]

/-! ## Operands -/

/-- `_text` lets the text through. -/
def isTrimmedText (s : Str) : Bool := s != [] && s == s.strip

/-- `PreparedToolCall`; `_text` has let the backend through. -/
structure PreparedToolCall (F : Type) where
  preparedInput : List (Str × Json F)
  exactBackend : Option Str
  backend_ok : exactBackend.all isTrimmedText = true

def PreparedToolCall.make (preparedInput : List (Str × Json F)) (exactBackend : Option Str) :
    Except StoreError (PreparedToolCall F) :=
  if h : exactBackend.all isTrimmedText = true then .ok ⟨preparedInput, exactBackend, h⟩
  else .error (.value (.lit "exact_backend must be non-empty trimmed text"))

/-- The arguments of `record_executable_binding` and `park_executable_binding`. -/
structure BindingArgs (F : Type) where
  approvalId : Str
  jobId : Str
  toolCallId : Str
  nonce : Str
  tenantStorageId : Str
  toolName : Str
  preparedCall : PreparedToolCall F
  dispatchContext : List (Str × Json F)
  credentialGenerationRef : Option Str

/-- What `_executable_binding_payload` returns: the row to be, before it is known whose arguments it
binds, and the operands. -/
structure Payload (F : Type) where
  row : BindingRow
  preparedInput : Json F
  dispatchContext : Json F

def executableBindingPayload (a : BindingArgs F) : Except StoreError (Payload F) := do
  require (a.approvalId ≠ [] ∧ a.jobId ≠ [] ∧ a.toolCallId ≠ [] ∧ a.nonce ≠ [] ∧
    a.tenantStorageId ≠ [] ∧ a.toolName ≠ []) (.binding .callIdentityMismatch)
  require (a.credentialGenerationRef ≠ some []) (.binding .callIdentityMismatch)
  let preparedInputJson ← requireSome (identityJsonDumps (.dict a.preparedCall.preparedInput))
    (.binding .operandMismatch)
  let dispatchContextJson ← requireSome (identityJsonDumps (.dict a.dispatchContext))
    (.binding .operandMismatch)
  .ok
    { row :=
        { approvalId := a.approvalId
          jobId := a.jobId
          toolCallId := a.toolCallId
          nonce := a.nonce
          tenantStorageId := a.tenantStorageId
          toolName := a.toolName
          exactBackend := a.preparedCall.exactBackend
          credentialGenerationRef := a.credentialGenerationRef
          requestArgsHash := []
          preparedInputJson := preparedInputJson
          dispatchContextJson := dispatchContextJson
          operandDigest := []
          executionState := .unclaimed
          executionClaimToken := none
          executionDecisionStateVersion := none
          executionResultJson := none
          executionResultDigest := none }
      preparedInput := .dict a.preparedCall.preparedInput
      dispatchContext := .dict a.dispatchContext }

def optionalStr : Option Str → Json F
  | none => .null
  | some s => .str s

def executableOperandDigest (row : BindingRow) (preparedInput dispatchContext : Json F) :
    Option Str :=
  (identityJsonDumps (.dict
    [(.lit "approval_id", .str row.approvalId), (.lit "job_id", .str row.jobId),
      (.lit "tool_call_id", .str row.toolCallId), (.lit "nonce", .str row.nonce),
      (.lit "tenant_storage_id", .str row.tenantStorageId), (.lit "tool_name", .str row.toolName),
      (.lit "exact_backend", optionalStr row.exactBackend),
      (.lit "credential_generation_ref", optionalStr row.credentialGenerationRef),
      (.lit "request_args_hash", .str row.requestArgsHash), (.lit "prepared_input", preparedInput),
      (.lit "dispatch_context", dispatchContext)])).map (digestText env)

/-- The row of a payload, for a request with these arguments. -/
def Payload.bind (p : Payload F) (argsHash : Str) : Except StoreError BindingRow := do
  let row := { p.row with requestArgsHash := argsHash }
  let digest ← requireSome (executableOperandDigest env row p.preparedInput p.dispatchContext)
    (.binding .operandMismatch)
  .ok { row with operandDigest := digest }

/-! ## Recording -/

/-- Is a binding in the way of a row? -/
def BindingRow.clashes (row r : BindingRow) : Bool :=
  decide (r.approvalId = row.approvalId ∨ r.call = row.call)

/-- `SELECT … WHERE approval_id = ? OR (job_id = ? AND tool_call_id = ?)` -/
def Db.bindingsFor (db : Db) (row : BindingRow) : List BindingRow :=
  db.bindings.rows.filter row.clashes

/-- A repeated write must be the same write. -/
def sameCapture (existing row : BindingRow) : Except StoreError Unit := do
  require (existing.tenantStorageId = row.tenantStorageId) (.binding .tenantMismatch)
  require (existing.nonce = row.nonce) (.binding .nonceMismatch)
  require (existing.approvalId = row.approvalId ∧ existing.jobId = row.jobId ∧
    existing.toolCallId = row.toolCallId ∧ existing.toolName = row.toolName)
    (.binding .callIdentityMismatch)
  require (existing.operandDigest = row.operandDigest ∧ existing.exactBackend = row.exactBackend ∧
    existing.credentialGenerationRef = row.credentialGenerationRef ∧
    existing.requestArgsHash = row.requestArgsHash) (.binding .operandMismatch)
  require (existing.preparedInputJson = row.preparedInputJson ∧
    existing.dispatchContextJson = row.dispatchContextJson) (.binding .operandMismatch)

/-- `record_executable_binding`.  If two rows match, which one SQLite returns first does not matter:
neither has both the approval and the call. -/
def recordExecutableBinding (db : Db) (a : BindingArgs F) : Except StoreError Db := do
  let payload ← executableBindingPayload a
  let request ← requireSome (db.requests.find? a.approvalId) (.binding .missingBinding)
  verifyRequestIdentity { payload.row with requestArgsHash := request.argsHash } request
  let row ← payload.bind env request.argsHash
  match (db.bindingsFor row).head? with
  | some existing => do
    sameCapture existing row
    .ok db
  | none => do
    let bindings ← requireSome (db.bindings.insert? row) .integrity
    .ok { db with bindings }

/-! ## Reading -/

/-- `ExecutableApprovalBinding` -/
structure ExecutableBinding (F : Type) where
  approvalId : Str
  jobId : Str
  toolCallId : Str
  nonce : Str
  tenantStorageId : Str
  toolName : Str
  preparedInput : List (Str × Json F)
  dispatchContext : List (Str × Json F)
  exactBackend : Option Str
  credentialGenerationRef : Option Str
  operandDigest : Str

def ExecutableBinding.call (b : ExecutableBinding F) : Str × Str := (b.jobId, b.toolCallId)

/-- The items of the object in a text column. -/
def loadsObject (text : List Char) : Option (List (Str × Json F)) :=
  match identityJsonLoads text with
  | some (.dict kvs) => some kvs
  | _ => none

/-- The binding a row holds, if its operands are what their digest says. -/
def BindingRow.binding (row : BindingRow) : Except StoreError (ExecutableBinding F) := do
  let preparedInput ← requireSome (loadsObject row.preparedInputJson) (.binding .operandMismatch)
  let dispatchContext ← requireSome (loadsObject row.dispatchContextJson)
    (.binding .operandMismatch)
  require (executableOperandDigest env row (.dict preparedInput) (.dict dispatchContext) =
    some row.operandDigest) (.binding .operandMismatch)
  require (row.exactBackend.all isTrimmedText) (.binding .operandMismatch)
  .ok
    { approvalId := row.approvalId
      jobId := row.jobId
      toolCallId := row.toolCallId
      nonce := row.nonce
      tenantStorageId := row.tenantStorageId
      toolName := row.toolName
      preparedInput := preparedInput
      dispatchContext := dispatchContext
      exactBackend := row.exactBackend
      credentialGenerationRef := row.credentialGenerationRef
      operandDigest := row.operandDigest }

/-- The binding of a call. -/
def Db.bindingOfCall (db : Db) (call : Str × Str) : Option BindingRow :=
  db.bindings.rows.find? fun r ↦ decide (r.call = call)

/-- `_read_executable_binding_locked` -/
def readExecutableBinding (db : Db) (jobId toolCallId nonce tenantStorageId : Str) :
    Except StoreError (ExecutableBinding F × ApprovalRequest) := do
  let row ← requireSome (db.bindingOfCall (jobId, toolCallId)) (.binding .missingBinding)
  require (row.tenantStorageId = tenantStorageId) (.binding .tenantMismatch)
  require (row.nonce = nonce) (.binding .nonceMismatch)
  let request ← requireSome (db.requests.find? row.approvalId) (.binding .missingBinding)
  verifyRequestIdentity row request
  let binding ← row.binding env
  .ok (binding, request)

/-- `current == binding` -/
def sameBinding (a b : ExecutableBinding F) : Prop :=
  a.approvalId = b.approvalId ∧ a.jobId = b.jobId ∧ a.toolCallId = b.toolCallId ∧
    a.nonce = b.nonce ∧ a.tenantStorageId = b.tenantStorageId ∧ a.toolName = b.toolName ∧
    env.jsonEq (.dict a.preparedInput) (.dict b.preparedInput) = true ∧
    env.jsonEq (.dict a.dispatchContext) (.dict b.dispatchContext) = true ∧
      a.exactBackend = b.exactBackend ∧
    a.credentialGenerationRef = b.credentialGenerationRef ∧ a.operandDigest = b.operandDigest

instance (a b : ExecutableBinding F) : Decidable (sameBinding env a b) :=
  inferInstanceAs (Decidable (_ ∧ _))

/-- `_verify_executable_attempt_locked` -/
def verifyExecutableAttempt (db : Db) (b : ExecutableBinding F) :
    Except StoreError (ApprovalRequest × BindingRow) := do
  let (current, request) ← readExecutableBinding env db b.jobId b.toolCallId b.nonce
    b.tenantStorageId
  require (sameBinding env current b) (.binding .operandMismatch)
  let row ← requireSome (db.bindings.find? b.approvalId) (.binding .missingBinding)
  .ok (request, row)

/-! ## Claiming and completing -/

/-- The columns by which a statement finds the row of a binding. -/
def BindingRow.isOf (row : BindingRow) (b : ExecutableBinding F) : Prop :=
  row.approvalId = b.approvalId ∧ row.jobId = b.jobId ∧ row.toolCallId = b.toolCallId ∧
    row.nonce = b.nonce ∧ row.tenantStorageId = b.tenantStorageId ∧
    row.operandDigest = b.operandDigest

instance (row : BindingRow) (b : ExecutableBinding F) : Decidable (row.isOf b) :=
  inferInstanceAs (Decidable (_ ∧ _))

/-- `UPDATE … WHERE` the row is the binding's and `p` holds; it must write one row. -/
def Db.updateBinding (db : Db) (b : ExecutableBinding F) (p : BindingRow → Bool)
    (f : BindingRow → BindingRow) : Except StoreError Db := do
  let row ← requireSome ((db.bindings.find? b.approvalId).filter fun r ↦ decide (r.isOf b) && p r)
    (.binding .executionOutcomeUnknown)
  let bindings ← requireSome (db.bindings.put? (f row)) .integrity
  .ok { db with bindings }

/-- `_read_executable_result_locked` -/
def readExecutableResult (db : Db) (b : ExecutableBinding F) (execution : BindingRow) :
    Except StoreError (ToolResult F M) := do
  let row ← requireSome ((db.bindings.find? b.approvalId).filter fun r ↦
    decide (r.isOf b ∧ r.executionState = .completed)) (.binding .resultMismatch)
  let text ← requireSome row.executionResultJson (.binding .resultMismatch)
  let document ← requireSome (identityJsonLoads text) (.binding .resultMismatch)
  let token ← requireSome execution.executionClaimToken (.binding .resultMismatch)
  require (token ≠ []) (.binding .resultMismatch)
  let version ← requireSome execution.executionDecisionStateVersion (.binding .resultMismatch)
  let digest ← requireSome (executableResultDigest env b.operandDigest token version text)
    (.binding .resultMismatch)
  require (execution.executionResultDigest = some digest) (.binding .resultMismatch)
  requireSome (readDocument env document) (.binding .resultMismatch)

/-- Nothing has been written of an execution. -/
def BindingRow.claimable (r : BindingRow) : Bool :=
  r.executionState == .unclaimed && r.executionClaimToken == none &&
    r.executionDecisionStateVersion == none && r.executionResultJson == none &&
    r.executionResultDigest == none

def BindingRow.withClaim (r : BindingRow) (token : Str) (version : Int) : BindingRow :=
  { r with
    executionState := .claimed
    executionClaimToken := some token
    executionDecisionStateVersion := some version }

/-- `_claim_executable_binding_for_executor`: `none` is a licence to execute. -/
def claimExecutableBinding (db : Db) (b : ExecutableBinding F) (version : Int) (token : Str) :
    Except StoreError (Option (ToolResult F M) × Db) := do
  require (token ≠ []) (.binding .claimTokenMismatch)
  let (request, row) ← verifyExecutableAttempt env db b
  if row.executionState = .completed then do
    let result ← readExecutableResult env db b row
    .ok (some result, db)
  else do
    require (row.executionState = .unclaimed) (.binding .executionOutcomeUnknown)
    require (request.stateVersion = version ∧ request.isExecutable) (.binding .decisionMismatch)
    let db ← db.updateBinding b BindingRow.claimable fun r ↦ r.withClaim token version
    .ok (none, db)

/-- The claim is there, and no result yet. -/
def BindingRow.completable (token : Str) (version : Int) (r : BindingRow) : Bool :=
  r.executionState == .claimed && r.executionClaimToken == some token &&
    r.executionDecisionStateVersion == some version && r.executionResultJson == none &&
    r.executionResultDigest == none

def BindingRow.withResult (r : BindingRow) (resultJson : List Char) (digest : Str) : BindingRow :=
  { r with
    executionState := .completed
    executionResultJson := some resultJson
    executionResultDigest := some digest }

/-- `_complete_executable_binding_for_executor` -/
def completeExecutableBinding (db : Db) (b : ExecutableBinding F) (version : Int) (token : Str)
    (result : ToolResult F M) : Except StoreError Db := do
  require (token ≠ []) (.binding .claimTokenMismatch)
  let resultJson ← requireSome (executableResultJson env result) (.binding .resultMismatch)
  let digest ← requireSome (executableResultDigest env b.operandDigest token version resultJson)
    (.binding .resultMismatch)
  let (_, row) ← verifyExecutableAttempt env db b
  require (row.executionClaimToken = some token) (.binding .claimTokenMismatch)
  require (row.executionDecisionStateVersion = some version) (.binding .decisionMismatch)
  if row.executionState = .completed then do
    let existing ← readExecutableResult env db b row
    require (executableResultJson env existing = some resultJson) (.binding .resultMismatch)
    .ok db
  else
    db.updateBinding b (BindingRow.completable token version) fun r ↦ r.withResult resultJson digest

/-! ## What the operations do to the bindings -/

section Updates

variable {env : Env F M} {db db' : Db} {b : ExecutableBinding F} {version : Int} {token : Str}

omit [PyFloat F] in
theorem PreparedToolCall.make_eq_ok {preparedInput : List (Str × Json F)}
    {exactBackend : Option Str}
    {call : PreparedToolCall F} (h : PreparedToolCall.make preparedInput exactBackend = .ok call) :
    call.preparedInput = preparedInput ∧ call.exactBackend = exactBackend := by
  rw [PreparedToolCall.make] at h
  split at h
  · cases h
    exact ⟨rfl, rfl⟩
  · cases h

/-- The row of a payload holds the arguments, and the texts of the operands. -/
theorem executableBindingPayload_eq_ok {a : BindingArgs F} {p : Payload F}
    (h : executableBindingPayload a = .ok p) :
    p.row.executionState = .unclaimed ∧ p.row.approvalId = a.approvalId ∧ p.row.jobId = a.jobId ∧
      p.row.toolCallId = a.toolCallId ∧ p.row.nonce = a.nonce ∧
      p.row.tenantStorageId = a.tenantStorageId ∧ p.row.exactBackend = a.preparedCall.exactBackend ∧
      identityJsonDumps (.dict a.preparedCall.preparedInput) = some p.row.preparedInputJson ∧
      identityJsonDumps (.dict a.dispatchContext) = some p.row.dispatchContextJson := by
  simp only [executableBindingPayload, bind_eq_ok_iff, requireSome_eq_ok_iff] at h
  obtain ⟨-, -, -, -, preparedInputJson, hprepared, dispatchContextJson, hdispatch, h⟩ := h
  cases h
  exact ⟨rfl, rfl, rfl, rfl, rfl, rfl, rfl, hprepared, hdispatch⟩

variable {row : BindingRow}

/-- The row that is bound differs from the payload's in the two columns `bind` fills in. -/
theorem Payload.bind_eq_ok {p : Payload F} {argsHash : Str} (h : p.bind env argsHash = .ok row) :
    ∃ digest, row = { p.row with requestArgsHash := argsHash, operandDigest := digest } := by
  simp only [Payload.bind, bind_eq_ok_iff] at h
  obtain ⟨digest, -, h⟩ := h
  cases h
  exact ⟨digest, rfl⟩

/-- **A recorded binding is new, unclaimed, and its request's**, or it was there already. -/
theorem recordExecutableBinding_eq_ok {a : BindingArgs F}
    (h : recordExecutableBinding env db a = .ok db') :
    db' = db ∨ ∃ row bindings request, db.requests.find? row.approvalId = some request ∧
      row.identifies request ∧ row.executionState = .unclaimed ∧
      db.bindings.insert? row = some bindings ∧ db' = { db with bindings } := by
  simp only [recordExecutableBinding, bind_eq_ok_iff, requireSome_eq_ok_iff] at h
  obtain ⟨p, hp, request, hrequest, _, hverify, row, hrow, h⟩ := h
  obtain ⟨hunclaimed, hid, -⟩ := executableBindingPayload_eq_ok hp
  obtain ⟨digest, rfl⟩ := Payload.bind_eq_ok hrow
  split at h
  · simp only [bind_eq_ok_iff] at h
    obtain ⟨-, -, h⟩ := h
    cases h
    exact .inl rfl
  · simp only [bind_eq_ok_iff, requireSome_eq_ok_iff] at h
    obtain ⟨bindings, hins, h⟩ := h
    cases h
    have hidentifies := verifyRequestIdentity_eq_ok_iff.1 hverify
    rw [← hid] at hrequest
    exact .inr ⟨{ p.row with requestArgsHash := request.argsHash, operandDigest := digest },
      bindings, request, hrequest, hidentifies, hunclaimed, hins, rfl⟩

theorem BindingRow.binding_eq_ok {current : ExecutableBinding F}
    (h : row.binding env = .ok current) :
    current.approvalId = row.approvalId ∧ current.jobId = row.jobId ∧
      current.toolCallId = row.toolCallId ∧ current.nonce = row.nonce ∧
      current.tenantStorageId = row.tenantStorageId ∧
      current.operandDigest = row.operandDigest := by
  simp only [BindingRow.binding, bind_eq_ok_iff] at h
  obtain ⟨preparedInput, -, dispatchContext, -, -, -, -, -, h⟩ := h
  cases h
  exact ⟨rfl, rfl, rfl, rfl, rfl, rfl⟩

theorem loadsObject_eq_some {text : List Char} {kvs : List (Str × Json F)}
    (h : loadsObject text = some kvs) : identityJsonDumps (.dict kvs) = some text := by
  simp only [loadsObject, identityJsonLoads] at h
  split at h
  next kvs' hloads =>
    cases h
    split at hloads
    · cases hloads
    next v _ =>
      by_cases hdumps : identityJsonDumps v = some text
      · rw [if_pos hdumps] at hloads
        cases hloads
        exact hdumps
      · rw [if_neg hdumps] at hloads
        cases hloads
  · cases h

/-- The operands a row holds are written as they were. -/
theorem BindingRow.binding_operands {current : ExecutableBinding F}
    (h : row.binding env = .ok current) :
    identityJsonDumps (.dict current.preparedInput) = some row.preparedInputJson ∧
      identityJsonDumps (.dict current.dispatchContext) = some row.dispatchContextJson ∧
      current.exactBackend = row.exactBackend := by
  simp only [BindingRow.binding, bind_eq_ok_iff, requireSome_eq_ok_iff] at h
  obtain ⟨preparedInput, hprepared, dispatchContext, hdispatch, -, -, -, -, h⟩ := h
  cases h
  exact ⟨loadsObject_eq_some hprepared, loadsObject_eq_some hdispatch, rfl⟩

/-- Does the row hold the binding that is presented? -/
def BindingRow.holds (env : Env F M) (row : BindingRow) (b : ExecutableBinding F) : Prop :=
  ∃ current, row.binding env = .ok current ∧ sameBinding env current b

theorem BindingRow.holds.isOf (h : row.holds env b) : row.isOf b := by
  obtain ⟨current, hcurrent, hid, hjob, hcall, hnonce, htenant, -, -, -, -, -, hdigest⟩ := h
  obtain ⟨hid', hjob', hcall', hnonce', htenant', hdigest'⟩ := BindingRow.binding_eq_ok hcurrent
  exact ⟨hid' ▸ hid, hjob' ▸ hjob, hcall' ▸ hcall, hnonce' ▸ hnonce, htenant' ▸ htenant,
    hdigest' ▸ hdigest⟩

theorem Db.bindingOfCall_eq_some_iff {call : Str × Str} :
    db.bindingOfCall call = some row ↔ row ∈ db.bindings.rows ∧ row.call = call := by
  constructor
  · intro h
    exact ⟨List.mem_of_find?_eq_some h, by simpa using List.find?_some h⟩
  · rintro ⟨hrow, rfl⟩
    cases h : db.bindingOfCall row.call with
    | none => exact absurd (decide_eq_true rfl) (List.find?_eq_none.1 h row hrow)
    | some row' =>
      have hcall : row'.call = row.call := by simpa using List.find?_some h
      rw [db.bindings.eq_of_index_eq (List.mem_of_find?_eq_some h) hrow hcall]

/-- **A presented binding passes exactly if the row of its approval holds it**, and the request of
the row is there and the one the row is for. -/
theorem verifyExecutableAttempt_eq_ok_iff {request : ApprovalRequest} :
    verifyExecutableAttempt env db b = .ok (request, row) ↔
      row ∈ db.bindings.rows ∧ row.holds env b ∧ db.requests.find? row.approvalId = some request ∧
        row.identifies request := by
  simp only [verifyExecutableAttempt, readExecutableBinding, bind_eq_ok_iff, requireSome_eq_ok_iff,
    require_eq_ok_iff, Prod.exists]
  constructor
  · rintro ⟨current, request', ⟨row', hrow', -, -, -, -, request'', hrequest, _, hverify, current',
      hcurrent, h⟩, -, hsame, row'', hfind, h'⟩
    cases h
    cases h'
    obtain ⟨hmem, -⟩ := Db.bindingOfCall_eq_some_iff.1 hrow'
    have hholds : row'.holds env b := ⟨current, hcurrent, hsame⟩
    obtain ⟨hmem', hid'⟩ := Table.find?_eq_some_iff.1 hfind
    have : row' = row := db.bindings.eq_of_key_eq hmem hmem' (hholds.isOf.1.trans hid'.symm)
    subst this
    exact ⟨hmem, hholds, hrequest, verifyRequestIdentity_eq_ok_iff.1 hverify⟩
  · rintro ⟨hmem, hholds, hrequest, hidentifies⟩
    obtain ⟨hid, hjob, hcall, hnonce, htenant, -⟩ := hholds.isOf
    obtain ⟨current, hcurrent, hsame⟩ := hholds
    refine ⟨current, request, ⟨row, ?_, (), htenant, (), hnonce, request, hrequest, (),
      verifyRequestIdentity_eq_ok_iff.2 hidentifies, current, hcurrent, rfl⟩, (), hsame, row,
      ?_, rfl⟩
    · exact Db.bindingOfCall_eq_some_iff.2 ⟨hmem, Prod.ext hjob hcall⟩
    · exact Table.find?_eq_some_iff.2 ⟨hmem, hid⟩

omit [PyFloat F] in
/-- The update writes the row that holds the binding. -/
theorem Db.updateBinding_eq_ok {p : BindingRow → Bool} {f : BindingRow → BindingRow}
    (h : db.updateBinding b p f = .ok db') :
    ∃ row bindings, row ∈ db.bindings.rows ∧ row.isOf b ∧ p row = true ∧
      db.bindings.put? (f row) = some bindings ∧ db' = { db with bindings } := by
  simp only [Db.updateBinding, bind_eq_ok_iff, requireSome_eq_ok_iff, Option.filter_eq_some_iff,
    Bool.and_eq_true, decide_eq_true_eq] at h
  obtain ⟨row, ⟨hfind, hisOf, hp⟩, bindings, hput, h⟩ := h
  cases h
  exact ⟨row, bindings, (Table.find?_eq_some_iff.1 hfind).1, hisOf, hp, hput, rfl⟩

/-- **What a claim does**: it reads the result of an execution that is complete, or it claims a row
that nobody has claimed, of a request that is executable at the version it names. -/
theorem claimExecutableBinding_eq_ok {result : Option (ToolResult F M)}
    (h : claimExecutableBinding env db b version token = .ok (result, db')) :
    ∃ row request, row ∈ db.bindings.rows ∧ row.holds env b ∧
      db.requests.find? row.approvalId = some request ∧ row.identifies request ∧
      ((∃ r, result = some r ∧ db' = db ∧ row.executionState = .completed ∧
          readExecutableResult env db b row = .ok r) ∨
        ∃ bindings, result = none ∧ row.claimable = true ∧ request.stateVersion = version ∧
          request.isExecutable = true ∧
          db.bindings.put? (row.withClaim token version) = some bindings ∧
          db' = { db with bindings }) := by
  simp only [claimExecutableBinding, bind_eq_ok_iff, Prod.exists] at h
  obtain ⟨-, -, request, row, hverify, h⟩ := h
  obtain ⟨hmem, hholds, hrequest, hidentifies⟩ := verifyExecutableAttempt_eq_ok_iff.1 hverify
  refine ⟨row, request, hmem, hholds, hrequest, hidentifies, ?_⟩
  by_cases hcompleted : row.executionState = .completed
  · simp only [if_pos hcompleted, bind_eq_ok_iff] at h
    obtain ⟨r, hread, h⟩ := h
    cases h
    exact .inl ⟨r, rfl, rfl, hcompleted, hread⟩
  · simp only [if_neg hcompleted, bind_eq_ok_iff, require_eq_ok_iff] at h
    obtain ⟨-, -, -, ⟨hversion, hexecutable⟩, db₁, hupdate, h⟩ := h
    cases h
    obtain ⟨row', bindings, hmem', hisOf, hclaimable, hput, rfl⟩ := Db.updateBinding_eq_ok hupdate
    have : row' = row := db.bindings.eq_of_key_eq hmem' hmem (hisOf.1.trans hholds.isOf.1.symm)
    subst this
    exact .inr ⟨bindings, rfl, hclaimable, hversion, hexecutable, hput, rfl⟩

variable {result : ToolResult F M}

/-- **What a completion does**: it stores the text of the result in a row that was claimed under the
token, or finds it there. -/
theorem completeExecutableBinding_eq_ok
    (h : completeExecutableBinding env db b version token result = .ok db') :
    db' = db ∨ ∃ row text digest bindings, row ∈ db.bindings.rows ∧ row.holds env b ∧
      executableResultJson env result = some text ∧
      executableResultDigest env b.operandDigest token version text = some digest ∧
      token ≠ [] ∧ row.completable token version = true ∧
      db.bindings.put? (row.withResult text digest) = some bindings ∧
        db' = { db with bindings } := by
  simp only [completeExecutableBinding, bind_eq_ok_iff, requireSome_eq_ok_iff, require_eq_ok_iff,
    Prod.exists] at h
  obtain ⟨-, htoken, text, htext, digest, hdigest, request, row, hverify, -, -, -, -, h⟩ := h
  obtain ⟨hmem, hholds, -, -⟩ := verifyExecutableAttempt_eq_ok_iff.1 hverify
  by_cases hcompleted : row.executionState = .completed
  · simp only [if_pos hcompleted, bind_eq_ok_iff] at h
    obtain ⟨-, -, -, -, h⟩ := h
    cases h
    exact .inl rfl
  · rw [if_neg hcompleted] at h
    obtain ⟨row', bindings, hmem', hisOf, hcompletable, hput, rfl⟩ := Db.updateBinding_eq_ok h
    have : row' = row := db.bindings.eq_of_key_eq hmem' hmem (hisOf.1.trans hholds.isOf.1.symm)
    subst this
    exact .inr ⟨row', text, digest, bindings, hmem, hholds, htext, hdigest, htoken, hcompletable,
      hput, rfl⟩

theorem claimExecutableBinding_frame {result : Option (ToolResult F M)}
    (h : claimExecutableBinding env db b version token = .ok (result, db')) :
    ∃ bindings, db' = { db with bindings } := by
  obtain ⟨row, request, -, -, -, -, ⟨r, -, rfl, -⟩ | ⟨bindings, -, -, -, -, -, rfl⟩⟩ :=
    claimExecutableBinding_eq_ok h
  · exact ⟨db'.bindings, rfl⟩
  · exact ⟨bindings, rfl⟩

theorem completeExecutableBinding_frame
    (h : completeExecutableBinding env db b version token result = .ok db') :
    ∃ bindings, db' = { db with bindings } := by
  obtain rfl | ⟨row, text, digest, bindings, -, -, -, -, -, -, -, rfl⟩ :=
    completeExecutableBinding_eq_ok h
  · exact ⟨db'.bindings, rfl⟩
  · exact ⟨bindings, rfl⟩

/-- **The result of a completed row is read by every claim that presents its binding.** -/
theorem claimExecutableBinding_of_completed {request : ApprovalRequest} {claimToken digest : Str}
    {decided : Int} (hresult : result.Readable env) (hmem : row ∈ db.bindings.rows)
    (hholds : row.holds env b) (hrequest : db.requests.find? row.approvalId = some request)
    (hidentifies : row.identifies request) (hcompleted : row.executionState = .completed)
    (hjson : row.executionResultJson = some (result.document env).asciiText)
    (hclaim : row.executionClaimToken = some claimToken) (hclaimToken : claimToken ≠ [])
    (hversion : row.executionDecisionStateVersion = some decided)
    (hdigest : executableResultDigest env b.operandDigest claimToken decided
      (result.document env).asciiText = some digest)
    (hstored : row.executionResultDigest = some digest) (htoken : token ≠ []) :
    claimExecutableBinding env db b version token = .ok (some result.sorted, db) := by
  have hfind : db.bindings.find? b.approvalId = some row :=
    Table.find?_eq_some_iff.2 ⟨hmem, hholds.isOf.1⟩
  obtain ⟨-, document, hloads, hread⟩ := readDocument_of_readable env hresult
  have hreads : readExecutableResult env db b row = .ok result.sorted := by
    simp only [readExecutableResult, bind_eq_ok_iff, requireSome_eq_ok_iff, require_eq_ok_iff,
      Option.filter_eq_some_iff, decide_eq_true_eq]
    exact ⟨row, ⟨hfind, hholds.isOf, hcompleted⟩, _, hjson, document, hloads, claimToken,
      hclaim, (), hclaimToken, decided, hversion, digest, hdigest, (), hstored, hread⟩
  simp only [claimExecutableBinding, bind_eq_ok_iff, require_eq_ok_iff, Prod.exists]
  refine ⟨(), htoken, request, row,
    verifyExecutableAttempt_eq_ok_iff.2 ⟨hmem, hholds, hrequest, hidentifies⟩, ?_⟩
  simp only [if_pos hcompleted, bind_eq_ok_iff]
  exact ⟨result.sorted, hreads, rfl⟩

end Updates

end AgentGateway.ApprovalStore
