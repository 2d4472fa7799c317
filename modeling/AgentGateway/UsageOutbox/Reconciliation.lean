import AgentGateway.Py.Lineage
import AgentGateway.UsageOutbox.Store

/-!
# Usage reconciliation reports

A reconciliation report says how the usage events of one request compare with its summary.  Reports
are kept for ever, and a later report of the same request is a new revision, which names the digest
of the one it supersedes.  Next to every report stands a shipment, the state of sending it on, in
the manner of the usage outbox: `held` until a shipper is configured, then `pending`, `sending`,
`retryable`, and `accepted` or `dead` at the end.

A shipper is not handed a queue.  `leaseReconciliationBatch` looks for shipments that wait and no
earlier revision of whose request is anything but accepted.

The table of reports has a trigger that refuses to insert a report unless it is the first of its
request or follows a report that is there; with the `UNIQUE` constraints that is enough to make the
reports of a request a line of revisions, so a `Reports` carries that fact (`Reports.linked`).
-/

namespace AgentGateway.UsageOutbox.Reconciliation

open Py

/-! ## Reports -/

/-- `(environment, source_product, request_id, session_id)` -/
structure ReportKey where
  environment : Str
  sourceProduct : Str
  requestId : Str
  sessionId : Str
deriving DecidableEq

/-- The `status` of a report -/
inductive ReportStatus where
  | match
  | mismatch
  | incomplete
deriving DecidableEq

/-- `commercial_usage_reconciliation_reports` -/
structure Report where
  reportId : Str
  key : ReportKey
  revision : Nat
  supersedesReportSha256 : Option Str
  contentSha256 : Str
  reportSha256 : Str
  payloadJson : List Char
  status : ReportStatus
  recordedAt : Str
deriving DecidableEq

/-- The reports of a request, in the order they were recorded in. -/
def reportsOf (rows : List Report) (key : ReportKey) : List Report :=
  rows.filter fun r ↦ decide (r.key = key)

/-- The revisions of a request form a line. -/
abbrev Chained (l : List Report) : Prop :=
  Linked Report.revision Report.reportSha256 Report.supersedesReportSha256 l

/-- The table, to which reports are only added. -/
structure Reports extends Table Report Report.reportId where
  linked : ∀ key, Chained (reportsOf rows key)

namespace Reports

def empty : Reports := ⟨.empty, fun _ ↦ Linked.nil⟩

/-- The reports of a request. -/
def chain (t : Reports) (key : ReportKey) : List Report := reportsOf t.rows key

theorem mem_chain {t : Reports} {key : ReportKey} {r : Report} :
    r ∈ t.chain key ↔ r ∈ t.rows ∧ r.key = key := by
  simp [chain, reportsOf]

/-- What an `INSERT` has to satisfy: the `CHECK`, the three `UNIQUE` constraints, and the trigger.
-/
structure Admits (l : List Report) (r : Report) : Prop where
  check : r.revision = 1 ∧ r.supersedesReportSha256 = none ∨
    1 < r.revision ∧ r.supersedesReportSha256.isSome = true
  unique : ∀ x ∈ l, x.revision ≠ r.revision ∧ x.contentSha256 ≠ r.contentSha256 ∧
    x.reportSha256 ≠ r.reportSha256
  first : r.revision = 1 → l = []
  next : 1 < r.revision →
    ∃ x ∈ l, x.revision = r.revision - 1 ∧ r.supersedesReportSha256 = some x.reportSha256

instance (l : List Report) (r : Report) : Decidable (Admits l r) :=
  decidable_of_iff (_ ∧ _ ∧ _ ∧ _)
    ⟨fun h ↦ ⟨h.1, h.2.1, h.2.2.1, h.2.2.2⟩, fun h ↦ ⟨h.check, h.unique, h.first, h.next⟩⟩

theorem Admits.next_revision {l : List Report} {r : Report} (h : Admits l r) (hl : Chained l) :
    r.revision = l.length + 1 ∧ Chained (l ++ [r]) :=
  hl.concat_of_checked h.check h.first h.next fun x hx ↦ (h.unique x hx).1

theorem reportsOf_concat (rows : List Report) (r : Report) (key : ReportKey) :
    reportsOf (rows ++ [r]) key =
      if r.key = key then reportsOf rows key ++ [r] else reportsOf rows key := by
  by_cases h : r.key = key
  · simp [h, reportsOf]
  · simp [h, reportsOf]

/-- `INSERT` -/
def insert? (t : Reports) (r : Report) : Option Reports :=
  if h : Admits (t.chain r.key) r then
    match hins : t.toTable.insert? r with
    | none => none
    | some t' => some
      { t' with
        linked := by
          intro key
          rw [(Table.insert?_eq_some_iff.1 hins).2, reportsOf_concat]
          split
          next hkey => exact hkey ▸ (h.next_revision (t.linked r.key)).2
          · exact t.linked key }
  else none

/-- **A report that is inserted is the next revision of its request.** -/
theorem of_insert? {t t' : Reports} {r : Report} (h : t.insert? r = some t') :
    t'.rows = t.rows ++ [r] ∧ (∀ x ∈ t.rows, x.reportId ≠ r.reportId) ∧
      r.revision = (t.chain r.key).length + 1 := by
  rw [insert?] at h
  split at h
  next hadm =>
    split at h
    · cases h
    next t'' hins =>
      cases h
      obtain ⟨hfresh, hrows⟩ := Table.insert?_eq_some_iff.1 hins
      exact ⟨hrows, hfresh, (hadm.next_revision (t.linked r.key)).1⟩
  · cases h

end Reports

/-! ## Shipments -/

inductive ShipmentState where
  | held
  | pending
  | sending
  | accepted
  | retryable
  | dead
deriving DecidableEq

/-- `ingest_status` -/
inductive ShipmentIngest where
  | accepted
  | duplicate
  | conflict
deriving DecidableEq

/-- `commercial_usage_reconciliation_shipments` -/
structure Shipment where
  reportId : Str
  state : ShipmentState
  attemptCount : Nat
  nextAttemptAt : Option Str
  sendingLeaseToken : Option Str
  sendingLeaseExpiresAt : Option Str
  ingestStatus : Option ShipmentIngest
  ingestReasonCode : Option Str
  ingestDecidedAt : Option Str
  acceptedAt : Option Str
  lastError : Option Str
  createdAt : Str
deriving DecidableEq

namespace Shipment

/-- The two constraints of the table. -/
def check (s : Shipment) : Bool :=
  (if s.state = .sending then s.sendingLeaseToken.isSome && s.sendingLeaseExpiresAt.isSome
    else s.sendingLeaseToken.isNone && s.sendingLeaseExpiresAt.isNone) &&
  match s.state with
  | .accepted =>
    decide (s.ingestStatus = some .accepted ∨ s.ingestStatus = some .duplicate) &&
      s.ingestDecidedAt.isSome && s.acceptedAt.isSome
  | .dead =>
    (decide (s.ingestStatus = some .conflict) && s.ingestReasonCode.isSome &&
      s.ingestDecidedAt.isSome && s.acceptedAt.isNone) ||
    (s.ingestStatus.isNone && s.ingestReasonCode.isNone && s.ingestDecidedAt.isNone &&
      s.acceptedAt.isNone)
  | _ =>
    s.ingestStatus.isNone && s.ingestReasonCode.isNone && s.ingestDecidedAt.isNone &&
      s.acceptedAt.isNone

def isTerminal (s : Shipment) : Bool := decide (s.state = .accepted ∨ s.state = .dead)

/-- The trigger on `UPDATE`. -/
def allow (old _new : Shipment) : Bool := !old.isTerminal

/-- The shipment that is inserted with a report. -/
def new (reportId createdAt : Str) (enabled : Bool) : Shipment :=
  ⟨reportId, if enabled then .pending else .held, 0, none, none, none, none, none, none, none, none,
    createdAt⟩

end Shipment

/-- The table, from which nothing is ever deleted. -/
abbrev Shipments := Guarded Shipment Shipment.reportId Shipment.check Shipment.allow

/-- The two tables. -/
structure Reconciliations where
  reports : Reports
  shipments : Shipments

def Reconciliations.empty : Reconciliations := ⟨.empty, Guarded.empty⟩

/-! ## Recording a report -/

/-- What the reports take from the interpreter and from the schemas of their evidence. -/
structure ReportEnv (F : Type) extends Env F where
  /-- `==` -/
  pyEq : Json F → Json F → Bool
  /-- the message of the first error of the evidence schema of a version, if there is one -/
  schemaError : Nat → Dict Str (Json F) → Option Str
  /-- what `_validate_reconciliation_consistency` raises, if it does -/
  inconsistency : Dict Str (Json F) → Option String
  /-- `str(uuid5(NAMESPACE_URL, text))` -/
  uuid5 : Str → Str

inductive ReportError where
  /-- `ValueError` -/
  | value (message : String)
  /-- `ValueError`, with the message of a schema -/
  | invalidEvidence (message : Str)
  /-- `TypeError` -/
  | type
  /-- what rendering or reading a payload raises -/
  | rendering
  /-- `sqlite3.IntegrityError` -/
  | integrity
deriving DecidableEq

def envelopeFields : List Str :=
  [.lit "evidence_schema_version", .lit "evidence_revision", .lit "supersedes_report_sha256",
    .lit "content_sha256"]

/-- `lineage_fields`, which are also the `attempt_fields` -/
def lineageFields : List Str :=
  [.lit "workflow_attempt_group_id", .lit "workflow_attempt_number",
    .lit "retry_of_workflow_run_id", .lit "workflow_attempt_kind", .lit "work_authorization_id"]

section Record

variable {F : Type}

/-- `fields.intersection(payload)` -/
def present (fields : List Str) (payload : Dict Str (Json F)) : List Str :=
  fields.filter fun k ↦ decide (k ∈ payload.map Prod.fst)

/-- `payload.get(key)` -/
def getOrNone (payload : Dict Str (Json F)) (key : Str) : Json F := (payload.lookup key).getD .null

variable [PyFloat F] (E : ReportEnv F)

/-- The key of `_reconciliation_validators` that the value is equal to. -/
def supportedVersion : Json F → Except ReportError Nat
  | .list _ => .error .type
  | .dict _ => .error .type
  | v => requireSome ([1, 2, 3].find? fun n ↦ E.pyEq v (.int n))
      (.value "commercial reconciliation evidence version is unsupported")

/-- The evidence satisfies the schema of its version. -/
def checkEvidence (version : Nat) (evidence : Dict Str (Json F)) : Except ReportError Unit :=
  match E.schemaError version evidence with
  | none => .ok ()
  | some message =>
    .error (.invalidEvidence (.lit "commercial reconciliation evidence is invalid: " ++ message))

/-- Take off the envelope, if the report has one: the content digest it names, and what is left. -/
def openEnvelope (payload : Dict Str (Json F)) :
    Except ReportError (Option Str × Dict Str (Json F)) :=
  let supplied := present envelopeFields payload
  if supplied = [] then .ok (none, payload)
  else do
    require (supplied = envelopeFields)
      (.value "commercial reconciliation evidence envelope is incomplete")
    let version ← supportedVersion E (getOrNone payload (.lit "evidence_schema_version"))
    checkEvidence E version payload
    .ok (some ((getOrNone payload (.lit "content_sha256")).toStr E.interp),
      envelopeFields.foldl Dict.pop payload)

/-- The version of the evidence that is made of the report. -/
def evidenceVersion (payload : Dict Str (Json F)) : Except ReportError Nat := do
  let lineage := present lineageFields payload
  require (lineage = [] ∨ lineage = lineageFields)
    (.value "commercial reconciliation attempt lineage is incomplete")
  let source := getOrNone payload (.lit "source_usage_schema_version")
  if E.pyEq source (.int 3) then do
    require (lineage = lineageFields)
      (.value "commercial Usage V3 reconciliation lineage is incomplete")
    .ok 3
  else do
    require (isNull source = true)
      (.value "commercial reconciliation source usage schema is invalid")
    .ok (if lineage = [] then 1 else 2)

/-- `status in {"match", "mismatch", "incomplete"}` -/
def reportStatus (status : Str) : Option ReportStatus :=
  if status = .lit "match" then some .match
  else if status = .lit "mismatch" then some .mismatch
  else if status = .lit "incomplete" then some .incomplete
  else none

def isFalse : Json F → Bool
  | .bool false => true
  | _ => false

/-- A report that has been read. -/
structure Prepared (F : Type) where
  payload : Dict Str (Json F)
  version : Nat
  key : ReportKey
  status : ReportStatus
  contentSha256 : Str

def requireConsistent (payload : Dict Str (Json F)) : Except ReportError Unit :=
  match E.inconsistency payload with
  | none => .ok ()
  | some message => .error (.value message)

/-- `record_reconciliation_report`, up to the transaction -/
def prepareReport : Json F → Except ReportError (Prepared F)
  | .dict raw => do
    let (supplied, payload) ← openEnvelope E raw
    let version ← evidenceVersion E payload
    let key : ReportKey :=
      ⟨field E.toEnv payload "environment", field E.toEnv payload "source_product",
        field E.toEnv payload "request_id", field E.toEnv payload "session_id"⟩
    require (key.environment ≠ [] ∧ key.sourceProduct ≠ [] ∧ key.requestId ≠ [] ∧
      key.sessionId ≠ [] ∧
        isFalse (getOrNone payload (.lit "summary_emitted_as_cost_event")) = true)
      (.value "commercial reconciliation report identity/status is invalid")
    let status ← requireSome (reportStatus (field E.toEnv payload "status"))
      (.value "commercial reconciliation report identity/status is invalid")
    requireConsistent E payload
    let content ← requireSome (payloadJson (.dict payload)) .rendering
    let contentSha256 := .lit "sha256:" ++ E.sha256 content
    require (∀ digest ∈ supplied, digest = contentSha256)
      (.value "commercial reconciliation evidence content digest is invalid")
    .ok ⟨payload, version, key, status, contentSha256⟩
  | _ => .error (.value "commercial reconciliation report must be an object")

/-- `json.loads(payload_json)`, of a text that has been rendered from a dictionary -/
def storedEvidence (payloadJson : List Char) : Except ReportError (Dict Str (Json F)) :=
  let hooks : LoadsHooks F Unit :=
    ⟨(), fun pairs ↦ .ok (.dict (Dict.update [] pairs)), fun _ ↦ (), fun _ ↦ none⟩
  match loads hooks payloadJson with
  | .ok (.dict kvs) => .ok kvs
  | _ => .error .rendering

/-- `int(evidence["evidence_schema_version"])`, where an integer was stored -/
def storedVersion (evidence : Dict Str (Json F)) : Except ReportError Int :=
  match evidence.lookup (.lit "evidence_schema_version") with
  | some (.int n) => .ok n
  | _ => .error .rendering

/-- The new report may follow `prior`. -/
def checkPrior (prior : Option Report) (p : Prepared F) : Except ReportError Unit :=
  match prior with
  | none => .ok ()
  | some prior => do
    let evidence ← storedEvidence prior.payloadJson
    let version ← storedVersion evidence
    require (version = p.version)
      (.value "commercial reconciliation evidence version cannot change within a revision chain")
    require ((p.version = 2 ∨ p.version = 3) → ∀ k ∈ lineageFields,
        E.pyEq (getOrNone evidence k) (getOrNone p.payload k) = true)
      (.value "commercial reconciliation attempt identity cannot change within a revision chain")

/-- `ORDER BY revision DESC LIMIT 1` -/
def Reports.current (t : Reports) (key : ReportKey) : Option Report :=
  (t.chain key).maxOn? Report.revision

def optStr : Option Str → Json F
  | none => .null
  | some s => .str s

/-- The evidence that is stored for a report. -/
def evidenceOf (p : Prepared F) (revision : Nat) (supersedes : Option Str) : Dict Str (Json F) :=
  p.payload.update
    [(.lit "evidence_schema_version", .int p.version), (.lit "evidence_revision", .int revision),
      (.lit "supersedes_report_sha256", optStr supersedes),
      (.lit "content_sha256", .str p.contentSha256)]

/-- The row of a report whose evidence has been rendered. -/
def reportRow (p : Prepared F) (revision : Nat) (supersedes : Option Str) (recordedAt : Str)
    (text : List Char) : Report :=
  let reportSha256 := .lit "sha256:" ++ E.sha256 text
  { reportId := E.uuid5 (.lit "commercial-usage-reconciliation:" ++ p.key.requestId ++ .lit ":" ++
      p.key.sessionId ++ .lit ":" ++ reportSha256)
    key := p.key, revision, supersedesReportSha256 := supersedes, contentSha256 := p.contentSha256
    reportSha256, payloadJson := text, status := p.status, recordedAt }

/-- The part of the transaction that adds a report. -/
def addReport (db : Reconciliations) (p : Prepared F) (recordedAt : Str) (enabled : Bool) :
    Except ReportError ((Report × Bool) × Reconciliations) := do
  let prior := db.reports.current p.key
  let revision := prior.elim 1 fun r ↦ r.revision + 1
  let supersedes := prior.map Report.reportSha256
  checkPrior E prior p
  let evidence := evidenceOf p revision supersedes
  checkEvidence E p.version evidence
  let text ← requireSome (payloadJson (.dict evidence)) .rendering
  let row := reportRow E p revision supersedes recordedAt text
  let reports ← requireSome (db.reports.insert? row) .integrity
  let shipments ← requireSome (db.shipments.insert? (.new row.reportId recordedAt enabled))
    .integrity
  .ok ((row, false), ⟨reports, shipments⟩)

/-- `_utc_text` -/
def reportTime (time : Int) : Except ReportError Str :=
  requireSome (E.utcText time) (.value "commercial outbox timestamps must be timezone-aware")

/-- `record_reconciliation_report`: the report that is stored, and whether it already was -/
def recordReconciliationReport (db : Reconciliations) (report : Json F) (recordedAt : Int)
    (enabled : Bool) : Except ReportError ((Report × Bool) × Reconciliations) := do
  let p ← prepareReport E report
  let recorded ← reportTime E recordedAt
  match (db.reports.chain p.key).find? fun r ↦ decide (r.contentSha256 = p.contentSha256) with
  | some existing => .ok ((existing, true), db)
  | none => addReport E db p recorded enabled

end Record

/-! ## Leasing -/

namespace Shipment

/-- A lease that ran out is taken back. -/
def expire (s : Shipment) (current : Str) : Shipment :=
  { s with
    state := .retryable, sendingLeaseToken := none, sendingLeaseExpiresAt := none
    nextAttemptAt := some current, lastError := some (.lit "sending lease expired") }

def isExpired (s : Shipment) (current : Str) : Bool :=
  decide (s.state = .sending) && s.sendingLeaseExpiresAt.any fun at_ ↦ decide (at_.le current)

/-- `state IN ('pending', 'retryable')` -/
def isWaiting (s : Shipment) : Bool := decide (s.state = .pending ∨ s.state = .retryable)

def isReady (s : Shipment) (current : Str) : Bool :=
  s.isWaiting && s.nextAttemptAt.all fun at_ ↦ decide (at_.le current)

/-- `ORDER BY shipment.created_at, shipment.report_id` -/
def before (s t : Shipment) : Prop :=
  s.createdAt ≠ t.createdAt ∧ s.createdAt.le t.createdAt ∨
    s.createdAt = t.createdAt ∧ s.reportId.le t.reportId

instance : DecidableRel before := fun _ _ ↦
  inferInstanceAs (Decidable (_ ∧ Str.le _ _ ∨ _ ∧ Str.le _ _))

def lease (s : Shipment) (token expiresAt : Str) : Shipment :=
  { s with
    state := .sending, attemptCount := s.attemptCount + 1, sendingLeaseToken := some token
    sendingLeaseExpiresAt := some expiresAt, nextAttemptAt := none }

end Shipment

/-- No report of the request with an earlier revision has a shipment that is not accepted. -/
def Reconciliations.unblocked (db : Reconciliations) (r : Report) : Bool :=
  db.reports.rows.all fun r' ↦ !decide (r'.key = r.key ∧ r'.revision < r.revision) ||
    db.shipments.rows.all fun s ↦ !decide (s.reportId = r'.reportId) || decide (s.state = .accepted)

/-- The shipments a lease may take. -/
def Reconciliations.candidates (db : Reconciliations) (current : Str) (limit : Nat) :
    List Shipment :=
  ((db.shipments.rows.filter fun s ↦ s.isReady current &&
      db.reports.rows.any fun r ↦ decide (r.reportId = s.reportId) && db.unblocked r).insertionSort
    Shipment.before).take limit

/-- The loop of `lease_reconciliation_batch` over the candidates, each with a token of its own. -/
def leaseShipments (token : Str → Str) (expiresAt : Str) : List Str → Shipments → Option Shipments
  | [], t => some t
  | reportId :: rest, t =>
    (t.update? (fun s ↦ decide (s.reportId = reportId) && s.isWaiting)
      (fun s ↦ s.lease (token reportId) expiresAt) fun _ ↦ rfl).bind
        (leaseShipments token expiresAt rest)

/-- `_select_reconciliation_shipments` -/
def Reconciliations.select (db : Reconciliations) (reportIds : List Str) :
    List (Report × Shipment) :=
  ((db.shipments.rows.filter fun s ↦ decide (s.reportId ∈ reportIds)).insertionSort
    Shipment.before).flatMap fun s ↦
      (db.reports.rows.filter fun r ↦ decide (r.reportId = s.reportId)).map fun r ↦ (r, s)

section Lease

variable {F : Type} (E : ReportEnv F)

/-- `lease_reconciliation_batch`, with the tokens it draws -/
def leaseReconciliationBatch (db : Reconciliations) (limit leaseFor now : Int) (token : Str → Str) :
    Except ReportError (List (Report × Shipment) × Reconciliations) := do
  require (0 < limit ∧ 0 < leaseFor) (.value "commercial reconciliation shipment lease is invalid")
  let current ← reportTime E now
  let expires ← reportTime E (now + leaseFor)
  let expired ← requireSome (db.shipments.update? (fun s ↦ s.isExpired current)
    (fun s ↦ s.expire current) fun _ ↦ rfl) .integrity
  let candidates := Reconciliations.candidates ⟨db.reports, expired⟩ current limit.toNat
  let reportIds := candidates.map Shipment.reportId
  let leased ← requireSome (leaseShipments token expires reportIds expired) .integrity
  .ok (Reconciliations.select ⟨db.reports, leased⟩ reportIds, ⟨db.reports, leased⟩)

/-- `enable_reconciliation_shipping`, as far as the tables are concerned -/
def enableReconciliationShipping (db : Reconciliations) :
    Except ReportError (Nat × Reconciliations) := do
  let shipments ← requireSome (db.shipments.update? (fun s ↦ decide (s.state = .held))
    (fun s ↦ { s with state := .pending }) fun _ ↦ rfl) .integrity
  .ok (db.shipments.rowcount fun s ↦ decide (s.state = .held), ⟨db.reports, shipments⟩)

/-! ## Marking -/

/-- The columns an attempt ends with. -/
structure ShipmentOutcome where
  state : ShipmentState
  ingestStatus : Option ShipmentIngest
  ingestReasonCode : Option Str
  ingestDecidedAt : Option Str
  acceptedAt : Option Str
  nextAttemptAt : Option Str
  error : Option Str

def Shipment.finish (s : Shipment) (o : ShipmentOutcome) : Shipment :=
  { s with
    state := o.state, sendingLeaseToken := none, sendingLeaseExpiresAt := none
    ingestStatus := o.ingestStatus, ingestReasonCode := o.ingestReasonCode
    ingestDecidedAt := o.ingestDecidedAt, acceptedAt := o.acceptedAt
    nextAttemptAt := o.nextAttemptAt, lastError := o.error.map (·.take 4096) }

/-- The shipment is being sent under the token. -/
def Shipment.isSendingUnder (s : Shipment) (reportId token : Str) : Bool :=
  decide (s.reportId = reportId) && decide (s.state = .sending) &&
    decide (s.sendingLeaseToken = some token)

def finishReconciliationShipment (db : Reconciliations) (reportId leaseToken : Str)
    (o : ShipmentOutcome) : Except ReportError (Bool × Reconciliations) := do
  let shipments ← requireSome (db.shipments.update? (fun s ↦ s.isSendingUnder reportId leaseToken)
    (fun s ↦ s.finish o) fun _ ↦ rfl) .integrity
  .ok (decide (db.shipments.rowcount (fun s ↦ s.isSendingUnder reportId leaseToken) = 1),
    ⟨db.reports, shipments⟩)

def markReconciliationAccepted (db : Reconciliations) (reportId leaseToken : Str)
    (ingestStatus : ShipmentIngest) (reasonCode : Option Str) (acceptedAt : Int) :
    Except ReportError (Bool × Reconciliations) := do
  let decided ← reportTime E acceptedAt
  finishReconciliationShipment db reportId leaseToken
    { state := .accepted, ingestStatus := some ingestStatus,
      ingestReasonCode := stripOrNone reasonCode
      ingestDecidedAt := some decided, acceptedAt := some decided, nextAttemptAt := none
      error := none }

def markReconciliationRetryable (db : Reconciliations) (reportId leaseToken : Str)
    (nextAttemptAt : Int) (error : Str) : Except ReportError (Bool × Reconciliations) := do
  let next ← reportTime E nextAttemptAt
  finishReconciliationShipment db reportId leaseToken
    { state := .retryable, ingestStatus := none, ingestReasonCode := none, ingestDecidedAt := none
      acceptedAt := none, nextAttemptAt := some next, error := some error }

/-- The time of a decision, if there is one. -/
def reportDecisionTime (ingestStatus : Option ShipmentIngest) (decidedAt : Int) :
    Except ReportError (Option Str) :=
  if ingestStatus.isSome then (reportTime E decidedAt).map some else .ok none

def markReconciliationDead (db : Reconciliations) (reportId leaseToken error : Str)
    (ingestStatus : Option ShipmentIngest) (reasonCode : Option Str) (decidedAt : Int) :
    Except ReportError (Bool × Reconciliations) := do
  require (ingestStatus.isSome = true → stripOrNone reasonCode ≠ none)
    (.value "terminal reconciliation decision requires reason code")
  let decided ← reportDecisionTime E ingestStatus decidedAt
  finishReconciliationShipment db reportId leaseToken
    { state := .dead, ingestStatus, ingestReasonCode := stripOrNone reasonCode
      ingestDecidedAt := decided, acceptedAt := none, nextAttemptAt := none, error := some error }

end Lease

/-! ## Runs -/

/-- The calls of producers and shippers.  Every producer says for itself whether shipping is
enabled. -/
inductive ReportOp (F : Type) where
  | record (report : Json F) (recordedAt : Int) (enabled : Bool)
  | lease (limit leaseFor now : Int) (token : Str → Str)
  | enable
  | accepted (reportId leaseToken : Str) (ingestStatus : ShipmentIngest) (reasonCode : Option Str)
    (acceptedAt : Int)
  | retryable (reportId leaseToken : Str) (nextAttemptAt : Int) (error : Str)
  | dead (reportId leaseToken error : Str) (ingestStatus : Option ShipmentIngest)
    (reasonCode : Option Str) (decidedAt : Int)

section Runs

variable {F : Type} [PyFloat F] (E : ReportEnv F)

/-- The body of a call, without what it returns. -/
def ReportOp.body (db : Reconciliations) : ReportOp F → Except ReportError Reconciliations
  | .record report recordedAt enabled =>
    (recordReconciliationReport E db report recordedAt enabled).map Prod.snd
  | .lease limit leaseFor now token =>
    (leaseReconciliationBatch E db limit leaseFor now token).map Prod.snd
  | .enable => (enableReconciliationShipping db).map Prod.snd
  | .accepted reportId leaseToken status reasonCode acceptedAt =>
    (markReconciliationAccepted E db reportId leaseToken status reasonCode acceptedAt).map Prod.snd
  | .retryable reportId leaseToken nextAttemptAt error =>
    (markReconciliationRetryable E db reportId leaseToken nextAttemptAt error).map Prod.snd
  | .dead reportId leaseToken error status reasonCode decidedAt =>
    (markReconciliationDead E db reportId leaseToken error status reasonCode decidedAt).map Prod.snd

/-- A call that raises is rolled back. -/
def reportStep (db : Reconciliations) (op : ReportOp F) : Reconciliations :=
  match op.body E db with
  | .ok db' => db'
  | .error _ => db

def afterReports (db : Reconciliations) (ops : List (ReportOp F)) : Reconciliations :=
  runs (reportStep E) db ops

end Runs

end AgentGateway.UsageOutbox.Reconciliation
