import AgentGateway.Py.Calls
import AgentGateway.Py.Runs
import AgentGateway.Py.Sqlite
import AgentGateway.Py.Text

/-!
# The fork ledger

The ledger keeps two tables.  A receipt tells the parent's session how a fork ended: it is written
once, claimed by a turn that wants to show it, and then acknowledged or handed back.  An admission
accounts for a paid fork: its reservation stands in for its cost while it is reserved or started, it
is charged what it spent when it is settled, and its whole reservation when it is abandoned.

Any number of processes open the ledger, each under an instance identifier of its own, and each
operation is one exclusive transaction that first reads the clock and refuses to go back in time.
What a process that died has left behind is recovered explicitly, by a process that names the
instances that are alive, or one that is dead (`Recovery`).

The `CHECK` constraints of the two tables tie the columns of a claim and of a settlement to the
state of the row.  Here they are arguments of the state (`ReceiptStatus`, `AdmissionStatus`), so
that a row that breaks a constraint cannot be built.
-/

namespace AgentGateway.ForkLedger

open Py

/-! ## Errors and arguments -/

inductive LedgerError where
  | value (message : String)
  | invalidOperation
  /-- `ForkLedgerClockRollback` -/
  | clockRollback
  /-- `ForkLedgerDuplicate` -/
  | duplicate (message : String)
  /-- `ForkLedgerUnavailable` -/
  | unavailable
  /-- what the reader of a journal raised -/
  | journal
deriving DecidableEq

def maxTextLength : Nat := 4096

def requiredText (field : String) (s : Str) : Except LedgerError Unit :=
  require (s ≠ [] ∧ .scalar '\x00' ∉ s ∧ s = s.strip ∧ s.length ≤ maxTextLength)
    (.value (field ++ " must be canonical non-empty text"))

def oneLine (s : Str) : Except LedgerError Unit := do
  requiredText "receipt text" s
  require (.scalar '\n' ∉ s ∧ .scalar '\r' ∉ s) (.value "receipt text must be one line")

/-- The greatest integer of SQLite. -/
def maxInteger : Nat := 2 ^ 63 - 1

/-- `_usd_to_micros`, on the number the argument stands for, if it stands for a finite one.
Decimals have 28 digits, and a half is rounded up. -/
def usdToMicros (field : String) (allowZero : Bool) (usd : Option ℚ) : Except LedgerError Nat := do
  let amount ← requireSome (usd.filter fun q ↦ decide (0 ≤ q ∧ (q = 0 → allowZero = true)))
    (.value (field ++ " must be finite and " ++ if allowZero then "non-negative" else "positive"))
  let micros := (amount * 1000000 + 1 / 2).floor.toNat
  require (micros < 10 ^ 28) .invalidOperation
  require (micros = 0 → allowZero = true) (.value (field ++ " must be at least one micro-USD"))
  require (micros ≤ maxInteger) (.value (field ++ " is too large"))
  .ok micros

/-! ## Receipts -/

/-- The columns of a claim. -/
structure Claim where
  claimToken : Str
  claimingTurnId : Str
  processInstanceId : Str
  claimedAtNs : Int
deriving DecidableEq

/-- `state`, with the columns its constraint ties to it. -/
inductive ReceiptStatus where
  | pending
  | claimed (claim : Claim)
  | acked (claim : Claim) (ackedAtNs : Int)
deriving DecidableEq

/-- `fork_receipts` -/
structure Receipt where
  forkId : Str
  sessionId : Str
  owner : Str
  receiptText : Str
  status : ReceiptStatus
  createdAtNs : Int
  updatedAtNs : Int
deriving DecidableEq

def Receipt.isPending (r : Receipt) : Bool := decide (r.status = .pending)

/-- The claim a turn holds, as long as it is outstanding. -/
def Receipt.claim? (r : Receipt) : Option Claim :=
  match r.status with
  | .claimed c => some c
  | _ => none

/-! ## Admissions -/

/-- `state`, with the columns its constraint ties to it: what is charged in the end, and when the
fork was started and settled. -/
inductive AdmissionStatus where
  | reserved
  | started (startedAtNs : Int)
  | settled (startedAtNs : Option Int) (settledMicrousd : Nat) (settledAtNs : Int)
  | abandoned (startedAtNs : Option Int) (settledMicrousd : Nat) (settledAtNs : Int)
deriving DecidableEq

namespace AdmissionStatus

def isReserved : AdmissionStatus → Bool
  | reserved => true
  | _ => false

def isStarted : AdmissionStatus → Bool
  | started _ => true
  | _ => false

/-- `state IN ('reserved', 'started')` -/
def inFlight (s : AdmissionStatus) : Bool := s.isReserved || s.isStarted

def startedAt? : AdmissionStatus → Option Int
  | reserved => none
  | started at_ => some at_
  | settled at_ _ _ => at_
  | abandoned at_ _ _ => at_

end AdmissionStatus

/-- `fork_admissions`; the date is the number of the day. -/
structure Admission where
  forkId : Str
  owner : Str
  admissionDate : Nat
  maxReservedMicrousd : Nat
  status : AdmissionStatus
  processInstanceId : Str
  createdAtNs : Int
  updatedAtNs : Int
deriving DecidableEq

/-- What the fork counts for in the totals of its day. -/
def Admission.charge (a : Admission) : Nat :=
  match a.status with
  | .reserved | .started _ => a.maxReservedMicrousd
  | .settled _ micros _ | .abandoned _ micros _ => micros

/-! ## Transactions -/

/-- The ledger, with the last reading of the clock. -/
structure Db where
  lastObservedWallNs : Int
  receipts : Table Receipt Receipt.forkId
  admissions : Table Admission Admission.forkId

def Db.empty : Db := ⟨0, .empty, .empty⟩

/-- `_utc_day`: a `datetime` goes up to the end of the year 9999. -/
def utcDay (nowNs : Int) : Except LedgerError Nat := do
  require (nowNs / 1000000000 < 253402300800) (.value "year is out of range")
  .ok (nowNs / 1000000000 / 86400).toNat

/-- `_transaction`: the operation sees the reading of the clock, and the day it falls on. -/
def Db.transaction {α : Type} (db : Db) (nowNs : Int)
    (operation : Db → Nat → Except LedgerError (α × Db)) : Except LedgerError (α × Db) := do
  require (0 < nowNs) (.value "fork ledger clock must return a positive integer")
  require (db.lastObservedWallNs ≤ nowNs) .clockRollback
  let day ← utcDay nowNs
  operation { db with lastObservedWallNs := nowNs } day

/-! ## Reserving and settling -/

structure AdmissionReservation where
  record : Admission
  dayInvocations : Nat
  dayChargedMicrousd : Nat
deriving DecidableEq

/-- The admissions of an owner on a day. -/
def Db.admissionsOf (db : Db) (owner : Str) (day : Nat) : List Admission :=
  db.admissions.rows.filter fun a ↦ decide (a.owner = owner ∧ a.admissionDate = day)

/-- The body of `reserve_admission`.  `SUM` raises if it exceeds the integers of SQLite. -/
def insertAdmission (p forkId owner : Str) (reserved : Nat) (nowNs : Int) (db : Db) (day : Nat) :
    Except LedgerError (AdmissionReservation × Db) := do
  require (db.admissions.find? forkId = none) (.duplicate "fork admission id already exists")
  let totals := db.admissionsOf owner day
  let charged := (totals.map Admission.charge).sum
  require (charged ≤ maxInteger) .unavailable
  let row : Admission := ⟨forkId, owner, day, reserved, .reserved, p, nowNs, nowNs⟩
  let admissions ← requireSome (db.admissions.insert? row) .unavailable
  .ok (⟨row, totals.length + 1, charged + reserved⟩, { db with admissions })

/-- `reserve_admission`, called by the instance `p` -/
def reserveAdmission (db : Db) (p forkId owner : Str) (maxReservedUsd : Option ℚ) (nowNs : Int) :
    Except LedgerError (AdmissionReservation × Db) := do
  requiredText "fork id" forkId
  requiredText "owner" owner
  let reserved ← usdToMicros "fork reservation estimate" false maxReservedUsd
  db.transaction nowNs (insertAdmission p forkId owner reserved nowNs)

/-- The row after an `UPDATE` of its state. -/
def Admission.withStatus (a : Admission) (status : AdmissionStatus) (nowNs : Int) : Admission :=
  { a with status, updatedAtNs := nowNs }

/-- `UPDATE fork_admissions SET … WHERE fork_id = ? AND state IN … AND process_instance_id = ?`, and
whether it hit a row. -/
def updateOwned (db : Db) (p forkId : Str) (admits : AdmissionStatus → Bool)
    (set : Admission → AdmissionStatus) (nowNs : Int) : Except LedgerError (Bool × Db) :=
  db.transaction nowNs fun db _ ↦
    let hit : Admission → Bool := fun a ↦
      decide (a.forkId = forkId) && admits a.status && decide (a.processInstanceId = p)
    .ok (decide (db.admissions.rowcount hit = 1),
      { db with
        admissions := db.admissions.update hit (fun a ↦ a.withStatus (set a) nowNs) fun _ ↦ rfl })

def markAdmissionStarted (db : Db) (p forkId : Str) (nowNs : Int) :
    Except LedgerError (Bool × Db) := do
  requiredText "fork id" forkId
  updateOwned db p forkId AdmissionStatus.isReserved (fun _ ↦ .started nowNs) nowNs

def settleAdmission (db : Db) (p forkId : Str) (actualCostUsd : Option ℚ) (nowNs : Int) :
    Except LedgerError (Bool × Db) := do
  requiredText "fork id" forkId
  let actual ← usdToMicros "actual fork cost" true actualCostUsd
  updateOwned db p forkId AdmissionStatus.inFlight
    (fun a ↦ .settled a.status.startedAt? actual nowNs) nowNs

/-- What an abandoned fork is charged. -/
def Admission.abandonedAt (a : Admission) (nowNs : Int) : AdmissionStatus :=
  .abandoned a.status.startedAt? a.maxReservedMicrousd nowNs

def abandonAdmission (db : Db) (p forkId : Str) (nowNs : Int) : Except LedgerError (Bool × Db) := do
  requiredText "fork id" forkId
  updateOwned db p forkId AdmissionStatus.inFlight (fun a ↦ a.abandonedAt nowNs) nowNs

/-! ## Receipts and their claims -/

/-- The body of `write_receipt` -/
def insertReceipt (forkId sessionId owner receiptText : Str) (nowNs : Int) (db : Db) (_day : Nat) :
    Except LedgerError (Bool × Db) :=
  match db.receipts.insert? ⟨forkId, sessionId, owner, receiptText, .pending, nowNs, nowNs⟩ with
  | some receipts => .ok (true, { db with receipts })
  | none => do
    require (∃ r ∈ db.receipts.rows, r.forkId = forkId ∧ r.sessionId = sessionId ∧ r.owner = owner ∧
      r.receiptText = receiptText)
      (.duplicate "fork receipt id is already bound to different content")
    .ok (false, db)

def writeReceipt (db : Db) (forkId sessionId owner receiptText : Str) (nowNs : Int) :
    Except LedgerError (Bool × Db) := do
  requiredText "fork id" forkId
  requiredText "session id" sessionId
  requiredText "owner" owner
  oneLine receiptText
  db.transaction nowNs (insertReceipt forkId sessionId owner receiptText nowNs)

structure ReceiptClaim where
  forkId : Str
  sessionId : Str
  owner : Str
  receiptText : Str
  claim : Claim
deriving DecidableEq

/-- `ORDER BY created_at_ns, fork_id` -/
def Receipt.before (r s : Receipt) : Prop :=
  r.createdAtNs < s.createdAtNs ∨ (r.createdAtNs = s.createdAtNs ∧ r.forkId.le s.forkId)

instance : DecidableRel Receipt.before := fun _ _ ↦
  inferInstanceAs (Decidable (_ ∨ (_ ∧ Str.le _ _)))

/-- The receipts of a session that wait for a turn. -/
def Db.pendingReceipts (db : Db) (sessionId owner : Str) (limit : Nat) : List Receipt :=
  ((db.receipts.rows.filter fun r ↦
    decide (r.sessionId = sessionId ∧ r.owner = owner) && r.isPending).insertionSort
      Receipt.before).take limit

/-- The loop of `claim_pending_receipts`, with the tokens it draws. -/
def claimRows (p turnId : Str) (nowNs : Int) :
    List (Receipt × Str) → Table Receipt Receipt.forkId →
      List ReceiptClaim × Table Receipt Receipt.forkId
  | [], t => ([], t)
  | (r, token) :: rest, t =>
    let hit : Receipt → Bool := fun x ↦ decide (x.forkId = r.forkId) && x.isPending
    let claim : Claim := ⟨token, turnId, p, nowNs⟩
    let (claims, t') := claimRows p turnId nowNs rest
      (t.update hit (fun x ↦ { x with status := .claimed claim, updatedAtNs := nowNs }) fun _ ↦ rfl)
    if t.rowcount hit = 1 then
      (⟨r.forkId, r.sessionId, r.owner, r.receiptText, claim⟩ :: claims, t')
    else (claims, t')

/-- `claim_pending_receipts`, with the tokens it draws -/
def claimPendingReceipts (db : Db) (p sessionId owner turnId : Str) (limit : Nat)
    (tokens : Nat → Str)
    (nowNs : Int) : Except LedgerError (List ReceiptClaim × Db) := do
  requiredText "session id" sessionId
  requiredText "owner" owner
  requiredText "claiming turn id" turnId
  require (0 < limit) (.value "receipt claim limit must be a positive integer")
  db.transaction nowNs fun db _ ↦
    let rows := db.pendingReceipts sessionId owner limit
    let (claims, receipts) :=
      claimRows p turnId nowNs (rows.zip ((List.range limit).map tokens)) db.receipts
    .ok (claims, { db with receipts })

/-- `_finish_receipt_claim`: the status of the receipt whose claim has the token. -/
def finishReceiptClaim (db : Db) (forkId claimToken : Str) (finish : Claim → ReceiptStatus)
    (nowNs : Int) : Except LedgerError (Bool × Db) := do
  requiredText "fork id" forkId
  requiredText "claim token" claimToken
  db.transaction nowNs fun db _ ↦
    let hit : Receipt → Bool := fun r ↦
      decide (r.forkId = forkId) && r.claim?.any fun c ↦ decide (c.claimToken = claimToken)
    .ok (decide (db.receipts.rowcount hit = 1),
      { db with
        receipts := db.receipts.update hit
          (fun r ↦ { r with status := (r.claim?.map finish).getD r.status, updatedAtNs := nowNs })
          fun _ ↦ rfl })

def ackReceipt (db : Db) (forkId claimToken : Str) (nowNs : Int) : Except LedgerError (Bool × Db) :=
  finishReceiptClaim db forkId claimToken (fun c ↦ .acked c nowNs) nowNs

def revertReceiptClaim (db : Db) (forkId claimToken : Str) (nowNs : Int) :
    Except LedgerError (Bool × Db) :=
  finishReceiptClaim db forkId claimToken (fun _ ↦ .pending) nowNs

/-! ## Recovery -/

/-- Which instances a recovery treats as dead: those outside a set of live ones, or one. -/
inductive Recovery where
  | outside (live : List Str)
  | death (dead : Str)

def Recovery.isDead : Recovery → Str → Bool
  | .outside live, q => decide (q ∉ live)
  | .death dead, q => decide (q = dead)

/-- The checks of the arguments of `reconcile_startup` -/
def Recovery.check (p : Str) : Recovery → Except LedgerError Unit
  | .outside live => do
    require (∀ q ∈ live, q ≠ [] ∧ .scalar '\x00' ∉ q ∧ q = q.strip ∧ q.length ≤ maxTextLength)
      (.value "live process instance id must be canonical non-empty text")
    require (p ∈ live) (.value "live process instance ids must include the current instance")
  | .death dead => do
    requiredText "dead process instance id" dead
    require (dead ≠ p) (.value "cannot reconcile the current process instance")

/-- The forks whose journal holds a committed park.  Reading a journal may raise. -/
def parkedForks (journal : Str → Option Bool) : List Admission → Except LedgerError (List Str)
  | [] => .ok []
  | a :: rest => do
    let parked ← requireSome (journal a.forkId) .journal
    let forks ← parkedForks journal rest
    .ok (if parked then a.forkId :: forks else forks)

/-- The body of `reconcile_startup`: how many claims it has released, and how many admissions it has
abandoned. -/
def reconcile (p : Str) (recovery : Recovery) (journal : Str → Option Bool) (nowNs : Int) (db : Db)
    (_day : Nat) : Except LedgerError ((Nat × Nat) × Db) := do
  let held : Receipt → Bool := fun r ↦ r.claim?.any fun c ↦ recovery.isDead c.processInstanceId
  let receipts := db.receipts.update held
    (fun r ↦ { r with status := .pending, updatedAtNs := nowNs }) fun _ ↦ rfl
  let forks ← parkedForks journal (db.admissions.rows.filter fun a ↦
    a.status.isStarted && recovery.isDead a.processInstanceId)
  let adopted := db.admissions.update (fun a ↦ decide (a.forkId ∈ forks) && a.status.isStarted)
    (fun a ↦ { a with processInstanceId := p, updatedAtNs := nowNs }) fun _ ↦ rfl
  let lost : Admission → Bool := fun a ↦ a.status.inFlight && recovery.isDead a.processInstanceId
  let admissions := adopted.update lost (fun a ↦ a.withStatus (a.abandonedAt nowNs) nowNs) fun _ ↦
    rfl
  .ok ((db.receipts.rowcount held, adopted.rowcount lost), { db with receipts, admissions })

def reconcileStartup (db : Db) (p : Str) (recovery : Recovery) (journal : Str → Option Bool)
    (nowNs : Int) : Except LedgerError ((Nat × Nat) × Db) := do
  recovery.check p
  db.transaction nowNs (reconcile p recovery journal nowNs)

/-! ## Runs -/

/-- The operations, with the instance that calls them, the tokens they draw and the clock. -/
inductive Op where
  | reserve (p forkId owner : Str) (maxReservedUsd : Option ℚ) (nowNs : Int)
  | start (p forkId : Str) (nowNs : Int)
  | settle (p forkId : Str) (actualCostUsd : Option ℚ) (nowNs : Int)
  | abandon (p forkId : Str) (nowNs : Int)
  | reconcile (p : Str) (recovery : Recovery) (journal : Str → Option Bool) (nowNs : Int)
  | write (forkId sessionId owner receiptText : Str) (nowNs : Int)
  | claim (p sessionId owner turnId : Str) (limit : Nat) (tokens : Nat → Str) (nowNs : Int)
  | ack (forkId claimToken : Str) (nowNs : Int)
  | revert (forkId claimToken : Str) (nowNs : Int)

/-- The body of an operation, without what it returns. -/
def Op.body (db : Db) : Op → Except LedgerError Db
  | .reserve p forkId owner usd nowNs =>
    (reserveAdmission db p forkId owner usd nowNs).map Prod.snd
  | .start p forkId nowNs => (markAdmissionStarted db p forkId nowNs).map Prod.snd
  | .settle p forkId usd nowNs => (settleAdmission db p forkId usd nowNs).map Prod.snd
  | .abandon p forkId nowNs => (abandonAdmission db p forkId nowNs).map Prod.snd
  | .reconcile p recovery journal nowNs =>
    (reconcileStartup db p recovery journal nowNs).map Prod.snd
  | .write forkId sessionId owner receiptText nowNs =>
    (writeReceipt db forkId sessionId owner receiptText nowNs).map Prod.snd
  | .claim p sessionId owner turnId limit tokens nowNs =>
    (claimPendingReceipts db p sessionId owner turnId limit tokens nowNs).map Prod.snd
  | .ack forkId claimToken nowNs => (ackReceipt db forkId claimToken nowNs).map Prod.snd
  | .revert forkId claimToken nowNs => (revertReceiptClaim db forkId claimToken nowNs).map Prod.snd

/-- An operation that raises is rolled back. -/
def Db.step (db : Db) (op : Op) : Db :=
  match op.body db with
  | .ok db' => db'
  | .error _ => db

def Db.after (db : Db) (ops : List Op) : Db := runs Db.step db ops

theorem Db.step_cases (db : Db) (op : Op) : db.step op = db ∨ op.body db = .ok (db.step op) := by
  rw [Db.step]
  cases h : op.body db with
  | error => exact .inl rfl
  | ok => exact .inr rfl

theorem transaction_eq_ok {α : Type} {db : Db} {nowNs : Int}
    {operation : Db → Nat → Except LedgerError (α × Db)} {reply : α × Db}
    (h : db.transaction nowNs operation = .ok reply) :
    ∃ day, operation { db with lastObservedWallNs := nowNs } day = .ok reply := by
  simp only [Db.transaction, bind_eq_ok_iff] at h
  obtain ⟨-, -, -, -, day, -, h⟩ := h
  exact ⟨day, h⟩

/-! ## What the operations do to the tables -/

section Updates

variable {db db' : Db} {p forkId : Str} {nowNs : Int} {hit : Bool}

/-- A reservation is for a fork that has none, and its totals are those of the day with it. -/
theorem reserveAdmission_eq_ok {owner : Str} {usd : Option ℚ} {reply : AdmissionReservation}
    (h : reserveAdmission db p forkId owner usd nowNs = .ok (reply, db')) :
    ∃ day reserved admissions, usdToMicros "fork reservation estimate" false usd = .ok reserved ∧
      db.admissions.insert? ⟨forkId, owner, day, reserved, .reserved, p, nowNs, nowNs⟩ =
        some admissions ∧
      reply = ⟨⟨forkId, owner, day, reserved, .reserved, p, nowNs, nowNs⟩,
        (db.admissionsOf owner day).length + 1,
        ((db.admissionsOf owner day).map Admission.charge).sum + reserved⟩ ∧
      db' = ⟨nowNs, db.receipts, admissions⟩ := by
  simp only [reserveAdmission, bind_eq_ok_iff] at h
  obtain ⟨-, -, -, -, reserved, hreserved, h⟩ := h
  obtain ⟨day, h⟩ := transaction_eq_ok h
  simp only [insertAdmission, bind_eq_ok_iff, requireSome_eq_ok_iff] at h
  obtain ⟨-, -, -, -, admissions, hins, h⟩ := h
  cases h
  exact ⟨day, reserved, admissions, hreserved, hins, rfl, rfl⟩

theorem updateOwned_eq_ok {admits : AdmissionStatus → Bool} {set : Admission → AdmissionStatus}
    (h : updateOwned db p forkId admits set nowNs = .ok (hit, db')) :
    db' = ⟨nowNs, db.receipts, db.admissions.update
      (fun a ↦ decide (a.forkId = forkId) && admits a.status && decide (a.processInstanceId = p))
      (fun a ↦ a.withStatus (set a) nowNs) fun _ ↦ rfl⟩ := by
  obtain ⟨day, h⟩ := transaction_eq_ok h
  cases h
  rfl

/-- A receipt is written once. -/
theorem writeReceipt_eq_ok {sessionId owner receiptText : Str}
    (h : writeReceipt db forkId sessionId owner receiptText nowNs = .ok (hit, db')) :
    ∃ receipts, db' = ⟨nowNs, receipts, db.admissions⟩ ∧ (receipts = db.receipts ∨
      db.receipts.insert? ⟨forkId, sessionId, owner, receiptText, .pending, nowNs, nowNs⟩ =
        some receipts) := by
  simp only [writeReceipt, bind_eq_ok_iff] at h
  obtain ⟨-, -, -, -, -, -, -, -, h⟩ := h
  obtain ⟨day, h⟩ := transaction_eq_ok h
  rw [insertReceipt] at h
  split at h
  next receipts hins =>
    cases h
    exact ⟨receipts, rfl, .inr hins⟩
  · simp only [bind_eq_ok_iff] at h
    obtain ⟨-, -, h⟩ := h
    cases h
    exact ⟨db.receipts, rfl, .inl rfl⟩

theorem claimPendingReceipts_eq_ok {sessionId owner turnId : Str} {limit : Nat} {tokens : Nat → Str}
    {claims : List ReceiptClaim}
    (h : claimPendingReceipts db p sessionId owner turnId limit tokens nowNs = .ok (claims, db')) :
    ∃ receipts, claimRows p turnId nowNs ((db.pendingReceipts sessionId owner limit).zip
        ((List.range limit).map tokens)) db.receipts = (claims, receipts) ∧
      db' = ⟨nowNs, receipts, db.admissions⟩ := by
  simp only [claimPendingReceipts, bind_eq_ok_iff] at h
  obtain ⟨-, -, -, -, -, -, -, -, h⟩ := h
  obtain ⟨day, h⟩ := transaction_eq_ok h
  cases h
  exact ⟨_, rfl, rfl⟩

theorem finishReceiptClaim_eq_ok {claimToken : Str} {finish : Claim → ReceiptStatus}
    (h : finishReceiptClaim db forkId claimToken finish nowNs = .ok (hit, db')) :
    let hits : Receipt → Bool := fun r ↦
      decide (r.forkId = forkId) && r.claim?.any fun c ↦ decide (c.claimToken = claimToken)
    hit = decide (db.receipts.rowcount hits = 1) ∧
      db' = ⟨nowNs, db.receipts.update hits
        (fun r ↦ { r with status := (r.claim?.map finish).getD r.status, updatedAtNs := nowNs })
        fun _ ↦ rfl, db.admissions⟩ := by
  simp only [finishReceiptClaim, bind_eq_ok_iff] at h
  obtain ⟨-, -, -, -, h⟩ := h
  obtain ⟨day, h⟩ := transaction_eq_ok h
  cases h
  exact ⟨rfl, rfl⟩

/-- The two halves of a recovery. -/
theorem reconcileStartup_eq_ok {recovery : Recovery} {journal : Str → Option Bool}
    {counts : Nat × Nat} (h : reconcileStartup db p recovery journal nowNs = .ok (counts, db')) :
    recovery.check p = .ok () ∧ ∃ forks,
      parkedForks journal (db.admissions.rows.filter fun a ↦
        a.status.isStarted && recovery.isDead a.processInstanceId) = .ok forks ∧
      db' = ⟨nowNs,
        db.receipts.update (fun r ↦ r.claim?.any fun c ↦ recovery.isDead c.processInstanceId)
          (fun r ↦ { r with status := .pending, updatedAtNs := nowNs }) fun _ ↦ rfl,
        (db.admissions.update (fun a ↦ decide (a.forkId ∈ forks) && a.status.isStarted)
          (fun a ↦ { a with processInstanceId := p, updatedAtNs := nowNs }) fun _ ↦ rfl).update
            (fun a ↦ a.status.inFlight && recovery.isDead a.processInstanceId)
            (fun a ↦ a.withStatus (a.abandonedAt nowNs) nowNs) fun _ ↦ rfl⟩ := by
  simp only [reconcileStartup, bind_eq_ok_iff] at h
  obtain ⟨_, hcheck, h⟩ := h
  obtain ⟨day, h⟩ := transaction_eq_ok h
  simp only [reconcile, bind_eq_ok_iff] at h
  obtain ⟨forks, hforks, h⟩ := h
  cases h
  exact ⟨hcheck, forks, hforks, rfl⟩

end Updates

end AgentGateway.ForkLedger
