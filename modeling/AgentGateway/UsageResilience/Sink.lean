import AgentGateway.UsageResilience.Spool

/-!
# The usage sink and its circuit breaker

`ResilientCommercialUsageSink` writes a batch to the outbox, and if that fails to the emergency
spool.  Each failure trips a circuit, whose state is kept in a file: no further work is to be paid
for until an operator has replayed the spool and reset the circuit, naming the incident by the time
it was tripped.

Any number of processes share the outbox, the spool and the circuit.  A call of the sink is a
sequence of steps, between which other processes take theirs: the outbox, the circuit and the spool
are each locked on their own.  `Phase` says how far the call of a process has come.  A reset takes
the lock of the spool and keeps it while it resets the circuit, so nothing is appended in between.

A process may die at any time (`crash`), and gives up its lock.  A check whether work is allowed may
trip the circuit (`trip`) and changes nothing else.  Writes of the state of the circuit succeed, and
what is written is what is read; what is in the reasons does not matter.  `acknowledged` is not part
of the system: it collects the batches for which a call has returned `emergency_spool`.
-/

open Py

namespace AgentGateway.UsageResilience

open UsageOutbox

/-! ## The circuit -/

/-- `CommercialUsageCircuitSnapshot` -/
structure Circuit where
  tripped : Bool := false
  reason : Option Str := none
  trippedAt : Option Str := none
  byokAllowedUntil : Option Str := none
  lastResetAt : Option Str := none
  lastResetOperatorId : Option Str := none
  lastResetEvidenceId : Option Str := none
  lastResetPriorTrippedAt : Option Str := none
deriving DecidableEq

/-- The texts of the time of a trip and of the end of the grace it leaves. -/
structure Stamp where
  trippedAt : Str
  byokAllowedUntil : Str
deriving DecidableEq

namespace Circuit

/-- `str(reason or "commercial usage durability unavailable")[:4_096]` -/
def normalizeReason (reason : Str) : Str :=
  (if reason = [] then .lit "commercial usage durability unavailable" else reason).take 4096

def trip (c : Circuit) (reason : Str) (stamp : Stamp) (replaceReason : Bool) : Circuit :=
  if c.tripped ∧ replaceReason = false then c
  else
    let hasValidDeadline := c.tripped && c.trippedAt.isSome && c.byokAllowedUntil.isSome
    { c with
      tripped := true
      reason := some (normalizeReason reason)
      trippedAt := if hasValidDeadline then c.trippedAt else some stamp.trippedAt
      byokAllowedUntil :=
        if hasValidDeadline then c.byokAllowedUntil else some stamp.byokAllowedUntil }

/-- What an operator gives with a reset. -/
structure ResetRequest where
  expectedTrippedAt : Str
  operatorId : Str
  reconciliationEvidenceId : Str
  maxBacklogCount : Int
deriving DecidableEq

inductive ResetError where
  /-- `ValueError` -/
  | value (message : String)
  /-- `CommercialUsageCircuitOpen` -/
  | circuitOpen (message : String)
deriving DecidableEq

def resetWithEvidence (c : Circuit) (request : ResetRequest) (resetAt : Str) :
    Except ResetError Circuit := do
  let operator := request.operatorId.strip
  let evidence := request.reconciliationEvidenceId.strip
  require (request.expectedTrippedAt ≠ [] ∧ operator ≠ [] ∧ evidence ≠ [])
    (.value "commercial usage circuit reset evidence is required")
  require (operator.length ≤ 128 ∧ evidence.length ≤ 256)
    (.value "commercial usage circuit reset evidence is too long")
  require (c.tripped = true) (.circuitOpen "commercial usage circuit is not tripped")
  require (c.trippedAt = some request.expectedTrippedAt)
    (.circuitOpen "commercial usage circuit incident changed before reset")
  .ok
    { tripped := false
      lastResetAt := some resetAt
      lastResetOperatorId := some operator
      lastResetEvidenceId := some evidence
      lastResetPriorTrippedAt := c.trippedAt }

end Circuit

/-! ## Processes -/

section System

variable {F : Type}

/-- How far the call of a process has come. -/
inductive Phase (F : Type) where
  | idle
  /-- the outbox has failed -/
  | primaryFailed (payloads : List (Obj F))
  /-- and the circuit was tripped -/
  | spooling (payloads : List (Obj F))
  /-- the spool has failed too -/
  | spoolFailed (payloads : List (Obj F))
  /-- the outbox was found healthy for a reset -/
  | healthy (request : Circuit.ResetRequest) (storageBytes : Nat)
  /-- the lock of the spool is held, and nothing is pending -/
  | drained (request : Circuit.ResetRequest)

/-- `outbox.health()` -/
structure Health where
  ok : Bool
  backlogCount : Int
  reconciliationShipmentBacklogCount : Int
  storageBytes : Nat
deriving DecidableEq

structure System (F : Type) where
  outbox : Outbox
  spool : Spool
  circuit : Circuit
  /-- the process that holds the lock of the spool between two steps -/
  lockHolder : Option Nat
  procs : Nat → Phase F
  acknowledged : List (List (Obj F))

/-- Nothing has happened yet. -/
def System.start : System F := ⟨Guarded.empty, {}, {}, none, fun _ ↦ .idle, []⟩

/-- What the outbox does in a call: it works, it raises, or it raises once the batch is committed.
-/
inductive Fate where
  | works
  | fails
  | failsAfterCommit
deriving DecidableEq

/-- A step of the process `p`. -/
inductive Act (F : Type) where
  /-- a call of the sink tries the outbox -/
  | call (p : Nat) (payloads : List (Obj F)) (fate : Fate) (now : Int)
  | tripPrimary (p : Nat) (reason : Str) (stamp : Stamp)
  | spool (p : Nat) (id : FileId) (cut : Cut)
  /-- and then the call returns `lost` -/
  | tripLost (p : Nat) (reason : Str) (stamp : Stamp)
  /-- `assert_work_allowed`, `record_reconciliation` -/
  | trip (reason : Str) (stamp : Stamp)
  | replay (limit writes : Option Nat) (now : Int)
  | beginReset (p : Nat) (request : Circuit.ResetRequest) (health : Health)
  | lockSpool (p : Nat)
  | finishReset (p : Nat) (resetAt : Str)
  | crash (p : Nat)

namespace System

variable (s : System F)

/-- The system, with the process in another phase. -/
def goto (p : Nat) (phase : Phase F) : System F :=
  { s with procs := Function.update s.procs p phase }

def unlock (p : Nat) : System F :=
  { s with lockHolder := if s.lockHolder = some p then none else s.lockHolder }

def tripPrimary (p : Nat) (reason : Str) (stamp : Stamp) : System F :=
  match s.procs p with
  | .primaryFailed payloads =>
    { s with circuit := s.circuit.trip reason stamp false }.goto p (.spooling payloads)
  | _ => s

def tripLost (p : Nat) (reason : Str) (stamp : Stamp) : System F :=
  match s.procs p with
  | .spoolFailed _ => { s with circuit := s.circuit.trip reason stamp true }.goto p .idle
  | _ => s

/-- `reset_after_recovery`, up to the lock -/
def beginReset (p : Nat) (request : Circuit.ResetRequest) (health : Health) : System F :=
  match s.procs p with
  | .idle =>
    if 0 ≤ request.maxBacklogCount ∧ health.ok ∧ health.backlogCount ≤ request.maxBacklogCount ∧
        health.reconciliationShipmentBacklogCount ≤ request.maxBacklogCount then
      s.goto p (.healthy request health.storageBytes)
    else s
  | _ => s

/-- Does the reset of the process succeed, if it finishes now? -/
def resets (p : Nat) (resetAt : Str) : Option (Circuit.ResetRequest × Circuit) :=
  match s.procs p with
  | .drained request => (s.circuit.resetWithEvidence request resetAt).toOption.map (request, ·)
  | _ => none

/-- The circuit is reset, and the lock is given up. -/
def finishReset (p : Nat) (resetAt : Str) : System F :=
  match s.procs p with
  | .drained request =>
    { s with circuit := (s.circuit.resetWithEvidence request resetAt).toOption.getD s.circuit
      }.unlock p
      |>.goto p .idle
  | _ => s

variable [PyFloatNames F] (H : Host F) (maxStorageBytes : Nat)

/-- The call of the sink, up to the outbox. -/
def call (p : Nat) (payloads : List (Obj F)) (fate : Fate) (now : Int) : System F :=
  match s.procs p with
  | .idle =>
    match fate, enqueueBatch H.outbox s.outbox (payloads.map fun o ↦ .dict o.event) now with
    | .works, .ok db => { s with outbox := db }
    | .failsAfterCommit, .ok db => { s with outbox := db }.goto p (.primaryFailed payloads)
    | _, _ => s.goto p (.primaryFailed payloads)
  | _ => s

/-- The append; it waits for the lock. -/
def spoolBatch (p : Nat) (id : FileId) (cut : Cut) : System F :=
  match s.procs p, s.lockHolder with
  | .spooling payloads, none =>
    match appendBatch H s.spool payloads id cut with
    | (spool, .ok ()) =>
      { s with spool, acknowledged := payloads :: s.acknowledged }.goto p .idle
    | (spool, .error _) => { s with spool }.goto p (.spoolFailed payloads)
  | _, _ => s

/-- `replay_emergency`; it waits for the lock -/
def replay (limit writes : Option Nat) (now : Int) : System F :=
  match s.lockHolder with
  | none =>
    let (outbox, spool, _) := replayInto H s.spool s.outbox limit writes now
    { s with outbox, spool }
  | some _ => s

/-- The lock is taken, and the spool is looked at. -/
def lockSpool (p : Nat) : System F :=
  match s.procs p, s.lockHolder with
  | .healthy request storageBytes, none =>
    if pendingBatches H s.spool = .ok 0 ∧
        storageBytes + (s.spool.file.elim 0 List.length) < maxStorageBytes then
      { s with lockHolder := some p }.goto p (.drained request)
    else s.goto p .idle
  | _, _ => s

def step : System F → Act F → System F
  | s, .call p payloads fate now => s.call H p payloads fate now
  | s, .tripPrimary p reason stamp => s.tripPrimary p reason stamp
  | s, .spool p id cut => s.spoolBatch H p id cut
  | s, .tripLost p reason stamp => s.tripLost p reason stamp
  | s, .trip reason stamp => { s with circuit := s.circuit.trip reason stamp false }
  | s, .replay limit writes now => s.replay H limit writes now
  | s, .beginReset p request health => s.beginReset p request health
  | s, .lockSpool p => s.lockSpool H maxStorageBytes p
  | s, .finishReset p resetAt => s.finishReset p resetAt
  | s, .crash p => (s.unlock p).goto p .idle

end System

end System

end AgentGateway.UsageResilience
