import AgentGateway.Py.Calls
import AgentGateway.Py.Sqlite

/-!
# The store of agent-run schedules

A schedule says when runs are to be started, and `next_run_at` when the next one is due.  A poll
that finds a schedule due first takes a claim on it (`claimDueRecord`), then starts the run, and
then records what came of it (`recordFireResult`), which gives up the claim and moves `next_run_at`
on.  A claim that is older than a quarter of an hour may be taken over.

The store is a file that every call reads and writes as a whole.  Calls do not wait in between, so
each of them is one step; `Py.Table` is the list of records, whose identifiers are drawn at random.

Times are microseconds.  A time zone is left open (`Zone`): it says what the clock of the place
shows at an instant, and which instant a reading of that clock is taken for.  Where clocks are set
back a reading stands for two instants, and is taken for the first.
-/

namespace AgentGateway.Schedules

open Py

/-! ## When the next run is due -/

/-- `timedelta(seconds=1)`, and a day of them -/
def second : Int := 1000000

def day : Int := 86400 * second

/-- `ZoneInfo` -/
structure Zone where
  /-- `utcoffset` at an instant -/
  offset : Int → Int
  /-- `utcoffset` of a reading of the local clock, with `fold=0` -/
  localOffset : Int → Int

/-- `t.astimezone(zone)` -/
def Zone.toLocal (z : Zone) (t : Int) : Int := t + z.offset t

/-- `t.astimezone(timezone.utc)` -/
def Zone.toUtc (z : Zone) (reading : Int) : Int := reading - z.localOffset reading

structure TimeOfDay where
  hour : Fin 24
  minute : Fin 60
deriving DecidableEq

/-- `AgentRunScheduleCadence` -/
inductive Cadence where
  | daily (timeOfDay : TimeOfDay)
  | weekly (timeOfDay : TimeOfDay) (daysOfWeek : List Int)
  | monthly (timeOfDay : TimeOfDay) (daysOfMonth : List Int)
deriving DecidableEq

def Cadence.timeOfDay : Cadence → TimeOfDay
  | .daily t => t
  | .weekly t _ => t
  | .monthly t _ => t

/-- The number of a date, counted from 1970-01-01. -/
def dayNumber (year month dayOfMonth : Int) : Int :=
  let y := if month ≤ 2 then year - 1 else year
  let era := y / 400
  let yearOfEra := y - era * 400
  let dayOfYear := (153 * (if month ≤ 2 then month + 9 else month - 3) + 2) / 5 + dayOfMonth - 1
  era * 146097 + (yearOfEra * 365 + yearOfEra / 4 - yearOfEra / 100 + dayOfYear) - 719468

/-- The year and the month of a day. -/
def monthOf (number : Int) : Int × Int :=
  let z := number + 719468
  let era := z / 146097
  let dayOfEra := z - era * 146097
  let yearOfEra := (dayOfEra - dayOfEra / 1460 + dayOfEra / 36524 - dayOfEra / 146096) / 365
  let dayOfYear := dayOfEra - (365 * yearOfEra + yearOfEra / 4 - yearOfEra / 100)
  let m := (5 * dayOfYear + 2) / 153
  let month := if m < 10 then m + 3 else m - 9
  (yearOfEra + era * 400 + if month ≤ 2 then 1 else 0, month)

def nextMonth (month : Int × Int) : Int × Int :=
  if month.2 = 12 then (month.1 + 1, 1) else (month.1, month.2 + 1)

/-- `date(year, month, day)`, if there is such a date -/
def date? (month : Int × Int) (dayOfMonth : Int) : Option Int :=
  let number := dayNumber month.1 month.2 dayOfMonth
  if 1 ≤ dayOfMonth ∧ monthOf number = month then some number else none

example : dayNumber 2000 3 1 = 11017 ∧ monthOf 11016 = (2000, 2) ∧ date? (2001, 2) 29 = none := by
  decide

def isoweekday (number : Int) : Int := (number + 3) % 7 + 1

/-- The days on which the schedule may be due, in the order they are tried in. -/
def candidateDays (today : Int) : Cadence → List Int
  | .daily _ => (List.range 3).map fun i ↦ today + i
  | .weekly _ days =>
    ((List.range 15).map fun i ↦ today + (i : Int)).filter fun d ↦ decide (isoweekday d ∈ days)
  | .monthly _ days =>
    (List.iterate nextMonth (monthOf today) 24).flatMap fun month ↦
      (days.insertionSort (· ≤ ·)).filterMap (date? month)

def localCandidate (d : Int) (t : TimeOfDay) : Int :=
  d * day + (t.hour * 60 + t.minute) * 60 * second

/-- `compute_agent_schedule_next_run_at`, which compares readings of the local clock -/
def computeNextRunAt (zones : String → Option Zone) (cadence : Cadence) (timezone : String)
    (after : Int) : Option Int := do
  let zone ← zones timezone
  let reference := zone.toLocal after
  let candidates :=
    (candidateDays (reference / day) cadence).map (localCandidate · cadence.timeOfDay)
  let candidate ← candidates.find? fun c ↦ decide (reference < c)
  some (zone.toUtc candidate)

/-! ## Records -/

/-- A schedule, with a dispatch of type `δ` -/
structure Record (δ : Type) where
  scheduleId : String
  name : String
  ownerUserId : String
  enabled : Bool
  timezone : String
  cadence : Cadence
  dispatch : δ
  dispatchRevision : Nat
  dispatchRole : String
  dispatchAuthoredBy : String
  nextRunAt : Option Int
  runningClaimId : Option String
  runningClaimedAt : Option Int
  lastRunId : Option String
  lastRunAt : Option Int
  lastStatus : Option String
  lastError : Option String
  lastFireWarning : Option String
  updatedBy : String
  updatedAt : Int

variable {δ : Type}

/-- `AgentRunScheduleStore` -/
abbrev Store (δ : Type) := Table (Record δ) Record.scheduleId

/-- `_AGENT_SCHEDULE_CLAIM_STALE_AFTER_SECONDS` -/
def claimStaleAfter : Int := 15 * 60 * second

/-- The record is claimed, and the claim is not stale. -/
def Record.isClaimed (r : Record δ) (reference : Int) : Bool :=
  r.runningClaimId.any (fun c ↦ c ≠ "") &&
    r.runningClaimedAt.any fun claimedAt ↦ decide (reference - claimedAt < claimStaleAfter)

/-- The record is enabled, and its next run is due. -/
def Record.isDue (r : Record δ) (reference : Int) : Bool :=
  r.enabled && r.nextRunAt.any fun next ↦ decide (next ≤ reference)

def dueRecords (store : Store δ) (reference : Int) : List (Record δ) :=
  store.rows.filter fun r ↦ r.isDue reference && !r.isClaimed reference

/-- The record with a claim. -/
def Record.claim (r : Record δ) (claimId : String) (reference : Int) : Record δ :=
  { r with
    runningClaimId := some claimId, runningClaimedAt := some reference
    lastStatus := some "launching", updatedAt := reference }

def claimDueRecord (store : Store δ) (scheduleId claimId : String) (reference : Int) :
    Option (Record δ) × Store δ :=
  match store.find? scheduleId with
  | none => (none, store)
  | some record =>
    if record.isDue reference = true ∧ record.isClaimed reference = false then
      let claimed := record.claim claimId reference
      (some claimed, store.put claimed)
    else (none, store)

/-- What came of starting a run. -/
structure FireResult where
  runId : Option String
  statusText : String
  error : Option String
  warning : Option String

/-- A text that is not empty. -/
def nonempty (text : Option String) : Option String := text.filter (· ≠ "")

section Fire

variable (zones : String → Option Zone)

/-- The next run, after one that was fired; a schedule without one is disabled. -/
def Record.advance (r : Record δ) (error : Option String) (timestamp : Int) : Record δ :=
  match computeNextRunAt zones r.cadence r.timezone (timestamp + second) with
  | some next => { r with nextRunAt := some next }
  | none =>
    { r with
      enabled := false, lastStatus := some "failed"
      lastError := some ((nonempty error).getD "Unable to compute next run") }

/-- The record with the result, and without the claim. -/
def Record.fired (r : Record δ) (result : FireResult) (timestamp : Int) (advanceNextRun : Bool) :
    Record δ :=
  let r₁ : Record δ :=
    { r with
      runningClaimId := none, runningClaimedAt := none
      lastRunId := if result.statusText = "deferred" then r.lastRunId else result.runId
      lastRunAt := if result.statusText = "deferred" then r.lastRunAt else some timestamp
      lastStatus := some result.statusText, lastError := nonempty result.error
      lastFireWarning := nonempty result.warning, updatedAt := timestamp }
  if advanceNextRun then r₁.advance zones result.error timestamp else r₁

def recordFireResult (store : Store δ) (scheduleId : String) (result : FireResult) (timestamp : Int)
    (claimId : Option String) (advanceNextRun : Bool) : Option (Record δ) × Store δ :=
  match store.find? scheduleId with
  | none => (none, store)
  | some record =>
    if ∃ c ∈ claimId, record.runningClaimId.getD "" ≠ c then (none, store)
    else
      let record' := record.fired zones result timestamp advanceNextRun
      (some record', store.put record')

/-! ## Changing and deleting schedules -/

/-- `UpdateAgentRunScheduleRequest` -/
structure UpdateRequest (δ : Type) where
  name : Option String
  enabled : Option Bool
  timezone : Option String
  cadence : Option Cadence
  dispatch : Option δ

inductive StoreError where
  /-- `404 Not Found` -/
  | notFound
  /-- `409 Conflict` -/
  | nameConflict
  /-- `ValueError` -/
  | noNextRun
  /-- `ValueError`, of `require_exact_role` -/
  | role
deriving DecidableEq

/-- The owner's record with the identifier or the name. -/
def target (store : Store δ) (ownerUserId identifier : String) : Option (Record δ) :=
  store.rows.find? fun r ↦
    decide (r.ownerUserId = ownerUserId ∧ (identifier = r.scheduleId ∨ identifier = r.name))

/-- The fields of an update. -/
def Record.change (r : Record δ) (payload : UpdateRequest δ) (updatedBy liveRole : String)
    (now : Int) : Record δ :=
  let authored := payload.dispatch.isSome || (payload.enabled == some true && !r.enabled)
  { r with
    name := payload.name.getD r.name
    timezone := payload.timezone.getD r.timezone
    cadence := payload.cadence.getD r.cadence
    dispatch := payload.dispatch.getD r.dispatch
    dispatchRevision :=
      if payload.dispatch.isSome then
        if 1 ≤ r.dispatchRevision then r.dispatchRevision + 1 else 1
      else r.dispatchRevision
    dispatchRole := if authored then liveRole else r.dispatchRole
    dispatchAuthoredBy := if authored then r.ownerUserId else r.dispatchAuthoredBy
    enabled := payload.enabled.getD r.enabled
    updatedBy := updatedBy, updatedAt := now }

def update (store : Store δ) (ownerUserId identifier : String) (payload : UpdateRequest δ)
    (updatedBy liveRole : String) (now : Int) : Except StoreError (Record δ × Store δ) := do
  require (liveRole = "owner" ∨ liveRole = "invite") .role
  let record ← requireSome (target store ownerUserId identifier) .notFound
  require (∀ name ∈ payload.name, name ≠ record.name → ∀ r ∈ store.rows,
    r.scheduleId ≠ record.scheduleId → ¬(r.ownerUserId = ownerUserId ∧ r.name = name)) .nameConflict
  let changed := record.change payload updatedBy liveRole now
  let next ← requireSome (computeNextRunAt zones changed.cadence changed.timezone now) .noNextRun
  let record' := { changed with nextRunAt := some next }
  .ok (record', store.put record')

end Fire

/-- `set_enabled` is an update of one field. -/
def UpdateRequest.setEnabled (enabled : Bool) : UpdateRequest δ :=
    ⟨none, some enabled, none, none, none⟩

def delete (store : Store δ) (ownerUserId identifier : String) :
    Except StoreError (Record δ × Store δ) := do
  let record ← requireSome (target store ownerUserId identifier) .notFound
  .ok (record, store.delete fun r ↦ decide (r.scheduleId = record.scheduleId))

end AgentGateway.Schedules
