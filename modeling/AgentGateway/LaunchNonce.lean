import AgentGateway.Py.Calls
import AgentGateway.Py.Sqlite
import AgentGateway.Py.Text

/-!
# The launch nonce ledger

`consume_launch_nonce` writes one row for each launch it admits.  A nonce that is there already is
a replay; but rows that have expired are deleted, up to a batch of them in every admission, and
with a row goes the memory that its launch was admitted.  What keeps the launch from being admitted
again is the clock row: it holds the wall clock of the last admission, no admission may be earlier
than it, and a deleted row had expired by then.

`Ledger.Remembers` is that argument.  A launch that was admitted either still has its row or had
expired by the time in the clock row, and the only writes there are, those of `consume`, keep it so
(`remembers_of_consume`, `fresh_of_consume`).

The clock is read before the transaction, in it, and after the commit; each reading is arbitrary.
Attempts run side by side, one transaction at a time, and any of the calls to the file system or
the database may fail (`Faults`).  `Step` is one move of one attempt.
-/

namespace AgentGateway.LaunchNonce

open Py List

/-! ## Facts -/

def maxSqliteInteger : Nat := 2 ^ 63 - 1

def maxIdTextLength : Nat := 512

/-- `LAUNCH_NONCE_STORE_CLEANUP_BATCH_SIZE` -/
def cleanupBatchSize : Nat := 512

/-- `AUTONOMOUS_CAPABILITY_ENVELOPE_AUDIENCE` -/
def envelopeAudience : Str := .lit "agent-gateway.autonomous-capability/v7"

/-- `^[0-9a-f]{n}$` -/
def isLowerHex (n : Nat) (s : Str) : Bool :=
  s.length == n && s.all fun p ↦ (0x30 ≤ p.ord && p.ord ≤ 0x39) || (0x61 ≤ p.ord && p.ord ≤ 0x66)

/-- `_canonical_identifier` lets the text through. -/
def isCanonicalIdentifier (s : Str) : Bool :=
  s != [] && s == s.strip && s.length ≤ maxIdTextLength && s.all fun p ↦ 0x20 ≤ p.ord

/-- `LaunchNonceFacts`, with what `__post_init__` checks. -/
structure LaunchNonceFacts where
  audience : Str
  nonce : Str
  taskId : Str
  controlRunId : Str
  ownerUserId : Str
  channelId : Str
  issuedAtNs : Nat
  expiresAtNs : Nat
  audience_eq : audience = envelopeAudience
  nonce_hex : isLowerHex 32 nonce = true
  taskId_ok : isCanonicalIdentifier taskId = true
  controlRunId_ok : isCanonicalIdentifier controlRunId = true
  ownerUserId_ok : isCanonicalIdentifier ownerUserId = true
  channelId_hex : isLowerHex 64 channelId = true
  issued_pos : 1 ≤ issuedAtNs
  issued_lt_expires : issuedAtNs < expiresAtNs
  expires_le : expiresAtNs ≤ maxSqliteInteger
deriving DecidableEq

/-- `ConsumedLaunchNonce`, and the row it is read from: the `CHECK`s of the table are those of
`__post_init__`. -/
structure ConsumedLaunchNonce where
  facts : LaunchNonceFacts
  admittedAtNs : Nat
  issued_le : facts.issuedAtNs ≤ admittedAtNs
  lt_expires : admittedAtNs < facts.expiresAtNs
deriving DecidableEq

/-! ## Errors and faults -/

inductive StoreError where
  | identity (message : String)
  | unavailable (message : String)
  | replay (message : String)
  | expired (message : String) (consumed : Bool)
  | clockRollback (message : String)
  | value (message : String)
  /-- an exception of the interpreter, an interrupt, or text that cannot be encoded -/
  | other
deriving DecidableEq

/-- The calls of an attempt to the file system and to the database. -/
inductive Point where
  | verifyIdentity
  | connect
  | begin
  | verifyIdentityBegun
  | validateSchema
  | readClock
  | updateClock
  | deleteExpired
  | insert
  | verifyIdentityInserted
  | commit
  | verifyIdentityCommitted
  | readRow
  | verifyIdentityRead
  | close
deriving DecidableEq

/-- What goes wrong, if anything, at each of them. -/
def Faults := Point → Option StoreError

def Faults.none : Faults := fun _ ↦ Option.none

def Faults.at (faults : Faults) (point : Point) : Except StoreError Unit :=
  match faults point with
  | Option.none => .ok ()
  | some e => .error e

/-! ## The ledger -/

/-- The clock row and the admissions. -/
structure Ledger where
  lastAdmittedWallNs : Nat
  admissions : Table ConsumedLaunchNonce (·.facts.nonce)

namespace Ledger

/-- What `prepare_launch_nonce_store` creates. -/
def fresh : Ledger := ⟨0, .empty⟩

/-- The order in which expired rows are deleted. -/
def deletedBefore (a b : ConsumedLaunchNonce) : Bool :=
  a.facts.expiresAtNs < b.facts.expiresAtNs ||
    (a.facts.expiresAtNs == b.facts.expiresAtNs && decide (a.facts.nonce.le b.facts.nonce))

/-- `SELECT nonce … WHERE expires_at_ns <= ? ORDER BY expires_at_ns, nonce LIMIT ?` -/
def expiredBatch (ledger : Ledger) (now : Nat) : List Str :=
  (((ledger.admissions.rows.filter (·.facts.expiresAtNs ≤ now)).mergeSort deletedBefore).take
    cleanupBatchSize).map (·.facts.nonce)

/-- `DELETE … WHERE nonce IN (…)` -/
def deleteExpired (ledger : Ledger) (now : Nat) : Ledger :=
  { ledger with admissions :=
      ledger.admissions.delete fun r ↦ decide (r.facts.nonce ∈ ledger.expiredBatch now) }

end Ledger

/-! ## An attempt -/

/-- `_wall_time_ns`, on a reading of the clock -/
def wallTimeNs (now : Int) : Except StoreError Nat :=
  if now < 1 ∨ maxSqliteInteger < now then .error (.value
    "autonomous admission wall clock must be an integer in [1, 9223372036854775807]")
  else .ok now.toNat

def ensureLive (facts : LaunchNonceFacts) (now : Nat) (consumed : Bool) :
    Except StoreError Unit :=
  if now < facts.issuedAtNs then
    .error (.expired "autonomous launch is not yet valid at durable admission" consumed)
  else if facts.expiresAtNs ≤ now then
    .error (.expired "autonomous launch expired at durable admission" consumed)
  else .ok ()

/-- `consume_launch_nonce`, up to the transaction -/
def preflight (faults : Faults) (now : Int) (facts : LaunchNonceFacts) :
    Except StoreError Unit := do
  faults.at .verifyIdentity
  let now ← wallTimeNs now
  ensureLive facts now false
  faults.at .connect

/-- The `INSERT`.  The `CHECK`s on the text hold for any facts, so an `IntegrityError` is a nonce
that is taken or an admission outside the lifetime of its launch. -/
def insertAdmission (ledger : Ledger) (facts : LaunchNonceFacts) (admittedAt : Nat) :
    Except StoreError (ConsumedLaunchNonce × Ledger) :=
  let encodable := [facts.audience, facts.nonce, facts.taskId, facts.controlRunId,
    facts.ownerUserId, facts.channelId].all fun s ↦ s.chars?.isSome
  if !encodable then .error .other
  else if h : facts.issuedAtNs ≤ admittedAt ∧ admittedAt < facts.expiresAtNs then
    let row : ConsumedLaunchNonce := ⟨facts, admittedAt, h.1, h.2⟩
    match ledger.admissions.insert? row with
    | some admissions => .ok (row, { ledger with admissions := admissions })
    | none => .error (.replay "autonomous launch nonce has already been consumed")
  else if facts.nonce ∈ ledger.admissions.rows.map (·.facts.nonce) then
    .error (.replay "autonomous launch nonce has already been consumed")
  else .error (.unavailable "launch nonce store transaction failed")

/-- The transaction, from `BEGIN IMMEDIATE` to the commit. -/
def consume (faults : Faults) (now : Int) (facts : LaunchNonceFacts) (ledger : Ledger) :
    Except StoreError (ConsumedLaunchNonce × Ledger) := do
  faults.at .begin
  faults.at .verifyIdentityBegun
  faults.at .validateSchema
  let admittedAt ← wallTimeNs now
  ensureLive facts admittedAt false
  faults.at .readClock
  if admittedAt < ledger.lastAdmittedWallNs then
    .error (.clockRollback "autonomous admission wall clock moved backward")
  else do
    faults.at .updateClock
    let ledger := { ledger with lastAdmittedWallNs := admittedAt }
    faults.at .deleteExpired
    let ledger := ledger.deleteExpired admittedAt
    faults.at .insert
    let (row, ledger) ← insertAdmission ledger facts admittedAt
    faults.at .verifyIdentityInserted
    faults.at .commit
    .ok (row, ledger)

/-- `consume_launch_nonce`, after the commit, on the ledger as it is by then -/
def confirm (faults : Faults) (now : Int) (committed : ConsumedLaunchNonce) (ledger : Ledger) :
    Except StoreError ConsumedLaunchNonce := do
  faults.at .verifyIdentityCommitted
  faults.at .readRow
  match ledger.admissions.rows.find? (·.facts.nonce = committed.facts.nonce) with
  | none => .error (.unavailable "committed autonomous admission is not visible")
  | some record =>
    if record.facts ≠ committed.facts ∨ record.admittedAtNs ≠ committed.admittedAtNs then
      .error (.unavailable "committed launch nonce facts changed")
    else do
      let observed ← wallTimeNs now
      if observed < committed.admittedAtNs then
        .error (.clockRollback "autonomous admission wall clock moved backward")
      else do
        ensureLive committed.facts observed true
        faults.at .verifyIdentityRead
        faults.at .close
        .ok record

/-! ## Attempts side by side -/

/-- Where an attempt stands. -/
inductive Attempt where
  | connected (facts : LaunchNonceFacts)
  | committed (record : ConsumedLaunchNonce)

/-- The ledger, the attempts under way, and everything that was ever committed, in order. -/
structure Sys where
  ledger : Ledger
  attempts : List Attempt
  commits : List ConsumedLaunchNonce

def Sys.fresh : Sys := ⟨.fresh, [], []⟩

/-- One move of one attempt. -/
inductive Step : Sys → Sys → Prop
  | refused (s : Sys) (faults : Faults) (now : Int) (facts : LaunchNonceFacts) (e : StoreError)
      (h : preflight faults now facts = .error e) : Step s s
  | connected (s : Sys) (faults : Faults) (now : Int) (facts : LaunchNonceFacts)
      (h : preflight faults now facts = .ok ()) :
      Step s { s with attempts := s.attempts ++ [.connected facts] }
  | raised (s : Sys) (i : Nat) (faults : Faults) (now : Int) (facts : LaunchNonceFacts)
      (e : StoreError) (hi : s.attempts[i]? = some (.connected facts))
      (h : (transaction (consume faults now facts) s.ledger).1 = .error e) :
      Step s { s with ledger := (transaction (consume faults now facts) s.ledger).2
                      attempts := s.attempts.eraseIdx i }
  | committed (s : Sys) (i : Nat) (faults : Faults) (now : Int) (facts : LaunchNonceFacts)
      (record : ConsumedLaunchNonce) (hi : s.attempts[i]? = some (.connected facts))
      (h : (transaction (consume faults now facts) s.ledger).1 = .ok record) :
      Step s { ledger := (transaction (consume faults now facts) s.ledger).2
               attempts := s.attempts.set i (.committed record)
               commits := s.commits ++ [record] }
  | ended (s : Sys) (i : Nat) (faults : Faults) (now : Int) (record : ConsumedLaunchNonce)
      (result : Except StoreError ConsumedLaunchNonce)
      (hi : s.attempts[i]? = some (.committed record))
      (h : confirm faults now record s.ledger = result) :
      Step s { s with attempts := s.attempts.eraseIdx i }

/-- The states a ledger and the attempts on it can get into. -/
def Reachable (s : Sys) : Prop := Relation.ReflTransGen Step Sys.fresh s

/-! ## What a transaction does -/

variable {ledger : Ledger}

/-- Only a row that has expired is deleted. -/
theorem Ledger.expires_le_of_deleted {now : Nat} {r : ConsumedLaunchNonce}
    (hr : r ∈ ledger.admissions.rows) (hdel : r ∉ (ledger.deleteExpired now).admissions.rows) :
    r.facts.expiresAtNs ≤ now := by
  have hbatch : r.facts.nonce ∈ ledger.expiredBatch now := by
    by_contra hnot
    exact hdel (Table.mem_delete.2 ⟨hr, decide_eq_false hnot⟩)
  obtain ⟨r', hr', hnonce⟩ := mem_map.1 hbatch
  obtain ⟨hrow, hexp⟩ := mem_filter.1 (mem_mergeSort.1 (mem_of_mem_take hr'))
  -- the nonce is the primary key
  rw [Table.eq_of_key_eq hr hrow hnonce.symm]
  exact of_decide_eq_true hexp

variable {facts : LaunchNonceFacts}

theorem insertAdmission_ok {ledger' : Ledger} {admittedAt : Nat} {row : ConsumedLaunchNonce}
    (h : insertAdmission ledger facts admittedAt = .ok (row, ledger')) :
    row.facts = facts ∧ row.admittedAtNs = admittedAt ∧
      (∀ r ∈ ledger.admissions.rows, r.facts.nonce ≠ facts.nonce) ∧
      ledger'.lastAdmittedWallNs = ledger.lastAdmittedWallNs ∧
      ledger'.admissions.rows = ledger.admissions.rows ++ [row] := by
  unfold insertAdmission at h
  dsimp only at h
  split at h
  · cases h
  · split at h
    next hlive =>
      split at h
      next admissions hins =>
        cases h
        obtain ⟨hnew, hrows⟩ := Table.insert?_eq_some_iff.1 hins
        exact ⟨rfl, rfl, hnew, rfl, hrows⟩
      · cases h
    · split at h <;> cases h

/-- **What a committed transaction did**: it wrote a row for the launch at a time not before the
clock row's, which it moved there, into what the deletion had left. -/
theorem consume_ok {faults : Faults} {now : Int} {ledger' : Ledger} {row : ConsumedLaunchNonce}
    (h : consume faults now facts ledger = .ok (row, ledger')) :
    row.facts = facts ∧ ledger.lastAdmittedWallNs ≤ row.admittedAtNs ∧
      ledger'.lastAdmittedWallNs = row.admittedAtNs ∧
      (∀ r ∈ (ledger.deleteExpired row.admittedAtNs).admissions.rows,
        r.facts.nonce ≠ facts.nonce) ∧
      ledger'.admissions.rows =
        (ledger.deleteExpired row.admittedAtNs).admissions.rows ++ [row] := by
  simp only [consume, bind_eq_ok_iff] at h
  obtain ⟨-, -, -, -, -, -, admittedAt, -, -, -, -, -, h⟩ := h
  split at h
  · cases h
  next hclock =>
    simp only [bind_eq_ok_iff] at h
    obtain ⟨-, -, -, -, -, -, ⟨row', ledger''⟩, hins, -, -, -, -, h⟩ := h
    cases h
    obtain ⟨hfacts, hat, hnew, hlast, hrows⟩ := insertAdmission_ok hins
    subst hat
    exact ⟨hfacts, not_lt.1 hclock, hlast, hnew, hrows⟩

/-- A launch that was admitted has its row, or had expired by the time in the clock row. -/
def Ledger.Remembers (ledger : Ledger) (c : ConsumedLaunchNonce) : Prop :=
  c ∈ ledger.admissions.rows ∨ c.facts.expiresAtNs ≤ ledger.lastAdmittedWallNs

section Consume

variable {faults : Faults} {now : Int} {facts : LaunchNonceFacts} {ledger ledger' : Ledger}
  {row c : ConsumedLaunchNonce}

theorem remembers_of_consume (h : consume faults now facts ledger = .ok (row, ledger'))
    (hc : ledger.Remembers c) : ledger'.Remembers c := by
  obtain ⟨-, hle, hlast, -, hrows⟩ := consume_ok h
  rcases hc with hc | hc
  · by_cases hkept : c ∈ (ledger.deleteExpired row.admittedAtNs).admissions.rows
    · exact Or.inl (by rw [hrows]; exact mem_append_left _ hkept)
    · exact Or.inr (by rw [hlast]; exact Ledger.expires_le_of_deleted hc hkept)
  · exact Or.inr (by rw [hlast]; exact hc.trans hle)

/-- **A launch that is remembered is not admitted.** -/
theorem fresh_of_consume (h : consume faults now facts ledger = .ok (row, ledger'))
    (hc : ledger.Remembers c) : c.facts ≠ row.facts := by
  obtain ⟨hfacts, hle, -, hnew, -⟩ := consume_ok h
  intro heq
  have hlive := row.lt_expires
  rcases hc with hc | hc
  · by_cases hkept : c ∈ (ledger.deleteExpired row.admittedAtNs).admissions.rows
    · exact hnew c hkept (by rw [heq, hfacts])
    · have hexp := Ledger.expires_le_of_deleted hc hkept
      rw [heq] at hexp
      omega
  · rw [heq] at hc
    omega

end Consume

/-! ## Every run -/

/-- What is true in every state. -/
structure Inv (s : Sys) : Prop where
  once : (s.commits.map ConsumedLaunchNonce.facts).Nodup
  remembered : ∀ c ∈ s.commits, s.ledger.Remembers c
  admitted_le : ∀ r ∈ s.ledger.admissions.rows, r.admittedAtNs ≤ s.ledger.lastAdmittedWallNs

theorem Inv.consume {s : Sys} (h : Inv s) {faults : Faults} {now : Int} {row : ConsumedLaunchNonce}
    {ledger' : Ledger} (hc : LaunchNonce.consume faults now facts s.ledger = .ok (row, ledger'))
    (attempts : List Attempt) : Inv ⟨ledger', attempts, s.commits ++ [row]⟩ := by
  obtain ⟨-, hle, hlast, -, hrows⟩ := consume_ok hc
  have hrow : row ∈ ledger'.admissions.rows := by rw [hrows]; simp
  refine ⟨?_, fun c hmem ↦ ?_, fun r hr ↦ ?_⟩
  · rw [map_append]
    refine nodup_append.2 ⟨h.once, nodup_singleton _, fun a ha b hb hab ↦ ?_⟩
    obtain ⟨c, hc', rfl⟩ := mem_map.1 ha
    rw [map_singleton, mem_singleton] at hb
    exact fresh_of_consume hc (h.remembered c hc') (hab.trans hb)
  · rcases mem_append.1 hmem with hmem | hmem
    · exact remembers_of_consume hc (h.remembered c hmem)
    · exact Or.inl (by rw [mem_singleton.1 hmem]; exact hrow)
  · change r.admittedAtNs ≤ ledger'.lastAdmittedWallNs
    rw [hlast]
    rw [show Sys.ledger ⟨ledger', attempts, s.commits ++ [row]⟩ = ledger' from rfl, hrows] at hr
    rcases mem_append.1 hr with hr | hr
    · exact (h.admitted_le r (Table.mem_delete.1 hr).1).trans hle
    · rw [mem_singleton.1 hr]

theorem inv_step : Invariant Step Inv := by
  intro s t hstep h
  cases hstep with
  | refused => exact h
  | connected => exact ⟨h.once, h.remembered, h.admitted_le⟩
  | raised i faults now facts e hi he =>
    rw [transaction_of_error he]
    exact ⟨h.once, h.remembered, h.admitted_le⟩
  | committed i faults now facts record hi hok => exact h.consume (transaction_of_ok hok) _
  | ended => exact ⟨h.once, h.remembered, h.admitted_le⟩

theorem inv_fresh : Inv Sys.fresh where
  once := nodup_nil
  remembered c hc := by cases hc
  admitted_le r hr := by cases hr

/-- The clock row never goes back. -/
theorem lastAdmittedWallNs_le_of_step {s t : Sys} (h : Step s t) :
    s.ledger.lastAdmittedWallNs ≤ t.ledger.lastAdmittedWallNs := by
  cases h with
  | refused => exact le_rfl
  | connected => exact le_rfl
  | raised i faults now facts e hi he => rw [transaction_of_error he]
  | committed i faults now facts record hi hok =>
    obtain ⟨-, hle, hlast, -⟩ := consume_ok (transaction_of_ok hok)
    exact hle.trans hlast.ge
  | ended => exact le_rfl

/-- **A launch nonce is good for one launch.**  In every state that any attempts with any clock
readings can lead to, no launch was committed twice; no move takes the clock row back; every row was
admitted in the lifetime of its launch and not after the time in the clock row; and an attempt that
raises before its commit leaves the ledger as it was. -/
theorem launch_nonce_single_use (s : Sys) (h : Reachable s) :
    (s.commits.map ConsumedLaunchNonce.facts).Nodup ∧
    (∀ t, Relation.ReflTransGen Step s t →
      s.ledger.lastAdmittedWallNs ≤ t.ledger.lastAdmittedWallNs) ∧
    (∀ r ∈ s.ledger.admissions.rows, r.facts.issuedAtNs ≤ r.admittedAtNs ∧
      r.admittedAtNs < r.facts.expiresAtNs ∧ r.admittedAtNs ≤ s.ledger.lastAdmittedWallNs) ∧
    (∀ faults now facts e, (transaction (consume faults now facts) s.ledger).1 = .error e →
      (transaction (consume faults now facts) s.ledger).2 = s.ledger) := by
  have hinv : Inv s := inv_step.of_run h inv_fresh
  refine ⟨hinv.once, fun t hst ↦ ?_, fun r hr ↦ ?_, fun _ _ _ _ he ↦ transaction_of_error he⟩
  · induction hst with
    | refl => exact le_rfl
    | tail _ hstep ih => exact ih.trans (lastAdmittedWallNs_le_of_step hstep)
  · exact ⟨r.issued_le, r.lt_expires, hinv.admitted_le r hr⟩

/-- A launch that is live from 1 to 9. -/
def sampleFacts : LaunchNonceFacts where
  audience := envelopeAudience
  nonce := .lit "0123456789abcdef0123456789abcdef"
  taskId := .lit "task"
  controlRunId := .lit "run"
  ownerUserId := .lit "user"
  channelId := .lit "0123456789abcdef0123456789abcdef0123456789abcdef0123456789abcdef"
  issuedAtNs := 1
  expiresAtNs := 9
  audience_eq := rfl
  nonce_hex := by decide
  taskId_ok := by decide
  controlRunId_ok := by decide
  ownerUserId_ok := by decide
  channelId_hex := by decide
  issued_pos := by decide
  issued_lt_expires := by decide
  expires_le := by decide

/-- `launch_nonce_single_use` after one admission: the launch is refused from then on. -/
theorem launch_nonce_single_use_sample : ∃ s : Sys, Reachable s ∧
    (s.commits.map ConsumedLaunchNonce.facts = [sampleFacts]) ∧
    (transaction (consume .none 7 sampleFacts) s.ledger).1 =
      .error (.replay "autonomous launch nonce has already been consumed") ∧
    (transaction (consume .none 7 sampleFacts) s.ledger).2 = s.ledger := by
  have hpre : preflight .none 5 sampleFacts = .ok () := by decide
  have hcon := Step.connected Sys.fresh .none 5 sampleFacts hpre
  have hok : (transaction (consume .none 6 sampleFacts) Ledger.fresh).1 =
      .ok ⟨sampleFacts, 6, by decide, by decide⟩ := by decide +kernel
  have hcom := Step.committed ⟨.fresh, [.connected sampleFacts], []⟩ 0 .none 6 sampleFacts _ rfl hok
  have hreach : Reachable _ := (Relation.ReflTransGen.single hcon).tail hcom
  have hreplay : (transaction (consume .none 7 sampleFacts)
      (transaction (consume .none 6 sampleFacts) Ledger.fresh).2).1 =
      .error (.replay "autonomous launch nonce has already been consumed") := by decide +kernel
  exact ⟨_, hreach, rfl, hreplay,
    (launch_nonce_single_use _ hreach).2.2.2 .none 7 sampleFacts _ hreplay⟩

end AgentGateway.LaunchNonce
