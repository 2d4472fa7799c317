import AgentGateway.BatchApprovals.World

/-!
# Fences

`BatchTaskRegistry` owns the tasks of batches.  A cancellation fences the batch first
(`beginCancellation`), and ends by aborting or finishing, which takes the fence away.  When the task
of a batch has ended its monitor closes the batch, and so does a call to cancel a batch that has no
task; if there are admissions outstanding the batch is only fenced, and closed when the last of them
is released.

A batch that is fenced admits nothing, until whoever has placed the fence releases it or the batch
is closed (`fenced_batch_admits_nothing`).  There is one exception.  A cancellation that finds the
batch fenced by its monitor is refused, but on its way out it releases the fence, which was not its
own (`refused_cancellation_lifts_fence`).
-/

namespace AgentGateway.BatchApprovals

open Py

/-! ## The registry of batch tasks -/

/-- `BatchTaskRegistry`, with the producers of approvals -/
structure System where
  world : World
  shutdownStarted : Bool
  tasks : Dict Key Nat
  /-- The monitors that have not ended, each with its task. -/
  monitors : List (Key × Nat)
  /-- The tasks that are done. -/
  done : List Nat
  cancelFences : List Key
  /-- `_cancellation_progress`: whether the boundary is crossed -/
  progress : Dict Key Bool

/-- `BoundApprovalAuthorizationSubject` -/
structure BoundSubject where
  approvalId : Str
  runId : Str
  channel : Option Str
  toolCallId : Str
  sessionId : Str
  request : Request
  session : Nat

/-- The subject of an admission that a request is bound to. -/
def boundSubject (w : World) (a : Admission) (request : Request) :
    Except RegistryError BoundSubject :=
  let sessionId := (w.sessions a.carrier.session).sessionId.strip
  if request.approvalId.strip = [] ∨ request.toolCallId.strip = [] ∨ sessionId = [] then
    .error (.runtime "bound batch approval identity is unavailable")
  else .ok ⟨request.approvalId.strip, a.carrier.runId, a.carrier.channel, request.toolCallId.strip,
    sessionId, request, a.carrier.session⟩

/-- The loop of `bound_authorization_subjects_for_fenced_batch` over the admissions of the gate -/
def boundSubjects (w : World) : List Nat → Except RegistryError (List BoundSubject)
  | [] => .ok []
  | i :: rest =>
    match (w.admissions[i]?).bind fun a ↦ a.request.map (boundSubject w a) with
    | none => boundSubjects w rest
    | some (.error e) => .error e
    | some (.ok subject) => (boundSubjects w rest).map (subject :: ·)

inductive CancellationError where
  /-- `RuntimeError`, of `assert_accepting` -/
  | shuttingDown
  /-- `_BatchCancellationAlreadyInProgress` -/
  | alreadyInProgress (boundaryCrossed : Bool)
  /-- `RuntimeError` -/
  | progressUnavailable
  | registry (e : RegistryError)
deriving DecidableEq

/-- The fence of a cancellation is placed, and the subjects it needs are read. -/
def placeFence (w : World) (key : Key) :
    Except RegistryError (List Projection × List BoundSubject) × Registry :=
  match closeBatchAdmission w.sessions w.registry key with
  | (.error e, reg) => (.error e, reg)
  | (.ok projections, reg) =>
    match boundSubjects w (reg.gateOf key).admissions with
    | .error e => (.error e, reg)
    | .ok subjects => (.ok (projections, subjects), reg)

/-- `begin_batch_cancellation` -/
def beginCancellation (s : System) (key : Key) :
    Except CancellationError (List Projection × List BoundSubject) × System :=
  if s.shutdownStarted then (.error .shuttingDown, s)
  else if key ∈ s.cancelFences then
    match s.progress.lookup key with
    | none => (.error .progressUnavailable, s)
    | some crossed => (.error (.alreadyInProgress crossed), s)
  else
    match placeFence s.world key with
    | (.ok fence, reg) =>
      (.ok fence, { s with
        world := { s.world with registry := reg }
        cancelFences := key :: s.cancelFences, progress := s.progress.set key false })
    | (.error e, reg) =>
      -- whatever went wrong, the fence is released
      (.error (.registry e), { s with
        world := { s.world with registry := releaseBatchFence reg key true } })

/-- `abort_batch_cancellation` and `finish_batch_cancellation` -/
def endCancellation (s : System) (key : Key) (rollback : Bool) : System :=
  { s with
    world := { s.world with registry := releaseBatchFence s.world.registry key rollback }
    cancelFences := s.cancelFences.filter (· ≠ key), progress := s.progress.pop key }

/-- `close_batch`, unless a cancellation is in progress -/
def closeUnlessCancelling (s : System) (key : Key) : System :=
  if key ∈ s.cancelFences then s
  else { s with world := { s.world with registry := closeBatch s.world.registry key } }

/-- `start` -/
def startTask (s : System) (key : Key) (task : Nat) : System :=
  if s.shutdownStarted = true ∨ key ∈ s.cancelFences ∨
      (∃ existing ∈ s.tasks.lookup key, existing ∉ s.done) then s
  else { s with tasks := s.tasks.set key task, monitors := s.monitors ++ [(key, task)] }

/-- `cancel`, up to the point where it waits for the monitor -/
def cancelTask (s : System) (key : Key) : System :=
  match s.tasks.lookup key with
  | none => closeUnlessCancelling s key
  | some _ => s

/-- The end of a monitor, in the `finally` of `_consume` -/
def endMonitor (s : System) (key : Key) (task : Nat) : System :=
  if (key, task) ∈ s.monitors ∧ task ∈ s.done then
    let s' : System :=
      { s with
        tasks := if s.tasks.lookup key = some task then s.tasks.pop key else s.tasks
        monitors := s.monitors.erase (key, task) }
    if s.shutdownStarted then s' else closeUnlessCancelling s' key
  else s

/-- What happens to batches and their approvals. -/
inductive BatchAct where
  | producer (act : Act)
  | start (key : Key) (task : Nat)
  /-- The task is over, or its cancellation has taken effect. -/
  | taskDone (task : Nat)
  | begin (key : Key)
  /-- `boundary_crossed = True` -/
  | crossBoundary (key : Key)
  | abort (key : Key)
  | finish (key : Key)
  | cancel (key : Key)
  | monitorEnd (key : Key) (task : Nat)
deriving DecidableEq

variable (lower : Str → Str)

def System.step (s : System) : BatchAct → System
  | .producer act => { s with world := s.world.step lower act }
  | .start key task => startTask s key task
  | .taskDone task => { s with done := task :: s.done }
  | .begin key => (beginCancellation s key).2
  | .crossBoundary key =>
    if key ∈ s.cancelFences then { s with progress := s.progress.set key true } else s
  | .abort key => endCancellation s key true
  | .finish key => endCancellation s key false
  | .cancel key => cancelTask s key
  | .monitorEnd key task => endMonitor s key task

def System.registry (s : System) : Registry := s.world.registry

/-! ## What becomes of a fence -/

/-- The batch is fenced. -/
def Fenced (key : Key) (reg : Registry) : Prop :=
  key ∈ reg.fences ∧ (reg.gates.lookup key).isSome = true

/-- What an action may not do while a fence is to stay: end the cancellation that has placed it,
close the batch, or begin a cancellation of a batch that something else has fenced. -/
def Keeps (key : Key) (s : System) (a : BatchAct) : Prop :=
  a ≠ .abort key ∧ a ≠ .finish key ∧ ((s.step lower a).registry.gates.lookup key).isSome = true ∧
    (a = .begin key → key ∈ s.cancelFences)

instance (key : Key) (reg : Registry) : Decidable (Fenced key reg) :=
  inferInstanceAs (Decidable (_ ∧ _))

instance (key : Key) (s : System) (a : BatchAct) : Decidable (Keeps lower key s a) :=
  inferInstanceAs (Decidable (_ ∧ _))

section Fences

variable {lower} {key : Key} {reg reg' : Registry}

/-- A fence is kept, unless the batch is closed. -/
def KeepsFence (key : Key) (reg reg' : Registry) : Prop :=
  key ∈ reg.fences → key ∈ reg'.fences ∨ reg'.gates.lookup key = none

section

variable (h : reg'.fences = reg.fences)

include h

theorem keepsFence_of_eq : KeepsFence key reg reg' := by
  intro hmem
  exact .inl (h ▸ hmem)

theorem keepsFence_closeBatchNow (k : Key) :
    KeepsFence key reg (closeBatchNow reg' k) := by
  intro hmem
  by_cases hk : key = k
  · exact .inr (by simp [closeBatchNow, Dict.lookup_pop, hk])
  · exact .inl (List.mem_filter.2 ⟨h ▸ hmem, decide_eq_true hk⟩)

theorem keepsFence_addFence (k : Key) :
    KeepsFence key reg (reg'.addFence k) := by
  intro hmem
  refine .inl ?_
  rw [← h] at hmem
  rw [Registry.addFence]
  split
  · exact hmem
  · exact List.mem_cons_of_mem _ hmem

omit h in
theorem keepsFence_closeBatch (reg : Registry) (k : Key) :
    KeepsFence key reg (closeBatch reg k) := by
  rw [closeBatch]
  split
  next gate _ =>
    split
    · exact keepsFence_addFence (by rfl) k
    · exact keepsFence_closeBatchNow rfl k
  · exact keepsFence_closeBatchNow rfl k

theorem keepsFence_releaseAdmission (k : Key) (i : Nat) :
    KeepsFence key reg (releaseAdmission reg' k i).2 := by
  rw [releaseAdmission]
  split
  · exact keepsFence_of_eq h
  next gate _ =>
    split
    · exact keepsFence_of_eq h
    · split
      · dsimp only
        split
        · refine keepsFence_closeBatchNow ?_ k
          exact h
        · exact keepsFence_of_eq h
      · exact keepsFence_of_eq h

end

theorem keepsFence_publish (w : World) (i : Nat) (a : Admission) :
    KeepsFence key w.registry (w.publish lower i a).registry := by
  obtain ⟨ps, history, hframe⟩ := publishAdmittedCarrier_frame w.sessions lower w.registry a
  rw [World.publish]
  split
  next u reg hcall =>
    rw [hcall] at hframe
    exact keepsFence_releaseAdmission (congrArg Registry.fences hframe) a.key i
  next e reg hcall =>
    rw [hcall] at hframe
    exact keepsFence_releaseAdmission (congrArg Registry.fences hframe) a.key i

/-- **Producers keep the fences.** -/
theorem keepsFence_world (w : World) (act : Act) :
    KeepsFence key w.registry (w.step lower act).registry := by
  have hmoves := w.moves_step lower act
  generalize w.step lower act = w' at hmoves
  cases hmoves with
  | talked => exact .inl
  | registered => exact keepsFence_of_eq rfl
  | refused => exact keepsFence_of_eq rfl
  | acquired => exact keepsFence_of_eq rfl
  | bound => exact .inl
  | @published i a ha hreleased => exact keepsFence_publish w i a
  | @released i a ha hreleased => exact keepsFence_releaseAdmission rfl a.key i

theorem keepsFence_closeUnlessCancelling {s : System} (h : s.registry = reg) (k : Key) :
    KeepsFence key reg (closeUnlessCancelling s k).registry := by
  rw [closeUnlessCancelling, ← h]
  split
  · exact .inl
  · exact keepsFence_closeBatch s.registry k

theorem dropFenceStores_frame (reg : Registry) (k : Key) (rollback : Bool) :
    ∃ ps, (ps = reg.projections ∨ ∃ prior, reg.fenceSnapshots.lookup k = some prior ∧
        ps = Dict.update (reg.projections.filter fun p ↦ decide (p.2.key ≠ k)) prior) ∧
      reg.dropFenceStores k rollback =
        { reg with
          projections := ps
          fenceSnapshots := reg.fenceSnapshots.pop k, fenceHistory := reg.fenceHistory.pop k } := by
  rw [Registry.dropFenceStores]
  split
  next prior hprior =>
    split
    · exact ⟨_, .inr ⟨prior, hprior, rfl⟩, rfl⟩
    · exact ⟨_, .inl rfl, rfl⟩
  · exact ⟨_, .inl rfl, rfl⟩

theorem openGate_frame (reg : Registry) (k : Key) :
    reg.openGate k = reg ∨
      ∃ gate, reg.gates.lookup k = some gate ∧ reg.openGate k =
        reg.setGate k { gate with closed := false } := by
  rw [Registry.openGate]
  split
  next gate hgate =>
    split
    · exact .inl rfl
    · exact .inr ⟨gate, hgate, rfl⟩
  · exact .inl rfl

/-- Releasing a fence puts back projections, and opens the gate. -/
theorem releaseBatchFence_frame (reg : Registry) (k : Key) (rollback : Bool) :
    ∃ ps, (ps = reg.projections ∨ ∃ prior, reg.fenceSnapshots.lookup k = some prior ∧
        ps = Dict.update (reg.projections.filter fun p ↦ decide (p.2.key ≠ k)) prior) ∧
      let reg' : Registry :=
        { reg with
          projections := ps, fences := reg.fences.filter (· ≠ k)
          fenceSnapshots := reg.fenceSnapshots.pop k, fenceHistory := reg.fenceHistory.pop k }
      (releaseBatchFence reg k rollback = reg' ∨
        ∃ gate, reg.gates.lookup k = some gate ∧
          releaseBatchFence reg k rollback = reg'.setGate k { gate with closed := false }) := by
  obtain ⟨ps, hps, hdrop⟩ := dropFenceStores_frame reg k rollback
  refine ⟨ps, hps, ?_⟩
  rw [releaseBatchFence, hdrop]
  exact openGate_frame _ k

theorem mem_fences_releaseBatchFence (reg : Registry) (k : Key) (rollback : Bool) :
    key ∈ (releaseBatchFence reg k rollback).fences ↔ key ∈ reg.fences ∧ key ≠ k := by
  have hfences : (releaseBatchFence reg k rollback).fences = reg.fences.filter (· ≠ k) := by
    obtain ⟨ps, -, h | ⟨gate, -, h⟩⟩ := releaseBatchFence_frame reg k rollback
    · rw [h]
    · rw [h]
      rfl
  rw [hfences, List.mem_filter, decide_eq_true_eq]

/-- A batch is fenced, or the call fails. -/
theorem closeBatchAdmission_cases (sessions : Sessions) (reg : Registry) (k : Key) :
    let call := closeBatchAdmission sessions reg k
    let closed := (reg.setGate k { reg.gateOf k with closed := true }).addFence k
    let prior : Projections := reg.projections.filter fun p ↦ decide (p.2.key = k)
    (∃ e, call.1 = .error e ∧ (call.2 = reg ∨ k ∉ reg.fences ∧
      ∃ ps, (syncCarriers sessions (closed.carriersOf k) closed).2 =
      { closed with projections := ps } ∧
        call.2 = { reg with
          projections := Dict.update (ps.filter fun p ↦ decide (p.2.key ≠ k)) prior
          gates := (closed.setGate k { closed.gateOf k with closed := false }).gates
          fences := closed.fences.filter (· ≠ k) })) ∨
      reg.shutdownStarted = false ∧ k ∉ reg.fences ∧
        ∃ ps, syncCarriers sessions (closed.carriersOf k) closed =
            (.ok (), { closed with projections := ps }) ∧
          call.2 = { closed with
            projections := ps
            fenceSnapshots := reg.fenceSnapshots.set k prior
            fenceHistory := reg.fenceHistory.set k [] } ∧
          call.1 = .ok (snapshotForBatch { closed with projections := ps } k) := by
  simp only [closeBatchAdmission]
  split
  · exact .inl ⟨_, rfl, .inl rfl⟩
  next hshut =>
    split
    · exact .inl ⟨_, rfl, .inl rfl⟩
    next hfence =>
      obtain ⟨ps, hps⟩ := syncCarriers_frame sessions
        (((reg.setGate k { reg.gateOf k with closed := true }).addFence k).carriersOf k)
        ((reg.setGate k { reg.gateOf k with closed := true }).addFence k)
      split
      next e reg' hsync =>
        rw [hsync] at hps
        obtain rfl : reg' = _ := hps
        exact .inl ⟨_, rfl, .inr ⟨hfence, ps, by rw [hsync], rfl⟩⟩
      next u reg' hsync =>
        rw [hsync] at hps
        obtain rfl : reg' = _ := hps
        exact .inr ⟨Bool.eq_false_iff.2 hshut, hfence, ps, hsync, rfl, rfl⟩

theorem mem_fences_addFence (h : reg'.fences = reg.fences) (k : Key) :
    key ∈ (reg'.addFence k).fences ↔ key = k ∨ key ∈ reg.fences := by
  rw [Registry.addFence, ← h]
  split
  next hk =>
    constructor
    · exact .inr
    · rintro (rfl | hmem)
      · exact hk
      · exact hmem
  · exact List.mem_cons

/-- Fencing a batch keeps the fences of others. -/
theorem mem_fences_closeBatchAdmission (sessions : Sessions) {k : Key} (hne : key ≠ k)
    (h : key ∈ reg.fences) : key ∈ (closeBatchAdmission sessions reg k).2.fences := by
  rcases closeBatchAdmission_cases sessions reg k with
    ⟨e, -, hreg | ⟨-, ps, -, hreg⟩⟩ | ⟨-, -, ps, -, hreg, -⟩
  · rwa [hreg]
  · rw [hreg]
    refine List.mem_filter.2 ⟨?_, decide_eq_true hne⟩
    exact (mem_fences_addFence (by rfl) k).2 (.inr h)
  · rw [hreg]
    exact (mem_fences_addFence (by rfl) k).2 (.inr h)

theorem placeFence_registry (w : World) (k : Key) :
    (placeFence w k).2 = (closeBatchAdmission w.sessions w.registry k).2 := by
  rw [placeFence]
  split
  next e reg h => rw [h]
  next projections reg h =>
    rw [h]
    split
    · rfl
    · rfl

/-- A batch that is fenced cannot be fenced again. -/
theorem placeFence_of_mem {w : World} (h : key ∈ w.registry.fences) :
    ∃ e, (placeFence w key).1 = .error e := by
  rcases closeBatchAdmission_cases w.sessions w.registry key with ⟨e, he, -⟩ | ⟨-, hfence, -⟩
  · rw [placeFence]
    split
    next e' reg hcall => exact ⟨e', rfl⟩
    next projections reg hcall =>
      rw [hcall] at he
      cases he
  · exact absurd h hfence

/-- Beginning a cancellation of one batch keeps the fences of the others. -/
theorem mem_fences_beginCancellation {s : System} {k : Key} (hne : key ≠ k)
    (h : key ∈ s.registry.fences) : key ∈ (beginCancellation s k).2.registry.fences := by
  have hplace : key ∈ (placeFence s.world k).2.fences := by
    rw [placeFence_registry]
    exact mem_fences_closeBatchAdmission s.world.sessions hne h
  rw [beginCancellation]
  split
  · exact h
  · split
    · split
      · exact h
      · exact h
    · split
      next fence reg hcall =>
        rw [hcall] at hplace
        exact hplace
      next e reg hcall =>
        rw [hcall] at hplace
        exact (mem_fences_releaseBatchFence reg k true).2 ⟨hplace, hne⟩

/-- A cancellation in progress refuses another, and nothing happens. -/
theorem beginCancellation_of_mem {s : System} (h : key ∈ s.cancelFences) :
    (beginCancellation s key).2 = s := by
  rw [beginCancellation, if_pos h]
  split
  · rfl
  · split
    · rfl
    · rfl

theorem Fenced.step {s : System} (h : Fenced key s.registry) {a : BatchAct}
    (hkeeps : Keeps lower key s a) : Fenced key (s.step lower a).registry := by
  obtain ⟨habort, hfinish, hopen, hbegin⟩ := hkeeps
  refine ⟨?_, hopen⟩
  -- a fence that is only lost with the gate is kept
  have hkeep (hk : KeepsFence key s.registry (s.step lower a).registry) :
      key ∈ (s.step lower a).registry.fences := by
    rcases hk h.1 with hmem | hnone
    · exact hmem
    · rw [hnone] at hopen
      cases hopen
  cases a with
  | producer act => exact hkeep (keepsFence_world s.world act)
  | start =>
    refine hkeep (keepsFence_of_eq ?_)
    rw [System.step, startTask]
    split
    · rfl
    · rfl
  | taskDone => exact h.1
  | begin k =>
    by_cases hk : key = k
    · subst hk
      rw [System.step, beginCancellation_of_mem (hbegin rfl)]
      exact h.1
    · exact mem_fences_beginCancellation hk h.1
  | crossBoundary =>
    refine hkeep (keepsFence_of_eq ?_)
    rw [System.step]
    split
    · rfl
    · rfl
  | abort k =>
    have hk : key ≠ k := fun hk ↦ habort (by rw [hk])
    exact (mem_fences_releaseBatchFence s.registry k true).2 ⟨h.1, hk⟩
  | finish k =>
    have hk : key ≠ k := fun hk ↦ hfinish (by rw [hk])
    exact (mem_fences_releaseBatchFence s.registry k false).2 ⟨h.1, hk⟩
  | cancel k =>
    refine hkeep ?_
    rw [System.step, cancelTask]
    split
    · exact keepsFence_closeUnlessCancelling rfl k
    · exact .inl
  | monitorEnd k =>
    refine hkeep ?_
    rw [System.step, endMonitor]
    split
    · dsimp only
      split
      · exact .inl
      · exact keepsFence_closeUnlessCancelling (by rfl) k
    · exact .inl

/-! ## A fenced batch admits nothing -/

/-- Neither an admission nor a session is taken for the batch. -/
def AdmitsNothing (lower : Str → Str) (key : Key) (w : World) : Prop :=
  (∀ (batchId : Int) (owner : Str) (session i : Nat), (owner.strip, batchId) = key →
      ∃ e, (acquireAdmission w.registry batchId owner session i).1 = .error e) ∧
    ∀ (batchId : Int) (owner : Str) (channel : Option Str) (session : Nat)
      (store policy : Option Nat),
      (owner.strip, batchId) = key →
      ∃ e, (registerSession w.sessions lower w.registry batchId owner channel session store
        policy).1 = .error e

theorem admitsNothing_of_fenced {w : World} (h : key ∈ w.registry.fences) :
    AdmitsNothing lower key w := by
  constructor
  · rintro batchId owner session i rfl
    rcases acquireAdmission_cases w.registry batchId owner session i with
      ⟨e, he, -⟩ | ⟨hopen, -⟩
    · exact ⟨e, he⟩
    · exact absurd h hopen
  · rintro batchId owner channel session store policy rfl
    rcases registerSession_cases w.sessions lower w.registry batchId owner channel session store
      policy with ⟨e, hcall⟩ | ⟨hnone, -⟩
    · exact ⟨e, by rw [hcall]⟩
    · exfalso
      rw [registrationError] at hnone
      split_ifs at hnone with _ _ _ hfence
      exact hfence h

end Fences

/-- Whoever fences a batch. -/
theorem fenced_of_closeBatchAdmission {sessions : Sessions} {reg : Registry} {key : Key}
    {projections : List Projection}
    (h : (closeBatchAdmission sessions reg key).1 = .ok projections) :
    Fenced key (closeBatchAdmission sessions reg key).2 := by
  rcases closeBatchAdmission_cases sessions reg key with ⟨e, he, -⟩ | ⟨-, -, ps, -, hreg, -⟩
  · rw [h] at he
    cases he
  · rw [hreg]
    refine ⟨(mem_fences_addFence (by rfl) key).2 (.inl rfl), ?_⟩
    exact congrArg Option.isSome ((lookup_gates_setGate reg key key _).trans (if_pos rfl))

theorem fenced_closeBatch {reg : Registry} {key : Key} (h : 0 < (reg.gateOf key).active) :
    Fenced key (closeBatch reg key) := by
  rw [Registry.gateOf] at h
  rw [closeBatch]
  split
  next gate hgate =>
    rw [hgate, Option.getD_some] at h
    rw [if_pos h]
    refine ⟨(mem_fences_addFence (by rfl) key).2 (.inl rfl), ?_⟩
    exact congrArg Option.isSome ((lookup_gates_setGate reg key key _).trans (if_pos rfl))
  next hnone =>
    rw [hnone] at h
    exact absurd h (Nat.lt_irrefl 0)

/-- **A batch that is fenced admits nothing, as long as nothing begins to cancel it that has not
fenced it.**  Such a cancellation does lift the fence. -/
theorem fenced_batch_admits_nothing (key : Key) :
    (∀ (sessions : Sessions) (reg : Registry) (projections : List Projection),
        (closeBatchAdmission sessions reg key).1 = .ok projections →
          Fenced key (closeBatchAdmission sessions reg key).2) ∧
      (∀ reg : Registry, 0 < (reg.gateOf key).active → Fenced key (closeBatch reg key)) ∧
      (∀ (s : System) (acts : List BatchAct), Fenced key s.registry →
        Meets (System.step lower) (Keeps lower key) s acts →
          Fenced key (runs (System.step lower) s acts).registry ∧
            AdmitsNothing lower key (runs (System.step lower) s acts).world) ∧
      ∀ s : System, s.shutdownStarted = false → Fenced key s.registry → key ∉ s.cancelFences →
        key ∉ (s.step lower (.begin key)).registry.fences := by
  refine ⟨fun _ _ _ ↦ fenced_of_closeBatchAdmission, fun _ ↦ fenced_closeBatch,
    fun s acts hfenced hmeets ↦ ?_, fun s hshut hfenced hcancel ↦ ?_⟩
  · have hend : Fenced key (runs (System.step lower) s acts).registry :=
      runs_of_meets (P := fun s ↦ Fenced key s.registry) (fun s a hkeeps h ↦ h.step hkeeps) hmeets
        hfenced
    exact ⟨hend, admitsNothing_of_fenced hend.1⟩
  · rw [System.step, beginCancellation, if_neg (by simp [hshut]), if_neg hcancel]
    split
    next fence reg hcall =>
      obtain ⟨e, he⟩ := placeFence_of_mem hfenced.1
      rw [hcall] at he
      cases he
    next e reg hcall =>
      exact fun hmem ↦ ((mem_fences_releaseBatchFence reg key true).1 hmem).2 rfl

section Sample

/-- A user with one session. -/
def sampleSystem : System where
  world :=
    { sessions := fun _ ↦ ⟨.lit "user", none, .lit "session", []⟩
      registry := .empty
      admissions := [] }
  shutdownStarted := false
  tasks := []
  monitors := []
  done := []
  cancelFences := []
  progress := []

def sampleKey : Key := (.lit "user", 1)

/-- The session has an admission, and the task of the batch ends. -/
def sampleEnd : List BatchAct :=
  [.producer (.register 1 (.lit "user") none 7 none none), .producer (.acquire 1 (.lit "user") 7),
    .start sampleKey 3, .taskDone 3, .monitorEnd sampleKey 3]

/-- While a cancellation is in progress, others try for the batch. -/
def sampleCancel : List BatchAct :=
  [.producer (.acquire 1 (.lit "user") 7), .begin sampleKey, .cancel sampleKey, .taskDone 3]

theorem fenced_batch_admits_nothing_sample :
    let s := runs (System.step id) sampleSystem (sampleEnd.take 3 ++ [.begin sampleKey])
    (Fenced sampleKey s.registry ∧ Meets (System.step id) (Keeps id sampleKey) s sampleCancel) ∧
      AdmitsNothing id sampleKey (runs (System.step id) s sampleCancel).world := by
  intro s
  have h : Fenced sampleKey s.registry ∧
      Meets (System.step id) (Keeps id sampleKey) s sampleCancel := by decide +kernel
  exact ⟨h, ((fenced_batch_admits_nothing id sampleKey).2.2.1 s sampleCancel h.1 h.2).2⟩

/-- **A cancellation that is refused lifts the fence.**  The task of a batch has ended while an
admission was outstanding, so the batch is fenced; after an attempt to cancel it another admission
is given out. -/
theorem refused_cancellation_lifts_fence :
    let s := runs (System.step id) sampleSystem sampleEnd
    Fenced sampleKey s.registry ∧
      (beginCancellation s sampleKey).1 = .error (.registry
        (.runtime "batch approval projection admission is already fenced")) ∧
      (acquireAdmission (s.step id (.begin sampleKey)).registry 1 (.lit "user") 7 1).1 =
        .ok (newCarrier id 1 (.lit "user") none 7 none none) := by
  refine ⟨by decide +kernel, ?_, ?_⟩
  · rfl
  · rfl

end Sample

end AgentGateway.BatchApprovals
