import AgentGateway.BatchApprovals.Fences
import AgentGateway.BatchApprovals.Syncing
import AgentGateway.Py.Calls

/-!
# Freezing a batch

`freeze_batch` fences a batch, waits until it has drained, and reads off its approvals.  The two
parts are separate steps, `closeBatchAdmission` and `finishFreeze`, between which producers go on:
approvals that were pending are decided, and admissions that were acquired before the fence publish
new ones.

Three stores are merged for the result: what was projected when the fence was placed, what has been
published since (the history), and what is projected in the end.  The first has every approval that
was pending at the fence, because all sessions were synced then, and the second every approval
published after, so nothing is missed (`freeze_misses_no_approval`).
-/

namespace AgentGateway.BatchApprovals

open Py List

/-! ## The system -/

/-- `snapshot_after_batch_drain`, after the wait -/
def snapshotAfterBatchDrain (sessions : Sessions) (reg : Registry) (key : Key) :
    Call (List Projection) :=
  if reg.shutdownStarted then
    (.error (.runtime "batch approval projection registry is shutting down"), reg)
  else snapshotFencedBatch sessions reg key

/-- `freeze_batch`, from the end of the wait on -/
def finishFreeze (sessions : Sessions) (reg : Registry) (key : Key) (initial : List Projection) :
    Call (List Projection) :=
  match snapshotAfterBatchDrain sessions reg key with
  | (.ok drained, reg') => (.ok (mergeProjectionSets initial drained), reg')
  | (.error e, reg') =>
    (.error e, if reg'.shutdownStarted then reg' else releaseBatchFence reg' key true)

/-- The registry, its producers, and the calls of `freeze_batch` that wait. -/
structure Freezer where
  world : World
  /-- What each call has read when it placed the fence. -/
  waiting : Dict Key (List Projection)

def Freezer.registry (s : Freezer) : Registry := s.world.registry

/-- There is no session registered yet. -/
def Freezer.start (sessions : Sessions) : Freezer := ⟨⟨sessions, .empty, []⟩, []⟩

inductive FreezeAct where
  | producer (act : Act)
  /-- A call of `freeze_batch` places its fence. -/
  | fence (key : Key)
  /-- A call finds the batch drained. -/
  | drained (key : Key)
  /-- A call is interrupted in its wait. -/
  | interrupt (key : Key)
deriving DecidableEq

variable (lower : Str → Str)

def Freezer.step (s : Freezer) : FreezeAct → Freezer
  | .producer act => { s with world := s.world.step lower act }
  | .fence key =>
    match closeBatchAdmission s.world.sessions s.registry key with
    | (.ok initial, reg) =>
      { world := { s.world with registry := reg }, waiting := s.waiting.set key initial }
    | (.error _, reg) => { s with world := { s.world with registry := reg } }
  | .drained key =>
    match s.waiting.lookup key with
    | some initial =>
      if (s.registry.gateOf key).drained then
        { world :=
            { s.world with
              registry := (finishFreeze s.world.sessions s.registry key initial).2 }
          waiting := s.waiting.pop key }
      else s
    | none => s
  | .interrupt key =>
    match s.waiting.lookup key with
    | some _ =>
      { world := { s.world with registry := releaseBatchFence s.registry key true }
        waiting := s.waiting.pop key }
    | none => s

/-! ## The invariant -/

/-- Every projection is known, wherever it is kept. -/
structure Coherent (Was : Nat → Str → Prop) (w : World) : Prop where
  carriers_key : ∀ e ∈ w.registry.carriers, e.1 = (e.2.ownerUserId, e.2.batchId, e.2.session)
  carriers_nodup : (w.registry.carriers.map Prod.fst).Nodup
  projections : Sound Was w.registry.carriers w.registry.projections
  snapshots : ∀ e ∈ w.registry.fenceSnapshots, Sound Was w.registry.carriers e.2
  history : ∀ e ∈ w.registry.fenceHistory,
    Sound Was w.registry.carriers e.2 ∧ ∀ x ∈ e.2, x.2.key = e.1
  admitted : ∀ a ∈ w.admissions,
    (∃ e ∈ w.registry.carriers, e.2 = a.carrier) ∧ a.carrier.key = a.key
  published : ∀ a ∈ w.admissions, a.published = true → a.released = true
  gates : ∀ e ∈ w.registry.gates, e.2.closeWhenDrained = false
  accepting : w.registry.shutdownStarted = false

/-- What is pending has been pending. -/
abbrev Now (Was : Nat → Str → Prop) (w : World) : Prop :=
  ∀ session id, PendingIn w.sessions session id → Was session id

variable {reg : Registry} {i : Nat} {a a' : Admission} {s : Freezer}

section Coherent

variable {lower} {Was Was' : Nat → Str → Prop} {w : World}

theorem coherent_start (Was : Nat → Str → Prop) (sessions : Sessions) :
    Coherent Was (Freezer.start sessions).world where
  carriers_key := by simp [Freezer.start, Registry.empty]
  carriers_nodup := nodup_nil
  projections := sound_nil
  snapshots := by simp [Freezer.start, Registry.empty]
  history := by simp [Freezer.start, Registry.empty]
  admitted := by simp [Freezer.start]
  published := by simp [Freezer.start]
  gates := by simp [Freezer.start, Registry.empty]
  accepting := rfl

variable {c : Carrier}

section

variable (h : Coherent Was w)

include h

theorem Coherent.mono (hwas : ∀ s id, Was s id → Was' s id) :
    Coherent Was' w :=
  { h with
    projections := h.projections.mono (fun _ he ↦ he) hwas
    snapshots := fun e he ↦ (h.snapshots e he).mono (fun _ he ↦ he) hwas
    history := fun e he ↦ ⟨(h.history e he).1.mono (fun _ he ↦ he) hwas, (h.history e he).2⟩ }

/-- The sessions of the carriers of a batch are distinct. -/
theorem Coherent.nodup_sessions (key : Key) :
    ((w.registry.carriersOf key).map Carrier.session).Nodup := by
  have hkeys : w.registry.carriers.map Prod.fst =
      (w.registry.carriers.map Prod.snd).map fun c ↦ (c.ownerUserId, c.batchId, c.session) := by
    rw [map_map]
    exact map_congr_left h.carriers_key
  have hnodup := h.carriers_nodup
  rw [hkeys] at hnodup
  refine List.Nodup.map_on (fun c hc d hd heq ↦ ?_) (hnodup.of_map.filter _)
  obtain ⟨hc, hckey⟩ := mem_filter.1 hc
  obtain ⟨hd, hdkey⟩ := mem_filter.1 hd
  refine inj_on_of_nodup_map hnodup hc hd ?_
  have hkey : c.key = d.key := (of_decide_eq_true hckey).trans (of_decide_eq_true hdkey).symm
  rw [Carrier.key, Carrier.key, Prod.mk.injEq] at hkey
  rw [hkey.1, hkey.2, heq]

omit h in
theorem mem_carriersOf {key : Key} :
    c ∈ reg.carriersOf key ↔ (∃ e ∈ reg.carriers, e.2 = c) ∧ c.key = key := by
  rw [Registry.carriersOf, mem_filter, mem_map, decide_eq_true_eq]

omit h in
theorem carriersOf_subset (reg : Registry) (key : Key) :
    ∀ c ∈ reg.carriersOf key, ∃ e ∈ reg.carriers, e.2 = c :=
  fun _ hc ↦ (mem_carriersOf.1 hc).1

theorem Coherent.withProjections {ps : Projections} (hps : Sound Was w.registry.carriers ps) :
    Coherent Was { w with registry := { w.registry with projections := ps } } :=
  { h with projections := hps }

theorem Coherent.gateOf (key : Key) : (w.registry.gateOf key).closeWhenDrained = false := by
  rw [Registry.gateOf]
  cases hgate : w.registry.gates.lookup key with
  | none => rfl
  | some => exact h.gates _ (Dict.mem_of_lookup hgate)

theorem Coherent.setGate (key : Key) (gate : Gate) (hgate : gate.closeWhenDrained = false) :
    Coherent Was { w with registry := w.registry.setGate key gate } :=
  { h with
    gates := fun e he ↦ by
      rcases Dict.mem_set.1 he with rfl | ⟨he, -⟩
      · exact hgate
      · exact h.gates e he }

/-- A release only changes a gate, since no batch closes. -/
theorem Coherent.releaseAdmission (key : Key) (i : Nat) :
    (releaseAdmission w.registry key i).2 = w.registry ∨
      ∃ gate, gate.closeWhenDrained = false ∧
        (releaseAdmission w.registry key i).2 = w.registry.setGate key gate := by
  rw [BatchApprovals.releaseAdmission]
  split
  · exact .inl rfl
  next gate hgate =>
    have hopen := h.gates _ (Dict.mem_of_lookup hgate)
    split
    · exact .inl rfl
    · split
      · dsimp only at hopen ⊢
        rw [hopen, if_neg (by simp)]
        refine .inr ⟨_, ?_, rfl⟩
        rfl
      · exact .inl rfl

theorem Coherent.setAdmission (ha : w.admissions[i]? = some a) (hkey : a'.key = a.key)
    (hcarrier : a'.carrier = a.carrier) (hpublished : a'.published = true → a'.released = true) :
    Coherent Was { w with admissions := w.admissions.set i a' } :=
  { h with
    admitted := fun b hb ↦ by
      rcases mem_or_eq_of_mem_set hb with hb | rfl
      · exact h.admitted b hb
      · rw [hkey, hcarrier]
        exact h.admitted a (mem_of_getElem? ha)
    published := fun b hb ↦ by
      rcases mem_or_eq_of_mem_set hb with hb | rfl
      · exact h.published b hb
      · exact hpublished }

end

/-! ## Producers -/

theorem Coherent.release (h : Coherent Was w) (ha : w.admissions[i]? = some a)
    (hkey : a'.key = a.key) (hcarrier : a'.carrier = a.carrier) :
    Coherent Was (w.releaseAdmission i a') := by
  rw [World.releaseAdmission]
  rcases h.releaseAdmission a'.key i with hreg | ⟨gate, hgate, hreg⟩
  · rw [hreg]
    exact h.setAdmission ha hkey hcarrier fun _ ↦ rfl
  · rw [hreg]
    exact (h.setGate a'.key gate hgate).setAdmission ha hkey hcarrier fun _ ↦ rfl

/-- The projection that is published is one of the carrier. -/
theorem published_eq_some {ps : Projections} {p : Projection} (h : a.published? lower ps = some p) :
    ∃ request, a.request = some request ∧ (request.approvalId.strip, p) ∈ ps ∧
      p.session = a.carrier.session := by
  simp only [Admission.published?, Option.bind_eq_bind, Option.bind_eq_some_iff] at h
  obtain ⟨request, hrequest, q, hq, hif⟩ := h
  split at hif
  next hmatch =>
    cases hif
    exact ⟨request, hrequest, Dict.mem_of_lookup hq, hmatch.1⟩
  · cases hif

theorem Coherent.note (h : Coherent Was w) {key : Key} {p : Projection}
    (hp : Known Was w.registry.carriers p) (hkey : p.key = key) :
    Coherent Was { w with registry := w.registry.note key p } := by
  rw [Registry.note]
  split
  · exact h
  next history hhistory =>
    refine { h with history := fun e he ↦ ?_ }
    rcases Dict.mem_set.1 he with rfl | ⟨he, -⟩
    · obtain ⟨hsound, hkeys⟩ := h.history _ (Dict.mem_of_lookup hhistory)
      refine ⟨hsound.set hp, fun x hx ↦ ?_⟩
      rcases Dict.mem_set.1 hx with rfl | ⟨hx, -⟩
      · exact hkey
      · exact hkeys x hx
    · exact h.history e he

/-- A publication fails, or it notes the approval of the admission in the history. -/
theorem Coherent.publish_cases (h : Coherent Was w)
    (hnow : Now Was w) (ha : w.admissions[i]? = some a) :
    w.publish lower i a = w.releaseAdmission i a ∨
      ∃ ps p request, a.request = some request ∧ p.approvalId = request.approvalId.strip ∧
        let w' := { w with registry := { w.registry with projections := ps }.note a.key p }
        Coherent Was w' ∧
          w.publish lower i a = w'.releaseAdmission i { a with published := true } := by
  obtain ⟨hcarrier, hkey⟩ := h.admitted a (mem_of_getElem? ha)
  rw [World.publish]
  rcases publishAdmittedCarrier_cases w.sessions lower w.registry a with
    ⟨e, hcall⟩ | ⟨ps, p, hsync, hp, hcall⟩
  · rw [hcall]
    exact .inl rfl
  · rw [hcall]
    have hsound := h.projections.syncCarrier hcarrier true (hnow a.carrier.session)
    have hok := syncCarrier_ok hcarrier (hnow a.carrier.session) h.projections hsync
    rw [hsync] at hsound
    obtain ⟨request, hrequest, hmem, hsession⟩ := published_eq_some hp
    exact .inr ⟨ps, p, request, hrequest, hsound.id _ hmem, (h.withProjections hsound).note
      (hsound.known _ hmem) ((hok.2.2 _ hmem hsession).key.trans hkey), rfl⟩

theorem registrationError_eq_none {sessions : Sessions}
    (h : registrationError sessions lower reg c = none) :
    c.key ∉ reg.fences ∧
      ∀ existing, reg.carriers.lookup (c.ownerUserId, c.batchId, c.session) = some existing →
        existing = c := by
  rw [registrationError] at h
  split_ifs at h with _ _ _ hfence _ _ hconflict
  refine ⟨hfence, fun existing hexisting ↦ ?_⟩
  by_contra hne
  exact hconflict ⟨existing, hexisting, hne⟩

/-- A carrier that registers replaces no other. -/
theorem Coherent.carriers_set (h : Coherent Was w)
    (hnone : registrationError w.sessions lower w.registry c = none) :
    ∀ e ∈ w.registry.carriers,
      e ∈ w.registry.carriers.set (c.ownerUserId, c.batchId, c.session) c := by
  intro e he
  rw [Dict.mem_set]
  by_cases hkey : e.1 = (c.ownerUserId, c.batchId, c.session)
  · left
    refine Prod.ext hkey ((registrationError_eq_none hnone).2 e.2 ?_)
    have hlookup := Dict.lookup_of_mem h.carriers_nodup he
    rwa [hkey] at hlookup
  · exact .inr ⟨he, hkey⟩

/-- **Whatever producers do, the projections stay known.** -/
theorem Coherent.world_step (h : Coherent Was w)
    (hnow : Now Was w) (act : Act) :
    Coherent Was (w.step lower act) := by
  have hmoves := w.moves_step lower act
  generalize w.step lower act = w' at hmoves
  cases hmoves with
  | talked => exact { h with }
  | @registered c ps hnone hsync =>
    have hkept := h.carriers_set hnone
    have hself : ∃ e ∈ w.registry.carriers.set (c.ownerUserId, c.batchId, c.session) c, e.2 = c :=
      ⟨_, Dict.mem_set.2 (.inl rfl), rfl⟩
    have hsound := (h.projections.mono hkept fun _ _ ↦ id).syncCarrier hself false (hnow c.session)
    rw [hsync] at hsound
    have hcoherent : Coherent Was { w with registry := { w.registry with
        projections := ps
        carriers := w.registry.carriers.set (c.ownerUserId, c.batchId, c.session) c } } :=
      { h with
        carriers_key := fun e he ↦ by
          rcases Dict.mem_set.1 he with rfl | ⟨he, -⟩
          · rfl
          · exact h.carriers_key e he
        carriers_nodup := Dict.nodup_keys_set h.carriers_nodup _ _
        projections := hsound
        snapshots := fun e he ↦ (h.snapshots e he).mono hkept fun _ _ ↦ id
        history := fun e he ↦ ⟨(h.history e he).1.mono hkept fun _ _ ↦ id, (h.history e he).2⟩
        admitted := fun a ha ↦ by
          obtain ⟨⟨e, he, hcarrier⟩, hkey⟩ := h.admitted a ha
          exact ⟨⟨e, hkept e he, hcarrier⟩, hkey⟩ }
    exact hcoherent.setGate c.key _ (h.gateOf c.key)
  | refused key => exact h.setGate key _ (h.gateOf key)
  | @acquired key session carrier hcarrier =>
    have hmem := Dict.mem_of_lookup hcarrier
    have hcoherent := (h.setGate key _ (h.gateOf key)).setGate key
      ((w.registry.gateOf key).more w.admissions.length) (h.gateOf key)
    refine { hcoherent with admitted := fun a ha ↦ ?_, published := fun a ha ↦ ?_ }
    · rcases mem_append.1 ha with ha | ha
      · exact hcoherent.admitted a ha
      · obtain rfl := mem_singleton.1 ha
        refine ⟨⟨_, hmem, rfl⟩, ?_⟩
        have hcarrierkey := h.carriers_key _ hmem
        simp only [Prod.mk.injEq] at hcarrierkey
        rw [Carrier.key, ← hcarrierkey.1, ← hcarrierkey.2.1]
    · rcases mem_append.1 ha with ha | ha
      · exact hcoherent.published a ha
      · obtain rfl := mem_singleton.1 ha
        exact fun hp ↦ (Bool.false_ne_true hp).elim
  | @bound i a request ha hreleased =>
    exact h.setAdmission ha rfl rfl (h.published a (mem_of_getElem? ha))
  | published ha =>
    rcases h.publish_cases hnow ha with hpublish | ⟨ps, p, request, -, -, hnoted, hpublish⟩
    · rw [hpublish]
      exact h.release ha rfl rfl
    · rw [hpublish]
      exact hnoted.release ha rfl rfl
  | released ha => exact h.release ha rfl rfl

/-! ## Fencing and draining -/

/-- The registry of a batch that is being fenced. -/
theorem Coherent.closed (h : Coherent Was w) (key : Key) :
    Coherent Was { w with
      registry := (w.registry.setGate key { w.registry.gateOf key with closed := true }).addFence
        key } :=
  { h.setGate key { w.registry.gateOf key with closed := true } (h.gateOf key) with }

theorem Coherent.closeBatchAdmission (h : Coherent Was w)
    (hnow : Now Was w) (key : Key) :
    Coherent Was { w with
      registry := (closeBatchAdmission w.sessions w.registry key).2 } := by
  have hclosed := h.closed key
  have hsound := hclosed.projections.syncCarriers (carriersOf_subset _ key) hnow
  have hprior := h.projections.filter fun p ↦ decide (p.2.key = key)
  rcases closeBatchAdmission_cases w.sessions w.registry key with
    ⟨e, -, hreg | ⟨-, ps, hsync, hreg⟩⟩ | ⟨-, -, ps, hsync, hreg, -⟩
  · rw [hreg]
    exact h
  · rw [hreg]
    rw [hsync] at hsound
    have hgates := hclosed.setGate key
      { ((w.registry.setGate key { w.registry.gateOf key with closed := true }).addFence
        key).gateOf key with closed := false } (hclosed.gateOf key)
    exact { hgates with projections := (hsound.filter _).update hprior }
  · rw [hreg]
    rw [hsync] at hsound
    refine { hclosed with projections := hsound, snapshots := fun e he ↦ ?_, history := fun e he ↦
      ?_ }
    · rcases Dict.mem_set.1 he with rfl | ⟨he, -⟩
      · exact hprior
      · exact h.snapshots e he
    · rcases Dict.mem_set.1 he with rfl | ⟨he, -⟩
      · exact ⟨sound_nil, by simp⟩
      · exact h.history e he

theorem Coherent.releaseBatchFence (h : Coherent Was w) (key : Key) (rollback : Bool) :
    Coherent Was { w with registry := releaseBatchFence w.registry key rollback } := by
  obtain ⟨ps, hps, hreg⟩ := releaseBatchFence_frame w.registry key rollback
  have hsound : Sound Was w.registry.carriers ps := by
    rcases hps with rfl | ⟨prior, hprior, rfl⟩
    · exact h.projections
    · exact (h.projections.filter _).update (h.snapshots _ (Dict.mem_of_lookup hprior))
  have hcoherent : Coherent Was { w with registry := { w.registry with
      projections := ps, fences := w.registry.fences.filter (· ≠ key)
      fenceSnapshots := w.registry.fenceSnapshots.pop key
      fenceHistory := w.registry.fenceHistory.pop key } } :=
    { h with
      projections := hsound
      snapshots := fun e he ↦ h.snapshots e (mem_of_mem_filter he)
      history := fun e he ↦ h.history e (mem_of_mem_filter he) }
  rcases hreg with hreg | ⟨gate, hgate, hreg⟩
  · rw [hreg]
    exact hcoherent
  · rw [hreg]
    exact hcoherent.setGate key { gate with closed := false }
      (h.gates _ (Dict.mem_of_lookup hgate))

/-- A snapshot takes the history of its batch, if the carriers can be synced. -/
theorem snapshotFencedBatch_cases (sessions : Sessions) (reg : Registry) (k : Key) :
    let call := snapshotFencedBatch sessions reg k
    (∃ e, call = (.error e, reg)) ∨ ∃ r ps,
      syncCarriers sessions (reg.carriersOf k) reg = (r, { reg with projections := ps }) ∧
        ((∃ e, call = (.error e, { reg with projections := ps })) ∨ r = .ok () ∧
          call = (.ok (mergeProjectionSets (((reg.fenceHistory.lookup k).getD []).map Prod.snd)
            (snapshotForBatch { reg with projections := ps } k)),
            { reg with projections := ps, fenceHistory := reg.fenceHistory.pop k })) := by
  simp only [snapshotFencedBatch]
  split
  · exact .inl ⟨_, rfl⟩
  · obtain ⟨ps, hps⟩ := syncCarriers_frame sessions (reg.carriersOf k) reg
    refine .inr ⟨_, ps, Prod.ext rfl hps, ?_⟩
    split
    next e reg' hsync =>
      rw [hsync] at hps
      exact .inl ⟨e, by rw [← hps]⟩
    next u reg' hsync =>
      rw [hsync] at hps ⊢
      obtain rfl : reg' = { reg with projections := ps } := hps
      exact .inr ⟨rfl, rfl⟩

/-- **What a step does**, unless the registry shuts down: a batch that has drained or whose freeze
is interrupted is released, or it loses its history. -/
theorem Freezer.of_step {P : World → Prop} (hopen : s.world.registry.shutdownStarted = false)
    (a : FreezeAct) (hsame : P s.world) (hproducer : ∀ act, P (s.world.step lower act))
    (hfence : ∀ key, P { s.world with
      registry := (closeBatchAdmission s.world.sessions s.world.registry key).2 })
    (hrest : ∀ key ps, a = .drained key ∨ a = .interrupt key →
      (ps = s.world.registry.projections ∨
        (syncCarriers s.world.sessions (s.world.registry.carriersOf key) s.world.registry).2 =
          { s.world.registry with projections := ps }) →
      P { s.world with
        registry := releaseBatchFence { s.world.registry with projections := ps } key true } ∧
      P { s.world with registry := { s.world.registry with
        projections := ps, fenceHistory := s.world.registry.fenceHistory.pop key } }) :
    P (s.step lower a).world := by
  cases a with
  | producer act => exact hproducer act
  | fence key =>
    have hclosed := hfence key
    rw [Freezer.step, Freezer.registry]
    split
    next hcall => rwa [hcall] at hclosed
    next hcall => rwa [hcall] at hclosed
  | drained key =>
    rw [Freezer.step]
    split
    · split
      · rw [finishFreeze, snapshotAfterBatchDrain, Freezer.registry, if_neg (by simp [hopen])]
        rcases snapshotFencedBatch_cases s.world.sessions s.world.registry key with
          ⟨e, hcall⟩ | ⟨r, ps, hsync, ⟨e, hcall⟩ | ⟨-, hcall⟩⟩
        · rw [hcall]
          dsimp only
          rw [if_neg (by simp [hopen])]
          exact (hrest key _ (.inl rfl) (.inl rfl)).1
        · rw [hcall]
          dsimp only
          rw [if_neg (by simp [hopen])]
          exact (hrest key ps (.inl rfl) (.inr (by rw [hsync]))).1
        · rw [hcall]
          exact (hrest key ps (.inl rfl) (.inr (by rw [hsync]))).2
      · exact hsame
    · exact hsame
  | interrupt key =>
    rw [Freezer.step]
    split
    · exact (hrest key _ (.inr rfl) (.inl rfl)).1
    · exact hsame

/-- **Every projection stays known.** -/
theorem Coherent.step (h : Coherent Was s.world) (hnow : Now Was s.world) (a : FreezeAct) :
    Coherent Was (s.step lower a).world := by
  refine Freezer.of_step h.accepting a h (h.world_step hnow) (h.closeBatchAdmission hnow)
    fun key ps _ hps ↦ ?_
  have hsound : Sound Was s.world.registry.carriers ps := by
    rcases hps with rfl | hps
    · exact h.projections
    · have hsynced := h.projections.syncCarriers (carriersOf_subset _ key) hnow
      rwa [hps] at hsynced
  exact ⟨(h.withProjections hsound).releaseBatchFence key true,
    { h.withProjections hsound with history := fun e he ↦ h.history e (mem_of_mem_filter he) }⟩

end Coherent

/-! ## What has been published since the fence -/

/-- An approval of the admission that was published since is in the history. -/
def Admission.NotedIn (Before : Nat → Prop) (key : Key) (history : Projections) (i : Nat)
    (a : Admission) : Prop :=
  a.key = key → a.published = true → Before i ∨
    ∃ request, a.request = some request ∧ request.approvalId.strip ∈ history.map Prod.fst

/-- The fence is in place, and its history has the approvals that have been published, but for those
of admissions that were published before.  The carriers that were registered still are. -/
structure Noted (Before : Nat → Prop) (old : Carriers) (key : Key) (w : World) : Prop where
  carriers : ∀ e ∈ old, e ∈ w.registry.carriers
  fenced : key ∈ w.registry.fences
  history : ∃ history, w.registry.fenceHistory.lookup key = some history ∧
    ∀ i (a : Admission), w.admissions[i]? = some a → a.NotedIn Before key history i

section Noted

variable {lower} {Was : Nat → Str → Prop} {Before : Nat → Prop} {old : Carriers} {key : Key}
  {w : World}

section

variable (h : Noted Before old key w)

include h

/-- What leaves fences, history and admissions alone. -/
theorem Noted.withRegistry (sessions : Sessions) (reg : Registry)
    (hcarriers : ∀ e ∈ w.registry.carriers, e ∈ reg.carriers)
    (hfenced : key ∈ w.registry.fences → key ∈ reg.fences)
    (hhistory : reg.fenceHistory.lookup key = w.registry.fenceHistory.lookup key) :
    Noted Before old key { w with sessions := sessions, registry := reg } := by
  obtain ⟨history, hlookup, hnoted⟩ := h.history
  exact ⟨fun e he ↦ hcarriers e (h.carriers e he), hfenced h.fenced, history,
    hhistory.trans hlookup, hnoted⟩

/-- An admission changes that was not and is not published, or one whose approval is noted. -/
theorem Noted.setAdmission
    (ha' : ∀ history, w.registry.fenceHistory.lookup key = some history →
      a'.NotedIn Before key history i) :
    Noted Before old key { w with admissions := w.admissions.set i a' } := by
  obtain ⟨history, hlookup, hnoted⟩ := h.history
  refine ⟨h.carriers, h.fenced, history, hlookup, fun j b hb hkey hpublished ↦ ?_⟩
  rw [getElem?_set] at hb
  split at hb
  next hij =>
    split at hb
    · cases hb
      subst hij
      exact ha' history hlookup hkey hpublished
    · cases hb
  · exact hnoted j b hb hkey hpublished

theorem Noted.release (hc : Coherent Was w) (a' : Admission)
    (ha' : ∀ history, w.registry.fenceHistory.lookup key = some history →
      a'.NotedIn Before key history i) :
    Noted Before old key (w.releaseAdmission i a') := by
  rw [World.releaseAdmission]
  rcases hc.releaseAdmission a'.key i with hreg | ⟨gate, -, hreg⟩
  · rw [hreg]
    exact h.setAdmission ha'
  · rw [hreg]
    exact (h.withRegistry w.sessions (w.registry.setGate a'.key gate) (fun _ he ↦ he) id
      rfl).setAdmission ha'

omit h in
/-- An admission that is not released was not published. -/
theorem Coherent.not_published (hc : Coherent Was w) (ha : w.admissions[i]? = some a)
    (hreleased : a.released = false) : a.published = false := by
  by_contra hpublished
  have h := hc.published a (mem_of_getElem? ha) (Bool.eq_true_of_not_eq_false hpublished)
  rw [hreleased] at h
  cases h

theorem Noted.release_unpublished (hc : Coherent Was w) (ha : w.admissions[i]? = some a)
    (hreleased : a.released = false) :
    Noted Before old key (w.releaseAdmission i a) :=
  h.release hc a fun _ _ _ hpublished ↦ absurd hpublished (by simp [hc.not_published ha hreleased])

omit h in
theorem lookup_fenceHistory_note (reg : Registry) (k key : Key) (p : Projection) :
    (reg.note k p).fenceHistory.lookup key =
      (reg.fenceHistory.lookup key).map fun history ↦
        if key = k then history.set p.approvalId p else history := by
  rw [Registry.note]
  split
  next hnone => by_cases hk : key = k <;> simp [hk, hnone]
  next history hsome => by_cases hk : key = k <;> simp [hk, hsome, Dict.lookup_set]

/-- What is noted stays noted when more is. -/
theorem Noted.note (k : Key) (p : Projection) :
    Noted Before old key { w with registry := w.registry.note k p } := by
  obtain ⟨history, hlookup, hnoted⟩ := h.history
  have hframe : (w.registry.note k p).fences = w.registry.fences ∧
      (w.registry.note k p).carriers = w.registry.carriers := by
    obtain ⟨_, hnote⟩ := note_frame w.registry k p
    rw [hnote]
    exact ⟨rfl, rfl⟩
  refine ⟨hframe.2 ▸ h.carriers, hframe.1 ▸ h.fenced,
    _, by rw [lookup_fenceHistory_note, hlookup]; rfl,
    fun i a ha hkey hpublished ↦ (hnoted i a ha hkey hpublished).imp_right ?_⟩
  rintro ⟨request, hrequest, hmem⟩
  refine ⟨request, hrequest, ?_⟩
  split
  · rw [Dict.keys_set]
    split
    · exact hmem
    · exact mem_append_left _ hmem
  · exact hmem

theorem Noted.publish (hc : Coherent Was w) (hnow : Now Was w)
    (ha : w.admissions[i]? = some a) (hreleased : a.released = false) :
    Noted Before old key (w.publish lower i a) := by
  rcases hc.publish_cases hnow ha with
    hpublish | ⟨ps, p, request, hrequest, hid, hcoherent, hpublish⟩
  · rw [hpublish]
    exact h.release_unpublished hc ha hreleased
  · rw [hpublish]
    have hnoted := (h.withRegistry w.sessions { w.registry with projections := ps } (fun _ he ↦ he)
      id rfl).note a.key p
    refine hnoted.release hcoherent { a with published := true }
      fun history hhistory hakey _ ↦ .inr ⟨request, hrequest, ?_⟩
    -- the history is the one the projection has just been noted in
    obtain ⟨old, hold, -⟩ := h.history
    rw [lookup_fenceHistory_note] at hhistory
    rw [hold, Option.map_some, if_pos hakey.symm, Option.some.injEq] at hhistory
    rw [← hhistory, ← hid]
    exact mem_map.2 ⟨_, Dict.mem_set.2 (.inl rfl), rfl⟩

/-- **What producers publish is noted.** -/
theorem Noted.world_step (hc : Coherent Was w) (hnow : Now Was w)
    (act : Act) :
    Noted Before old key (w.step lower act) := by
  have hmoves := w.moves_step lower act
  generalize w.step lower act = w' at hmoves
  cases hmoves with
  | talked => exact h.withRegistry _ w.registry (fun _ he ↦ he) id rfl
  | registered hnone => exact h.withRegistry w.sessions _ (hc.carriers_set hnone) id rfl
  | refused => exact h.withRegistry w.sessions _ (fun _ he ↦ he) id rfl
  | acquired =>
    obtain ⟨history, hlookup, hnoted⟩ := h.history
    refine ⟨h.carriers, h.fenced, history, hlookup, fun i a ha hkey hpublished ↦ ?_⟩
    rw [getElem?_append] at ha
    split at ha
    · exact hnoted i a ha hkey hpublished
    · obtain rfl := mem_singleton.1 (mem_of_getElem? ha)
      cases hpublished
  | bound ha hreleased =>
    exact h.setAdmission fun history _ _ hpublished ↦
      absurd hpublished (by simp [hc.not_published ha hreleased])
  | published ha hreleased => exact h.publish hc hnow ha hreleased
  | released ha hreleased => exact h.release_unpublished hc ha hreleased

/-- Releasing the fence of another batch. -/
theorem Noted.releaseBatchFence {k : Key} (hk : key ≠ k) :
    Noted Before old key { w with registry := releaseBatchFence w.registry k true } := by
  have hframe :
      (BatchApprovals.releaseBatchFence w.registry k true).carriers = w.registry.carriers ∧
        (BatchApprovals.releaseBatchFence w.registry k true).fenceHistory =
          w.registry.fenceHistory.pop k := by
    obtain ⟨ps, -, hreg | ⟨gate, -, hreg⟩⟩ := releaseBatchFence_frame w.registry k true
    · rw [hreg]
      exact ⟨rfl, rfl⟩
    · rw [hreg]
      exact ⟨rfl, rfl⟩
  refine h.withRegistry w.sessions _ (fun e he ↦ hframe.1 ▸ he)
    (fun hmem ↦ (mem_fences_releaseBatchFence _ _ _).2 ⟨hmem, hk⟩) ?_
  rw [hframe.2, Dict.lookup_pop, if_neg hk]

/-- A batch that is fenced is not fenced again, and fencing another does not matter to it. -/
theorem Noted.closeBatchAdmission (k : Key) :
    Noted Before old key
      { w with registry := (closeBatchAdmission w.sessions w.registry k).2 } := by
  by_cases hk : key = k
  · subst hk
    rcases closeBatchAdmission_cases w.sessions w.registry key with
      ⟨e, -, hreg | ⟨hfence, -⟩⟩ | ⟨-, hfence, -⟩
    · rw [hreg]
      exact h
    · exact absurd h.fenced hfence
    · exact absurd h.fenced hfence
  · have hfenced : key ∈ w.registry.fences →
        key ∈ (BatchApprovals.closeBatchAdmission w.sessions w.registry k).2.fences :=
      mem_fences_closeBatchAdmission w.sessions hk
    rcases closeBatchAdmission_cases w.sessions w.registry k with
      ⟨e, -, hreg | ⟨-, ps, -, hreg⟩⟩ | ⟨-, -, ps, -, hreg, -⟩
    · rw [hreg]
      exact h
    · rw [hreg] at hfenced ⊢
      exact h.withRegistry w.sessions _ (fun _ he ↦ he) hfenced rfl
    · rw [hreg] at hfenced ⊢
      exact h.withRegistry w.sessions _ (fun _ he ↦ he) hfenced
        ((Dict.lookup_set _ _ _ _).trans (if_neg hk))

end

/-- **What is published of a fenced batch is noted, whatever happens to others.** -/
theorem Noted.step (h : Noted Before old key s.world) (hc : Coherent Was s.world)
    (hnow : Now Was s.world) {a : FreezeAct}
    (hdrained : a ≠ .drained key) (hinterrupt : a ≠ .interrupt key) :
    Noted Before old key (s.step lower a).world := by
  refine Freezer.of_step hc.accepting a h (h.world_step hc hnow) h.closeBatchAdmission
    fun k ps ha _ ↦ ?_
  have hk : key ≠ k := by
    rintro rfl
    exact ha.elim hdrained hinterrupt
  exact ⟨(h.withRegistry s.world.sessions { s.world.registry with projections := ps }
      (fun _ he ↦ he) id rfl).releaseBatchFence hk,
    h.withRegistry s.world.sessions _ (fun _ he ↦ he) id
      ((Dict.lookup_pop _ _ _).trans (if_neg hk))⟩

end Noted

/-! ## The gates -/

section Gates

variable {lower} {Was : Nat → Str → Prop} {w : World}

/-- Opening and closing gates does not change what they count. -/
theorem Accounted.reopen (h : Accounted w)
    (hgate : ∀ k, ∃ closed, reg.gateOf k = { w.registry.gateOf k with closed := closed }) :
    Accounted { w with registry := reg } := by
  intro k
  obtain ⟨closed, heq⟩ := hgate k
  have htally := h k
  rw [heq]
  exact ⟨htally.admissions, htally.active, htally.drained⟩

theorem gateOf_setGate_closed (reg : Registry) (key : Key) (closed : Bool) (k : Key) :
    ∃ closed', (reg.setGate key { reg.gateOf key with closed := closed }).gateOf k =
      { reg.gateOf k with closed := closed' } := by
  rw [gateOf_setGate]
  split
  next hk => exact ⟨closed, by rw [hk]⟩
  · exact ⟨(reg.gateOf k).closed, rfl⟩

theorem Accounted.closeBatchAdmission (h : Accounted w) (key : Key) :
    Accounted { w with registry := (closeBatchAdmission w.sessions w.registry key).2 } := by
  refine h.reopen fun k ↦ ?_
  obtain ⟨closed, hclosed⟩ := gateOf_setGate_closed w.registry key true k
  rcases closeBatchAdmission_cases w.sessions w.registry key with
    ⟨e, -, hreg | ⟨-, ps, -, hreg⟩⟩ | ⟨-, -, ps, -, hreg, -⟩
  · exact ⟨_, by rw [hreg]⟩
  · rw [hreg]
    obtain ⟨closed', hclosed'⟩ := gateOf_setGate_closed
      ((w.registry.setGate key { w.registry.gateOf key with closed := true }).addFence key)
        key false k
    refine ⟨closed', hclosed'.trans ?_⟩
    exact congrArg (fun g : Gate ↦ { g with closed := closed' }) hclosed
  · rw [hreg]
    exact ⟨closed, hclosed⟩

theorem Accounted.releaseBatchFence (h : Accounted w) (key : Key) (rollback : Bool) :
    Accounted { w with registry := releaseBatchFence w.registry key rollback } := by
  refine h.reopen fun k ↦ ?_
  obtain ⟨ps, -, hreg | ⟨gate, hgate, hreg⟩⟩ := releaseBatchFence_frame w.registry key rollback
  · exact ⟨_, by rw [hreg]; rfl⟩
  · have hof : gate = w.registry.gateOf key := by rw [Registry.gateOf, hgate, Option.getD_some]
    rw [hreg, hof]
    exact gateOf_setGate_closed w.registry key false k

theorem Accounted.freeze_step (h : Accounted s.world) (hc : Coherent Was s.world) (a : FreezeAct) :
    Accounted (s.step lower a).world := by
  refine Freezer.of_step hc.accepting a h h.step h.closeBatchAdmission fun key ps _ _ ↦ ⟨?_, h⟩
  have hps : Accounted { s.world with
      registry := { s.world.registry with projections := ps } } := h
  exact hps.releaseBatchFence key true

end Gates

/-! ## The result of a freeze -/

/-- What happens, from the time there is no session registered. -/
abbrev freezerRun (sessions : Sessions) (acts : List FreezeAct) : Freezer :=
  runs (Freezer.step lower) (.start sessions) acts

/-- The approval has been pending in the session in the course of the run. -/
def WasPending (sessions : Sessions) (acts : List FreezeAct) (session : Nat) (approvalId : Str) :
    Prop :=
  Since (Freezer.step lower) (.start sessions)
    (fun s ↦ PendingIn s.world.sessions session approvalId) (fun _ ↦ True) acts

section Freeze

variable {lower} {sessions : Sessions}

theorem freezerRun_concat (acts : List FreezeAct) (a : FreezeAct) :
    freezerRun lower sessions (acts ++ [a]) = (freezerRun lower sessions acts).step lower a :=
  runs_append _ _ _

theorem wasPending_now {acts : List FreezeAct} {session : Nat} {id : Str}
    (h : PendingIn (freezerRun lower sessions acts).world.sessions session id) :
    WasPending lower sessions acts session id :=
  Since.now (Q := fun s : Freezer ↦ PendingIn s.world.sessions session id) h

theorem WasPending.append {acts : List FreezeAct} {session : Nat} {id : Str}
    (h : WasPending lower sessions acts session id) (later : List FreezeAct) :
    WasPending lower sessions (acts ++ later) session id := by
  induction later using List.reverseRecOn with
  | nil => rwa [append_nil]
  | append_singleton later a ih =>
    rw [← append_assoc]
    exact Since.concat ih trivial

theorem coherent_runs (acts : List FreezeAct) :
    Coherent (WasPending lower sessions acts) (freezerRun lower sessions acts).world := by
  induction acts using List.reverseRecOn with
  | nil => exact coherent_start _ _
  | append_singleton acts a ih =>
    rw [freezerRun_concat]
    exact (ih.step (fun _ _ ↦ wasPending_now) a).mono fun _ _ h ↦ h.append [a]

theorem accounted_runs (acts : List FreezeAct) :
    Accounted (freezerRun lower sessions acts).world := by
  induction acts using List.reverseRecOn with
  | nil => exact fun key ↦ tallies_new
  | append_singleton acts a ih =>
    rw [freezerRun_concat]
    exact ih.freeze_step (coherent_runs acts) a

variable {initial : List Projection}

/-- What a freeze that has placed its fence can rely on, as long as it waits. -/
theorem noted_runs {before after : List FreezeAct} {key : Key}
    (hfence : (closeBatchAdmission (freezerRun lower sessions before).world.sessions
      (freezerRun lower sessions before).registry key).1 = .ok initial)
    (hafter : ∀ a ∈ after, a ≠ .drained key ∧ a ≠ .interrupt key) :
    Noted (fun i ↦ ∃ a, (freezerRun lower sessions before).world.admissions[i]? = some a ∧
        a.published = true)
      (freezerRun lower sessions before).registry.carriers key
      (freezerRun lower sessions (before ++ .fence key :: after)).world := by
  induction after using List.reverseRecOn with
  | nil =>
    rw [freezerRun_concat]
    set s₀ := freezerRun lower sessions before with hs₀
    have hfenced := (fenced_of_closeBatchAdmission hfence).1
    rcases closeBatchAdmission_cases s₀.world.sessions s₀.registry key with
      ⟨e, he, -⟩ | ⟨-, -, ps, -, hreg, hok⟩
    · rw [hfence] at he
      cases he
    · rw [Freezer.step]
      split
      next initial' reg hcall =>
        rw [hcall] at hreg hfenced
        obtain rfl : reg = _ := hreg
        exact ⟨fun e he ↦ he, hfenced, [], (Dict.lookup_set _ _ _ _).trans (if_pos rfl),
          fun i a ha _ hpublished ↦ .inl ⟨a, ha, hpublished⟩⟩
      next hcall =>
        rw [hcall] at hfence
        cases hfence
  | append_singleton after a ih =>
    have hnoted := ih fun a ha ↦ hafter a (mem_append_left _ ha)
    obtain ⟨hdrained, hinterrupt⟩ := hafter a (mem_append_right _ mem_cons_self)
    have hsplit : before ++ .fence key :: (after ++ [a]) = (before ++ .fence key :: after) ++
      [a] := by
      simp
    rw [hsplit, freezerRun_concat]
    exact hnoted.step (coherent_runs _) (fun _ _ ↦ wasPending_now) hdrained hinterrupt

/-- What the result of a freeze is merged from. -/
theorem finishFreeze_ok {key : Key} {result : List Projection}
    (h : (finishFreeze sessions reg key initial).1 = .ok result) :
    ∃ ps, syncCarriers sessions (reg.carriersOf key) reg =
      (.ok (), { reg with projections := ps }) ∧
      result = mergeProjectionSets initial
        (mergeProjectionSets (((reg.fenceHistory.lookup key).getD []).map Prod.snd)
          (snapshotForBatch { reg with projections := ps } key)) := by
  rw [finishFreeze, snapshotAfterBatchDrain] at h
  split at h
  next drained reg' hcall =>
    split at hcall
    · cases hcall
    · rcases snapshotFencedBatch_cases sessions reg key with
        ⟨e, hcases⟩ | ⟨_, ps, hsync, ⟨e, hcases⟩ | ⟨rfl, hcases⟩⟩
      · rw [hcases] at hcall
        cases hcall
      · rw [hcases] at hcall
        cases hcall
      · rw [hcases] at hcall
        cases hcall
        cases h
        exact ⟨ps, hsync, rfl⟩
  · cases h

/-- Every approval that is pending when a batch is fenced is projected, and every projection is
known. -/
theorem closeBatchAdmission_ok {Was : Nat → Str → Prop} {w : World} (h : Coherent Was w)
    (hnow : Now Was w) {key : Key}
    (hok : (closeBatchAdmission w.sessions w.registry key).1 = .ok initial) :
    (∀ c ∈ w.registry.carriersOf key, ∀ id, PendingIn w.sessions c.session id →
        ∃ p ∈ initial, p.approvalId = id) ∧
      ∀ p ∈ initial, Known Was w.registry.carriers p ∧ p.key = key := by
  have hclosed := h.closed key
  rcases closeBatchAdmission_cases w.sessions w.registry key with
    ⟨e, he, -⟩ | ⟨-, -, ps, hsync, -, hinitial⟩
  · rw [hok] at he
    cases he
  · rw [hok, Except.ok.injEq] at hinitial
    have hsound := hclosed.projections.syncCarriers (carriersOf_subset _ key) hnow
    have hprojected := (syncCarriers_ok (carriersOf_subset _ key) hnow
      (hclosed.nodup_sessions key) hclosed.projections hsync).2
    rw [hsync] at hsound
    subst hinitial
    refine ⟨fun c hc id hpending ↦ ?_, fun p hp ↦ ?_⟩
    · obtain ⟨p, hp, hreg⟩ := hprojected c hc id hpending
      refine ⟨p, mem_snapshotForBatch.2 ⟨⟨id, hp⟩, ?_⟩, hsound.id _ hp⟩
      rw [hreg.key, (mem_carriersOf.1 hc).2]
    · obtain ⟨⟨id, hmem⟩, hkey⟩ := mem_snapshotForBatch.1 hp
      exact ⟨hsound.known _ hmem, hkey⟩

end Freeze

/-- **No approval is made up**: whatever is projected at any time, and whatever a rollback would put
back, has been pending in a session that is registered for it. -/
theorem projections_were_pending (sessions : Sessions) (acts : List FreezeAct) :
    let reg := (freezerRun lower sessions acts).registry
    Sound (WasPending lower sessions acts) reg.carriers reg.projections ∧
      ∀ e ∈ reg.fenceSnapshots, Sound (WasPending lower sessions acts) reg.carriers e.2 :=
  ⟨(coherent_runs acts).projections, (coherent_runs acts).snapshots⟩

/-- **A freeze misses no approval.**  Its result has every approval that was pending in a session of
the batch when the fence was placed, and every approval that has been published since; it has each
once, as the carrier of the session says in which it was pending.  And the gates count the
admissions that have not been released, whatever happens. -/
theorem freeze_misses_no_approval (sessions : Sessions) :
    (∀ (before after : List FreezeAct) (key : Key) (initial result : List Projection),
      let s₀ := freezerRun lower sessions before
      let s := freezerRun lower sessions (before ++ .fence key :: after)
      (closeBatchAdmission s₀.world.sessions s₀.registry key).1 = .ok initial →
      (∀ a ∈ after, a ≠ .drained key ∧ a ≠ .interrupt key) →
      (finishFreeze s.world.sessions s.registry key initial).1 = .ok result →
      (∀ c ∈ s₀.registry.carriersOf key, ∀ id, PendingIn s₀.world.sessions c.session id →
          id ∈ result.map Projection.approvalId) ∧
        (∀ (i : Nat) (a : Admission), s.world.admissions[i]? = some a → a.key = key →
          a.published = true →
          (∃ a₀ : Admission, s₀.world.admissions[i]? = some a₀ ∧ a₀.published = true) ∨
            ∃ request, a.request = some request ∧
              request.approvalId.strip ∈ result.map Projection.approvalId) ∧
        (result.map Projection.approvalId).Nodup ∧
        ∀ p ∈ result, ∃ c ∈ s.registry.carriersOf key, p.RegisteredBy c ∧
          WasPending lower sessions (before ++ .fence key :: after) c.session p.approvalId) ∧
    ∀ (acts : List FreezeAct) (key : Key),
      let s := freezerRun lower sessions acts
      (s.registry.gateOf key).active = (s.world.outstanding key).length ∧
        ((s.registry.gateOf key).drained = true ↔ (s.world.outstanding key).length = 0) := by
  constructor
  · intro before after key initial result s₀ s hfence hafter hresult
    have hnoted := noted_runs hfence hafter
    have hcoherent : Coherent (WasPending lower sessions (before ++ .fence key :: after)) s.world :=
      coherent_runs _
    obtain ⟨hpending, hknown⟩ := closeBatchAdmission_ok (coherent_runs before)
      (fun _ _ ↦ wasPending_now) hfence
    obtain ⟨ps, hsync, rfl⟩ := finishFreeze_ok hresult
    obtain ⟨history, hlookup, hpublished⟩ := hnoted.history
    have hhistory := hcoherent.history _ (Dict.mem_of_lookup hlookup)
    change s.registry.fenceHistory.lookup key = some history at hlookup
    rw [hlookup, Option.getD_some]
    refine ⟨fun c hc id hid ↦ ?_, fun i a ha hkey hpub ↦ ?_, nodup_mergeProjectionSets _ _,
      fun p hp ↦ ?_⟩
    · obtain ⟨p, hp, rfl⟩ := hpending c hc id hid
      exact mem_mergeProjectionSets (.inl hp)
    · refine (hpublished i a ha hkey hpub).imp_right ?_
      rintro ⟨request, hrequest, hmem⟩
      obtain ⟨e, he, hid⟩ := mem_map.1 hmem
      refine ⟨request, hrequest, ?_⟩
      rw [← hid, ← hhistory.1.id e he]
      -- the approval is in the merge of the history, under its own id
      have hinner : e.2.approvalId ∈ (mergeProjectionSets (history.map Prod.snd)
          (snapshotForBatch { s.registry with projections := ps } key)).map Projection.approvalId :=
        mem_mergeProjectionSets (.inl (mem_map_of_mem he))
      obtain ⟨q, hq, hqid⟩ := mem_map.1 hinner
      rw [← hqid]
      exact mem_mergeProjectionSets (.inr hq)
    · have hsound := hcoherent.projections.syncCarriers (carriersOf_subset _ key)
        fun _ _ ↦ wasPending_now
      have hfinal : Known (WasPending lower sessions (before ++ .fence key :: after))
          s.registry.carriers p ∧ p.key = key := by
        rcases mem_of_mem_mergeProjectionSets hp with hp | hp
        · obtain ⟨hp, hkey⟩ := hknown p hp
          exact ⟨hp.mono hnoted.carriers fun _ _ h ↦ h.append _, hkey⟩
        · rcases mem_of_mem_mergeProjectionSets hp with hp | hp
          · obtain ⟨e, he, rfl⟩ := mem_map.1 hp
            exact ⟨hhistory.1.known e he, hhistory.2 e he⟩
          · obtain ⟨⟨id, hmem⟩, hkey⟩ := mem_snapshotForBatch.1 hp
            refine ⟨hsound.known (id, p) ?_, hkey⟩
            change (id, p) ∈ (syncCarriers s.world.sessions (s.registry.carriersOf key)
              s.registry).2.projections
            rw [hsync]
            exact hmem
      obtain ⟨⟨e, he, hreg, hwas⟩, hkey⟩ := hfinal
      exact ⟨e.2, mem_carriersOf.2 ⟨⟨e, he, rfl⟩, hreg.key.symm.trans hkey⟩, hreg, hwas⟩
  · intro acts key s
    have htally : Tallies (s.registry.gateOf key) (s.world.outstanding key) :=
      accounted_runs acts key
    refine ⟨htally.active, ?_⟩
    rw [← htally.active]
    exact (congrArg (· = true) htally.drained).to_iff.trans decide_eq_true_iff

section Sample

def sampleApproval (approvalId : Str) : Pending :=
  ⟨.lit "approval_pending", approvalId, .lit "nonce", none⟩

/-- A session registers, and has an approval pending and an admission for another. -/
def sampleBefore : List FreezeAct :=
  [.producer (.register 1 (.lit "user") none 7 none none),
    .producer (.pend 7 (.lit "t1") (sampleApproval (.lit "a1"))),
    .producer (.acquire 1 (.lit "user") 7)]

/-- While the batch drains the other is published, and both are decided. -/
def sampleAfter : List FreezeAct :=
  [.producer (.pend 7 (.lit "t2") (sampleApproval (.lit "a2"))),
    .producer (.bind 0 ⟨.lit "a2", .lit "t2", .lit "user", .lit "batch_1", .lit "run",
      .lit "session", none⟩),
    .fence sampleKey, .producer (.publish 0),
    .producer (.unpend 7 (.lit "t1")), .producer (.unpend 7 (.lit "t2"))]

def sampleProjection (approvalId toolCallId : Str) : Projection :=
  ⟨approvalId, 1, .lit "batch_1", none, .lit "user", none, toolCallId, .lit "nonce", .lit "session",
    7, none, none⟩

theorem freeze_misses_no_approval_sample :
    let s₀ := freezerRun id sampleSystem.world.sessions sampleBefore
    let s :=
      freezerRun id sampleSystem.world.sessions (sampleBefore ++ .fence sampleKey :: sampleAfter)
    ∃ initial result,
      (closeBatchAdmission s₀.world.sessions s₀.registry sampleKey).1 = .ok initial ∧
        (finishFreeze s.world.sessions s.registry sampleKey initial).1 = .ok result ∧
        result = [sampleProjection (.lit "a1") (.lit "t1"),
          sampleProjection (.lit "a2") (.lit "t2")] ∧
        (result.map Projection.approvalId).Nodup ∧
        (s.registry.gateOf sampleKey).drained = true := by
  intro s₀ s
  obtain ⟨initial, hfence, hinitial⟩ := exists_ok_of_any
    (x := (closeBatchAdmission s₀.world.sessions s₀.registry sampleKey).1)
    (p := fun l ↦ decide (l = [sampleProjection (.lit "a1") (.lit "t1")])) (by decide +kernel)
  obtain rfl := of_decide_eq_true hinitial
  obtain ⟨result, hresult, hlist⟩ := exists_ok_of_any
    (x := (finishFreeze s.world.sessions s.registry sampleKey
      [sampleProjection (.lit "a1") (.lit "t1")]).1)
    (p := fun l ↦ decide (l = [sampleProjection (.lit "a1") (.lit "t1"),
      sampleProjection (.lit "a2") (.lit "t2")])) (by decide +kernel)
  have hafter : ∀ a ∈ sampleAfter, a ≠ .drained sampleKey ∧ a ≠ .interrupt sampleKey := by
    decide +kernel
  have hdrained : (s.world.outstanding sampleKey).length = 0 := by decide +kernel
  obtain ⟨hfreeze, hgates⟩ := freeze_misses_no_approval id sampleSystem.world.sessions
  have hnodup := (hfreeze sampleBefore sampleAfter sampleKey _ result hfence hafter hresult).2.2.1
  exact ⟨_, result, hfence, hresult, of_decide_eq_true hlist, hnodup,
    (hgates _ sampleKey).2.2 hdrained⟩

end Sample

end AgentGateway.BatchApprovals
