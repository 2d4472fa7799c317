import AgentGateway.BatchApprovals.Registry
import AgentGateway.Py.Runs

/-!
# Producers of batch approvals

`World` is the registry together with the sessions it reads and the admissions it has given out, and
`Act` is what sessions and producers of approvals do: pending approvals come and go, sessions
register, and admissions are acquired, bound, published, given up and released.

The gate of a batch counts its admissions.  Whatever happens, the count is right (`Accounted`): it
is the number of admissions that have not been released, and the gate is drained exactly if there
are none.
-/

namespace AgentGateway.BatchApprovals

open Py List

/-! ## The world -/

structure World where
  sessions : Sessions
  registry : Registry
  /-- The admissions that have been given out, by number. -/
  admissions : List Admission

/-- What sessions and producers do. -/
inductive Act where
  /-- A session notes a pending tool. -/
  | pend (session : Nat) (toolCallId : Str) (pending : Pending)
  /-- A session drops a pending tool. -/
  | unpend (session : Nat) (toolCallId : Str)
  | register (batchId : Int) (ownerUserId : Str) (channel : Option Str) (session : Nat)
    (store policy : Option Nat)
  | acquire (batchId : Int) (ownerUserId : Str) (session : Nat)
  /-- `bind_request` -/
  | bind (admission : Nat) (request : Request)
  /-- `publish_pending` -/
  | publish (admission : Nat)
  /-- `abort_unpublished`, once the store has aborted the approval -/
  | abort (admission : Nat)
  | release (admission : Nat)
deriving DecidableEq

/-- `session.pending_tools` is changed. -/
def setPending (sessions : Sessions) (session : Nat) (f : Dict Str Pending → Dict Str Pending) :
    Sessions :=
  Function.update sessions session
    { sessions session with pendingTools := f (sessions session).pendingTools }

variable (lower : Str → Str)

/-- The checks of `bind_request` -/
def bindable (w : World) (a : Admission) (request : Request) : Bool :=
  decide (a.released = false ∧ request.userId = a.carrier.ownerUserId ∧
    request.requestId = a.carrier.runId ∧ request.hasLifecycleRunId = true ∧
    request.sessionId = (w.sessions a.carrier.session).sessionId ∧
    normalizeChannel lower request.channel = a.carrier.channel)

/-- `release`, of an admission that has not been released -/
def World.releaseAdmission (w : World) (i : Nat) (a : Admission) : World :=
  { w with
    registry := (BatchApprovals.releaseAdmission w.registry a.key i).2
    admissions := w.admissions.set i { a with released := true } }

/-- `publish_pending`, of an admission that has not been released -/
def World.publish (w : World) (i : Nat) (a : Admission) : World :=
  match publishAdmittedCarrier w.sessions lower w.registry a with
  | (.ok _, reg) => { w with registry := reg }.releaseAdmission i { a with published := true }
  | (.error _, reg) => { w with registry := reg }.releaseAdmission i a

/-- The pending tool that an unpublished approval has left in its session. -/
def abortPending (w : World) (a : Admission) (request : Request) : Sessions :=
  let tool := request.toolCallId.strip
  if ∃ pending ∈ (w.sessions a.carrier.session).pendingTools.lookup tool,
      pending.approvalId = request.approvalId.strip then
    setPending w.sessions a.carrier.session (Dict.pop · tool)
  else w.sessions

def World.step (w : World) : Act → World
  | .pend session tool pending =>
    { w with sessions := setPending w.sessions session (Dict.set · tool pending) }
  | .unpend session tool => { w with sessions := setPending w.sessions session (Dict.pop · tool) }
  | .register batchId owner channel session store policy =>
    { w with
      registry := (registerSession w.sessions lower w.registry batchId owner channel session store
        policy).2 }
  | .acquire batchId owner session =>
    match acquireAdmission w.registry batchId owner session w.admissions.length with
    | (.ok carrier, reg) =>
      { w with
        registry := reg
        admissions := w.admissions ++ [⟨(owner.strip, batchId), carrier, false, false, none⟩] }
    | (.error _, reg) => { w with registry := reg }
  | .bind i request =>
    match w.admissions[i]? with
    | some a =>
      if bindable lower w a request then
        { w with admissions := w.admissions.set i { a with request := some request } }
      else w
    | none => w
  | .publish i =>
    match w.admissions[i]? with
    | some a => if a.released then w else w.publish lower i a
    | none => w
  | .abort i =>
    match w.admissions[i]? with
    | some a =>
      match a.request with
      | some request => if a.published then w else { w with sessions := abortPending w a request }
      | none => w
    | none => w
  | .release i =>
    match w.admissions[i]? with
    | some a => if a.released then w else w.releaseAdmission i a
    | none => w

/-! ## What the calls leave alone -/

section Frame

variable {sessions : Sessions} {reg : Registry}

theorem syncCarrier_frame (sessions : Sessions) (reg : Registry) (c : Carrier) (force : Bool) :
    ∃ ps, (syncCarrier sessions reg c force).2 = { reg with projections := ps } := by
  rw [syncCarrier]
  split
  · exact ⟨reg.projections, rfl⟩
  · dsimp only
    split
    · exact ⟨reg.projections, rfl⟩
    · split
      next e ps _ => exact ⟨ps, rfl⟩
      next live ps _ => exact ⟨_, rfl⟩

theorem syncCarriers_frame (sessions : Sessions) (cs : List Carrier) (reg : Registry) :
    ∃ ps, (syncCarriers sessions cs reg).2 = { reg with projections := ps } := by
  induction cs generalizing reg with
  | nil => exact ⟨reg.projections, rfl⟩
  | cons c cs ih =>
    obtain ⟨ps, hps⟩ := syncCarrier_frame sessions reg c true
    rw [syncCarriers]
    split
    next u reg' h =>
      rw [h] at hps
      obtain rfl : reg' = { reg with projections := ps } := hps
      exact ih _
    next e reg' h =>
      rw [h] at hps
      exact ⟨ps, hps⟩

theorem lookup_gates_setGate (reg : Registry) (k k' : Key) (g : Gate) :
    (reg.setGate k g).gates.lookup k' = if k' = k then some g else reg.gates.lookup k' :=
  Dict.lookup_set _ _ _ _

theorem gateOf_setGate (reg : Registry) (k k' : Key) (g : Gate) :
    (reg.setGate k g).gateOf k' = if k' = k then g else reg.gateOf k' := by
  simp only [Registry.gateOf, lookup_gates_setGate]
  split <;> rfl

/-- Making sure that there is a gate changes none. -/
theorem gateOf_setGate_gateOf (reg : Registry) (k k' : Key) :
    (reg.setGate k (reg.gateOf k)).gateOf k' = reg.gateOf k' := by
  rw [gateOf_setGate]
  split
  next h => rw [h]
  · rfl

/-- A session that registers adds its carrier, and changes the projections. -/
theorem registerSession_cases (sessions : Sessions) (lower : Str → Str) (reg : Registry)
    (batchId : Int) (owner : Str) (channel : Option Str) (session : Nat)
    (store policy : Option Nat) :
    let call := registerSession sessions lower reg batchId owner channel session store policy
    let carrier := newCarrier lower batchId owner channel session store policy
    (∃ e, call = (.error e, reg)) ∨
      registrationError sessions lower reg carrier = none ∧
        ∃ ps, (syncCarrier sessions reg carrier false).2 = { reg with projections := ps } ∧
          call = (.ok carrier, { reg with
            projections := ps
            carriers := reg.carriers.set (carrier.ownerUserId, carrier.batchId, session) carrier
          }.setGate carrier.key (reg.gateOf carrier.key)) := by
  simp only [registerSession]
  split
  next e _ => exact .inl ⟨e, rfl⟩
  next hnone =>
    obtain ⟨ps, hps⟩ := syncCarrier_frame sessions reg
      (newCarrier lower batchId owner channel session store policy) false
    split
    next e _ _ => exact .inl ⟨e, rfl⟩
    next u reg' h =>
      rw [h] at hps
      obtain rfl : reg' = { reg with projections := ps } := hps
      exact .inr ⟨hnone, ps, by rw [h], rfl⟩

end Frame

/-! ## The count of a gate -/

/-- The admissions of a batch that have not been released. -/
def World.outstanding (w : World) (key : Key) : List Nat :=
  (List.range w.admissions.length).filter fun i ↦
    (w.admissions[i]?).any fun a ↦ decide (a.key = key ∧ a.released = false)

/-- The gate has the admissions, and counts them. -/
structure Tallies (gate : Gate) (l : List Nat) : Prop where
  admissions : gate.admissions = l
  active : gate.active = l.length
  drained : gate.drained = decide (gate.active = 0)

/-- Every gate counts the admissions that have not been released. -/
def Accounted (w : World) : Prop :=
  ∀ key, Tallies (w.registry.gateOf key) (w.outstanding key)

theorem tallies_new : Tallies .new [] := ⟨rfl, rfl, rfl⟩

variable {a a' : Admission} {i : Nat}

section Outstanding

variable {w : World}

theorem outstanding_append (w : World) (a : Admission) (hreleased : a.released = false)
    (key : Key) :
    { w with admissions := w.admissions ++ [a] }.outstanding key =
      if a.key = key then w.outstanding key ++ [w.admissions.length] else w.outstanding key := by
  have hold : ∀ i ∈ List.range w.admissions.length,
      (((w.admissions ++ [a])[i]?).any fun a ↦ decide (a.key = key ∧ a.released = false)) =
        ((w.admissions[i]?).any fun a ↦ decide (a.key = key ∧ a.released = false)) := by
    intro i hi
    rw [getElem?_append_left (mem_range.1 hi)]
  simp only [World.outstanding, length_append, length_singleton, range_succ,
    filter_append, filter_congr hold]
  by_cases hkey : a.key = key
  · simp [hkey, hreleased]
  · simp [hkey]

/-- Changing an admission changes nothing, if it keeps the batch and whether it is released. -/
theorem outstanding_set_of_same (w : World) (ha : w.admissions[i]? = some a) (hkey : a'.key = a.key)
    (hreleased : a'.released = a.released) (key : Key) :
    { w with admissions := w.admissions.set i a' }.outstanding key =
      w.outstanding key := by
  simp only [World.outstanding, length_set]
  refine filter_congr fun j _ ↦ ?_
  obtain ⟨hlt, hget⟩ := List.getElem?_eq_some_iff.1 ha
  by_cases hij : i = j
  · subst hij
    simp [hlt, hget, hkey, hreleased]
  · simp [hij]

theorem outstanding_set_released (w : World) (ha : w.admissions[i]? = some a)
    (hreleased : a'.released = true) (key : Key) :
    { w with admissions := w.admissions.set i a' }.outstanding key =
      if a.key = key then (w.outstanding key).erase i else w.outstanding key := by
  obtain ⟨hlt, hget⟩ := List.getElem?_eq_some_iff.1 ha
  have hnodup : (w.outstanding key).Nodup := List.nodup_range.filter _
  have hstep : { w with admissions := w.admissions.set i a' }.outstanding key =
      (w.outstanding key).filter (· != i) := by
    simp only [World.outstanding, length_set, filter_filter]
    refine filter_congr fun j _ ↦ ?_
    by_cases hij : i = j
    · subst hij
      simp [hlt, hreleased]
    · simp [hij, Ne.symm hij]
  rw [hstep]
  split
  · rw [hnodup.erase_eq_filter]
  next hne =>
    refine filter_eq_self.2 fun j hj ↦ ?_
    rw [World.outstanding, mem_filter] at hj
    have hji : j ≠ i := by
      rintro rfl
      simp [ha, hne] at hj
    simpa using hji

theorem mem_outstanding {key : Key} :
    i ∈ w.outstanding key ↔ ∃ a, w.admissions[i]? = some a ∧ a.key = key ∧ a.released = false := by
  simp only [World.outstanding, mem_filter, mem_range, Option.any_eq_true,
    decide_eq_true_eq]
  constructor
  · rintro ⟨-, a, ha, hkey, hreleased⟩
    exact ⟨a, ha, hkey, hreleased⟩
  · rintro ⟨a, ha, hkey, hreleased⟩
    exact ⟨(List.getElem?_eq_some_iff.1 ha).1, a, ha, hkey, hreleased⟩

end Outstanding

section Accounted

variable {w : World} {lower : Str → Str}

/-- What does not touch gates and admissions leaves the count alone. -/
theorem Accounted.of_same (h : Accounted w) {w' : World}
    (hgate : ∀ k, w'.registry.gateOf k = w.registry.gateOf k)
    (hout : ∀ k, w'.outstanding k = w.outstanding k) : Accounted w' := by
  intro key
  rw [hgate, hout]
  exact h key

theorem gateOf_closeBatchNow (reg : Registry) (k k' : Key) :
    (closeBatchNow reg k).gateOf k' = if k' = k then .new else reg.gateOf k' := by
  simp only [Registry.gateOf, closeBatchNow, Dict.lookup_pop]
  split <;> rfl

/-- The gate after a release. -/
def Gate.less (gate : Gate) (i : Nat) : Gate :=
  { gate with
    active := gate.active - 1, admissions := gate.admissions.erase i
    drained := gate.drained || decide (gate.active - 1 = 0) }

variable {l : List Nat}

/-- An admission that is outstanding can be released. -/
theorem releaseAdmission_cases {reg : Registry} {key : Key} (htally : Tallies (reg.gateOf key) l)
    (hi : i ∈ l) :
    ∃ gate, reg.gates.lookup key = some gate ∧
      releaseAdmission reg key i =
        (.ok (), if gate.active - 1 = 0 ∧ gate.closeWhenDrained = true ∧
            reg.shutdownStarted = false
          then closeBatchNow (reg.setGate key (gate.less i)) key
          else reg.setGate key (gate.less i)) := by
  have hpos : 0 < l.length := length_pos_of_mem hi
  cases hgate : reg.gates.lookup key with
  | none =>
    have hactive := htally.active
    rw [Registry.gateOf, hgate] at hactive
    exact absurd hactive (Nat.ne_of_lt hpos)
  | some gate =>
    rw [Registry.gateOf, hgate, Option.getD_some] at htally
    have hactive := htally.active
    refine ⟨gate, rfl, ?_⟩
    rw [releaseAdmission, hgate]
    dsimp only
    rw [if_neg (by omega), if_pos (htally.admissions ▸ hi)]
    split
    · rfl
    · rfl

theorem Tallies.less {gate : Gate} (h : Tallies gate l) (hi : i ∈ l) :
    Tallies (gate.less i) (l.erase i) := by
  have hpos : 0 < l.length := length_pos_of_mem hi
  refine ⟨congrArg (·.erase i) h.admissions, ?_, ?_⟩
  · rw [length_erase_of_mem hi, Gate.less, h.active]
  · have hactive := h.active
    have hfalse : gate.drained = false := by
      rw [h.drained]
      exact decide_eq_false (by omega)
    simp only [Gate.less, hfalse, Bool.false_or]

/-- **A release is counted.** -/
theorem Accounted.release (h : Accounted w) (ha : w.admissions[i]? = some a)
    (hreleased : a.released = false) (hreleased' : a'.released = true) :
    Accounted { w with
      registry := (releaseAdmission w.registry a.key i).2, admissions :=
        w.admissions.set i a' } := by
  have hi : i ∈ w.outstanding a.key := mem_outstanding.2 ⟨a, ha, rfl, hreleased⟩
  obtain ⟨gate, hgate, hcall⟩ := releaseAdmission_cases (h a.key) hi
  have htally := h a.key
  rw [Registry.gateOf, hgate, Option.getD_some] at htally
  have hless := htally.less hi
  intro key
  have hout := outstanding_set_released w ha hreleased' key
  change Tallies ((releaseAdmission w.registry a.key i).2.gateOf key)
    ({ w with admissions := w.admissions.set i a' }.outstanding key)
  rw [hout, hcall]
  split
  next hclose =>
    rw [gateOf_closeBatchNow, gateOf_setGate]
    by_cases hkey : key = a.key
    · subst hkey
      -- the last admission is gone, and so is the gate
      have hnil : (w.outstanding a.key).erase i = [] := by
        refine eq_nil_of_length_eq_zero ?_
        rw [length_erase_of_mem hi, ← htally.active]
        exact hclose.1
      rw [if_pos rfl, if_pos rfl, hnil]
      exact tallies_new
    · rw [if_neg hkey, if_neg hkey, if_neg (Ne.symm hkey)]
      exact h key
  · rw [gateOf_setGate]
    by_cases hkey : key = a.key
    · subst hkey
      rw [if_pos rfl, if_pos rfl]
      exact hless
    · rw [if_neg hkey, if_neg (Ne.symm hkey)]
      exact h key

/-- Nothing is published, or the carrier is synced and the projection noted. -/
theorem publishAdmittedCarrier_cases (sessions : Sessions) (lower : Str → Str) (reg : Registry)
    (a : Admission) :
    let call := publishAdmittedCarrier sessions lower reg a
    (∃ e, call = (.error e, reg)) ∨
      ∃ ps p, syncCarrier sessions reg a.carrier true = (.ok (), { reg with projections := ps }) ∧
        a.published? lower ps = some p ∧
        call = (.ok (), { reg with projections := ps }.note a.key p) := by
  simp only [publishAdmittedCarrier]
  split
  · exact .inl ⟨_, rfl⟩
  next gate _ =>
    split
    · exact .inl ⟨_, rfl⟩
    · obtain ⟨ps, hps⟩ := syncCarrier_frame sessions reg a.carrier true
      split
      next e reg' h =>
        rw [h] at hps
        obtain rfl : reg' = { reg with projections := ps } := hps
        exact .inl ⟨_, rfl⟩
      next u reg' h =>
        rw [h] at hps
        obtain rfl : reg' = { reg with projections := ps } := hps
        split
        · exact .inl ⟨_, rfl⟩
        next p hp => exact .inr ⟨ps, p, h, hp, rfl⟩

theorem note_frame (reg : Registry) (k : Key) (p : Projection) :
    ∃ history, reg.note k p = { reg with fenceHistory := history } := by
  rw [Registry.note]
  split
  · exact ⟨_, rfl⟩
  · exact ⟨_, rfl⟩

/-- Publishing leaves the gates alone. -/
theorem publishAdmittedCarrier_frame (sessions : Sessions) (lower : Str → Str) (reg : Registry)
    (a : Admission) :
    ∃ ps history, (publishAdmittedCarrier sessions lower reg a).2 =
      { reg with projections := ps, fenceHistory := history } := by
  rcases publishAdmittedCarrier_cases sessions lower reg a with ⟨e, hcall⟩ | ⟨ps, p, -, -, hcall⟩
  · exact ⟨reg.projections, reg.fenceHistory, by rw [hcall]⟩
  · obtain ⟨history, hnote⟩ := note_frame { reg with projections := ps } a.key p
    exact ⟨ps, history, by rw [hcall, hnote]⟩

theorem Accounted.publish (h : Accounted w) (ha : w.admissions[i]? = some a)
    (hreleased : a.released = false) :
    Accounted (w.publish lower i a) := by
  obtain ⟨ps, history, hframe⟩ := publishAdmittedCarrier_frame w.sessions lower w.registry a
  have hw : Accounted { w with
      registry := (publishAdmittedCarrier w.sessions lower w.registry a).2 } := by
    refine h.of_same (fun k ↦ ?_) fun k ↦ rfl
    rw [hframe]
    rfl
  rw [World.publish]
  split
  next u reg hcall =>
    rw [hcall] at hw
    exact hw.release (a := a) ha hreleased rfl
  next e reg hcall =>
    rw [hcall] at hw
    exact hw.release ha hreleased rfl

/-- The gate after an admission. -/
def Gate.more (gate : Gate) (i : Nat) : Gate :=
  { gate with active := gate.active + 1, admissions := gate.admissions ++ [i], drained := false }

theorem Tallies.more {gate : Gate} (h : Tallies gate l) (i : Nat) :
    Tallies (gate.more i) (l ++ [i]) := by
  refine ⟨congrArg (· ++ [i]) h.admissions, ?_, ?_⟩
  · rw [length_append, Gate.more, h.active]
    rfl
  · exact (decide_eq_false (Nat.succ_ne_zero gate.active)).symm

/-- An admission is refused, or it is counted and the batch is not fenced. -/
theorem acquireAdmission_cases (reg : Registry) (batchId : Int) (owner : Str) (session i : Nat) :
    let call := acquireAdmission reg batchId owner session i
    let key : Key := (owner.strip, batchId)
    (∃ e, call.1 = .error e ∧ (call.2 = reg ∨ call.2 = reg.setGate key (reg.gateOf key))) ∨
      key ∉ reg.fences ∧ ∃ carrier, reg.carriers.lookup (key.1, key.2, session) = some carrier ∧
        call = (.ok carrier,
          (reg.setGate key (reg.gateOf key)).setGate key ((reg.gateOf key).more i)) := by
  simp only [acquireAdmission]
  split
  · exact .inl ⟨_, rfl, .inl rfl⟩
  next carrier hcarrier =>
    split
    · exact .inl ⟨_, rfl, .inr rfl⟩
    · split
      · exact .inl ⟨_, rfl, .inr rfl⟩
      next hopen => exact .inr ⟨fun hmem ↦ hopen (.inr hmem), carrier, hcarrier, rfl⟩

/-- What a step of a producer can do. -/
inductive World.Moves (lower : Str → Str) (w : World) : World → Prop where
  | talked (sessions : Sessions) : Moves lower w { w with sessions := sessions }
  | registered {c : Carrier} {ps : Projections}
    (hnone : registrationError w.sessions lower w.registry c = none)
    (hsync : (syncCarrier w.sessions w.registry c false).2 =
      { w.registry with projections := ps }) :
    Moves lower w { w with
      registry := Registry.setGate
        { w.registry with
          projections := ps
          carriers := w.registry.carriers.set (c.ownerUserId, c.batchId, c.session) c }
        c.key (w.registry.gateOf c.key) }
  | refused (key : Key) :
    Moves lower w { w with registry := w.registry.setGate key (w.registry.gateOf key) }
  | acquired {key : Key} {session : Nat} {carrier : Carrier}
    (hcarrier : w.registry.carriers.lookup (key.1, key.2, session) = some carrier) :
    Moves lower w { w with
      registry := (w.registry.setGate key (w.registry.gateOf key)).setGate key
        ((w.registry.gateOf key).more w.admissions.length)
      admissions := w.admissions ++ [⟨key, carrier, false, false, none⟩] }
  | bound {i : Nat} {a : Admission} {request : Request} (ha : w.admissions[i]? = some a)
    (hreleased : a.released = false) :
    Moves lower w { w with admissions := w.admissions.set i { a with request := some request } }
  | published {i : Nat} {a : Admission} (ha : w.admissions[i]? = some a)
    (hreleased : a.released = false) : Moves lower w (w.publish lower i a)
  | released {i : Nat} {a : Admission} (ha : w.admissions[i]? = some a)
    (hreleased : a.released = false) : Moves lower w (w.releaseAdmission i a)

theorem World.moves_step (lower : Str → Str) (w : World) (act : Act) :
    w.Moves lower (w.step lower act) := by
  have hsame : w.Moves lower w := .talked w.sessions
  cases act with
  | pend => exact .talked _
  | unpend => exact .talked _
  | register batchId owner channel session store policy =>
    rw [World.step]
    rcases registerSession_cases w.sessions lower w.registry batchId owner channel session store
      policy with ⟨e, hcall⟩ | ⟨hnone, ps, hsync, hcall⟩
    · rw [hcall]
      exact hsame
    · rw [hcall]
      exact .registered hnone hsync
  | acquire batchId owner session =>
    rw [World.step]
    rcases acquireAdmission_cases w.registry batchId owner session w.admissions.length with
      ⟨e, he, hreg⟩ | ⟨-, carrier, hcarrier, hcall⟩
    · split
      next hcall =>
        rw [hcall] at he
        cases he
      next reg hcall =>
        rw [hcall] at hreg
        rcases hreg with hreg | hreg
        · obtain rfl : reg = w.registry := hreg
          exact hsame
        · obtain rfl : reg = w.registry.setGate _ _ := hreg
          exact .refused _
    · rw [hcall]
      exact .acquired hcarrier
  | bind =>
    rw [World.step]
    split
    next a ha =>
      split
      next hbind => exact .bound ha (of_decide_eq_true hbind).1
      · exact hsame
    · exact hsame
  | publish =>
    rw [World.step]
    split
    next a ha =>
      split
      · exact hsame
      next hreleased => exact .published ha (Bool.eq_false_iff.2 hreleased)
    · exact hsame
  | abort =>
    rw [World.step]
    split
    next a ha =>
      split
      next request _ =>
        split
        · exact hsame
        · exact .talked _
      · exact hsame
    · exact hsame
  | release =>
    rw [World.step]
    split
    next a ha =>
      split
      · exact hsame
      next hreleased => exact .released ha (Bool.eq_false_iff.2 hreleased)
    · exact hsame

/-- **The gates count, whatever producers do.** -/
theorem Accounted.step (h : Accounted w) (act : Act) : Accounted (w.step lower act) := by
  have hmoves := w.moves_step lower act
  generalize w.step lower act = w' at hmoves
  cases hmoves with
  | talked => exact h
  | registered =>
    exact h.of_same (fun k ↦ gateOf_setGate_gateOf w.registry _ _) fun k ↦ rfl
  | refused => exact h.of_same (fun k ↦ gateOf_setGate_gateOf w.registry _ _) fun k ↦ rfl
  | @acquired key session carrier hcarrier =>
    intro k
    have hout := outstanding_append w ⟨key, carrier, false, false, none⟩ rfl k
    change Tallies _ ({ w with admissions := w.admissions ++ [_] }.outstanding k)
    rw [hout, gateOf_setGate, gateOf_setGate]
    by_cases hkey : k = key
    · subst hkey
      rw [if_pos rfl, if_pos rfl]
      exact (h _).more _
    · rw [if_neg hkey, if_neg hkey, if_neg (Ne.symm hkey)]
      exact h k
  | bound ha =>
    exact h.of_same (fun _ ↦ rfl) fun k ↦ outstanding_set_of_same w ha (by rfl) (by rfl) k
  | published ha hreleased => exact h.publish ha hreleased
  | released ha hreleased => exact h.release ha hreleased rfl

end Accounted

end AgentGateway.BatchApprovals
