import AgentGateway.UsageResilience.Replay

/-!
# Which incident a reset clears

An operator resets the circuit with the time it was tripped at, so that an incident the operator has
not seen is not cleared.  But the time only says when the circuit was opened: a batch that is lost
while it is open changes the reason and not the time (`lost_incident_is_reset`).  A reset is refused
if the circuit was closed before the loss, or open with another time, so that the loss has a time of
its own (`reset_clears_seen_incident`).
-/

open Py

namespace AgentGateway.UsageResilience

variable {F : Type} {s : System F} {T : Str}

/-- The time of a step that trips the circuit. -/
def Act.stamp? : Act F → Option Str
  | .tripPrimary _ _ stamp | .tripLost _ _ stamp | .trip _ stamp => some stamp.trippedAt
  | _ => none

/-- Does the step finish a reset? -/
def Act.isReset : Act F → Bool
  | .finishReset _ _ => true
  | _ => false

/-! ## The time of the circuit -/

namespace Circuit

/-- An open circuit has a time and a deadline, and a closed one has no time. -/
structure Dated (c : Circuit) : Prop where
  opened : c.tripped = true → c.trippedAt.isSome ∧ c.byokAllowedUntil.isSome
  closed : c.tripped = false → c.trippedAt = none

/-- What `_reset_with_evidence` asks of the request itself. -/
structure ResetRequest.Supported (request : ResetRequest) : Prop where
  given : request.expectedTrippedAt ≠ [] ∧ request.operatorId.strip ≠ [] ∧
    request.reconciliationEvidenceId.strip ≠ []
  size : request.operatorId.strip.length ≤ 128 ∧ request.reconciliationEvidenceId.strip.length ≤ 256

variable {c c' : Circuit} {request : ResetRequest} {resetAt : Str}

theorem resetWithEvidence_eq_ok (h : c.resetWithEvidence request resetAt = .ok c') :
    c.trippedAt = some request.expectedTrippedAt ∧ c'.tripped = false ∧ c'.trippedAt = none := by
  simp only [resetWithEvidence, bind_eq_ok_iff, require_eq_ok_iff] at h
  obtain ⟨-, -, -, -, -, -, -, hexpected, h⟩ := h
  cases h
  exact ⟨hexpected, rfl, rfl⟩

/-- Of the circuit a reset asks only that it be open at the time that is given. -/
theorem exists_resetWithEvidence (resetAt : Str) (hrequest : request.Supported)
    (htripped : c.tripped = true) (htime : c.trippedAt = some request.expectedTrippedAt) :
    ∃ c', c.resetWithEvidence request resetAt = .ok c' := by
  simp only [resetWithEvidence, bind_eq_ok_iff, require_eq_ok_iff]
  exact ⟨_, (), hrequest.given, (), hrequest.size, (), htripped, (), htime, rfl⟩

/-- A trip of an open circuit leaves its time, and one of a closed circuit sets it. -/
theorem Dated.trip_cases (h : c.Dated) (reason : Str) (stamp : Stamp) (replaceReason : Bool) :
    (c.trip reason stamp replaceReason).tripped = true ∧
    (c.trip reason stamp replaceReason).byokAllowedUntil.isSome ∧
    (c.trip reason stamp replaceReason).trippedAt =
      if c.tripped then c.trippedAt else some stamp.trippedAt := by
  rw [trip]
  cases htripped : c.tripped with
  | true =>
    obtain ⟨htime, hdeadline⟩ := h.opened htripped
    split
    · exact ⟨htripped, hdeadline, rfl⟩
    · simp [htime, hdeadline]
  | false => simp

end Circuit

section Steps

variable [PyFloatNames F] (H : Host F) (maxStorageBytes : Nat)

/-- **What a step does to the circuit**: nothing, a trip, or a reset. -/
theorem System.circuit_step (a : Act F) : (s.step H maxStorageBytes a).circuit = s.circuit ∨
    (∃ reason stamp replaceReason, a.stamp? = some stamp.trippedAt ∧
      (s.step H maxStorageBytes a).circuit = s.circuit.trip reason stamp replaceReason) ∨
    a.isReset = true ∧ ∃ request resetAt,
      s.circuit.resetWithEvidence request resetAt = .ok (s.step H maxStorageBytes a).circuit := by
  cases a with
  | trip reason stamp => exact .inr (.inl ⟨reason, stamp, false, rfl, rfl⟩)
  | tripPrimary p reason stamp =>
    rw [step, tripPrimary]
    split
    · exact .inr (.inl ⟨reason, stamp, false, rfl, rfl⟩)
    · exact .inl rfl
  | tripLost p reason stamp =>
    rw [step, tripLost]
    split
    · exact .inr (.inl ⟨reason, stamp, true, rfl, rfl⟩)
    · exact .inl rfl
  | finishReset p resetAt =>
    rw [step, finishReset]
    split
    next request _ =>
      rcases hreset : s.circuit.resetWithEvidence request resetAt with e | c
      · exact .inl rfl
      · exact .inr (.inr ⟨rfl, request, resetAt, hreset⟩)
    · exact .inl rfl
  | call =>
    rw [step, call.eq_def]
    split
    · split <;> exact .inl rfl
    · exact .inl rfl
  | spool =>
    rw [step, spoolBatch]
    split
    · split <;> exact .inl rfl
    · exact .inl rfl
  | replay =>
    rw [step, replay]
    split <;> exact .inl rfl
  | beginReset =>
    rw [step, beginReset]
    split
    · split <;> exact .inl rfl
    · exact .inl rfl
  | lockSpool =>
    rw [step, lockSpool]
    split
    · split <;> exact .inl rfl
    · exact .inl rfl
  | crash => exact .inl rfl

theorem dated_step (h : s.circuit.Dated) (a : Act F) :
    (s.step H maxStorageBytes a).circuit.Dated := by
  rcases s.circuit_step H maxStorageBytes a with heq | ⟨reason, stamp, replaceReason, -, heq⟩ |
    ⟨-, request, resetAt, hreset⟩
  · rwa [heq]
  · obtain ⟨htripped, hdeadline, htime⟩ := h.trip_cases reason stamp replaceReason
    rw [heq]
    refine ⟨fun _ ↦ ⟨?_, hdeadline⟩, fun hclosed ↦ absurd hclosed (by simp [htripped])⟩
    rw [htime]
    split
    next hopen => exact (h.opened hopen).1
    · rfl
  · obtain ⟨-, hclosed, htime⟩ := Circuit.resetWithEvidence_eq_ok hreset
    exact ⟨fun hopen ↦ absurd hopen (by simp [hclosed]), fun _ ↦ htime⟩

theorem dated_runs (acts : List (Act F)) :
    (runs (System.step H maxStorageBytes) .start acts).circuit.Dated :=
  runs_induction (P := fun s : System F ↦ s.circuit.Dated)
    (fun _ a h ↦ dated_step H maxStorageBytes h a) ⟨fun h ↦ (by cases h), fun _ ↦ rfl⟩ acts

/-- No time comes to the circuit but that of a trip. -/
theorem trippedAt_ne_step (h : s.circuit.Dated) (hne : s.circuit.trippedAt ≠ some T) {a : Act F}
    (ha : a.stamp? ≠ some T) : (s.step H maxStorageBytes a).circuit.trippedAt ≠ some T := by
  rcases s.circuit_step H maxStorageBytes a with heq | ⟨reason, stamp, replaceReason, hstamp, heq⟩ |
    ⟨-, request, resetAt, hreset⟩
  · rwa [heq]
  · rw [heq, (h.trip_cases reason stamp replaceReason).2.2]
    split
    · exact hne
    · exact hstamp ▸ ha
  · rw [(Circuit.resetWithEvidence_eq_ok hreset).2.2]
    nofun

/-- **An open circuit keeps its time until it is reset**, whatever trips it again. -/
theorem open_step (h : s.circuit.Dated) (hopen : s.circuit.tripped = true) {a : Act F}
    (ha : a.isReset = false) : (s.step H maxStorageBytes a).circuit.tripped = true ∧
      (s.step H maxStorageBytes a).circuit.trippedAt = s.circuit.trippedAt := by
  rcases s.circuit_step H maxStorageBytes a with heq | ⟨reason, stamp, replaceReason, -, heq⟩ |
    ⟨hreset, -⟩
  · rw [heq]
    exact ⟨hopen, rfl⟩
  · obtain ⟨htripped, -, htime⟩ := h.trip_cases reason stamp replaceReason
    rw [if_pos hopen] at htime
    rw [heq]
    exact ⟨htripped, htime⟩
  · rw [ha] at hreset
    cases hreset

/-! ## The lock of the spool -/

/-- Who has found the spool drained holds its lock, and it is drained. -/
def Guarded (s : System F) : Prop :=
  ∀ p request, s.procs p = .drained request → s.lockHolder = some p ∧
    pendingBatches H s.spool = .ok 0

variable {H}

omit [PyFloatNames F] in
theorem System.drained_of_goto {p q : Nat} {phase : Phase F} {request : Circuit.ResetRequest}
    (hphase : ∀ request, phase ≠ .drained request)
    (hq : (s.goto p phase).procs q = .drained request) : q ≠ p ∧ s.procs q = .drained request := by
  change Function.update s.procs p phase q = _ at hq
  by_cases hqp : q = p
  · rw [hqp, Function.update_self] at hq
    exact absurd hq (hphase request)
  · rw [Function.update_of_ne hqp] at hq
    exact ⟨hqp, hq⟩

theorem Guarded.goto (h : Guarded H s) (p : Nat) {phase : Phase F}
    (hphase : ∀ request, phase ≠ .drained request) : Guarded H (s.goto p phase) :=
  fun q request hq ↦ h q request (System.drained_of_goto hphase hq).2

/-- While nobody holds the lock, the files may change. -/
theorem Guarded.of_free (h : Guarded H s) (hfree : s.lockHolder = none) {s' : System F}
    (hprocs : s'.procs = s.procs) : Guarded H s' := by
  intro q request hq
  have hheld := (h q request (hprocs ▸ hq)).1
  rw [hfree] at hheld
  cases hheld

/-- A process that gives up the lock is not one of the others. -/
theorem Guarded.unlock (h : Guarded H s) (p : Nat) : Guarded H ((s.unlock p).goto p .idle) := by
  intro q request hq
  obtain ⟨hqp, hdrained⟩ := System.drained_of_goto (by simp) hq
  obtain ⟨hheld, hpending⟩ := h q request hdrained
  refine ⟨?_, hpending⟩
  rw [System.goto, System.unlock, hheld, if_neg (by simpa using hqp)]

theorem Guarded.step (h : Guarded H s) (a : Act F) : Guarded H (s.step H maxStorageBytes a) := by
  cases a with
  | trip => exact h
  | tripPrimary p =>
    rw [System.step, System.tripPrimary]
    split
    · exact Guarded.goto (s := { s with circuit := _ }) h p (by simp)
    · exact h
  | tripLost p =>
    rw [System.step, System.tripLost]
    split
    · exact Guarded.goto (s := { s with circuit := _ }) h p (by simp)
    · exact h
  | finishReset p =>
    rw [System.step, System.finishReset]
    split
    · exact Guarded.unlock (s := { s with circuit := _ }) h p
    · exact h
  | call p =>
    rw [System.step, System.call.eq_def]
    split
    · split
      · exact h
      · exact Guarded.goto (s := { s with outbox := _ }) h p (by simp)
      · exact h.goto p (by simp)
    · exact h
  | spool p =>
    rw [System.step, System.spoolBatch]
    split
    next payloads _ hfree =>
      split
      · refine Guarded.goto ?_ p (by simp)
        exact h.of_free hfree rfl
      · refine Guarded.goto ?_ p (by simp)
        exact h.of_free hfree rfl
    · exact h
  | replay =>
    rw [System.step, System.replay]
    split
    next hfree => exact h.of_free hfree rfl
    · exact h
  | beginReset p =>
    rw [System.step, System.beginReset]
    split
    · split
      · exact h.goto p (by simp)
      · exact h
    · exact h
  | lockSpool p =>
    rw [System.step, System.lockSpool]
    split
    next request storageBytes _ hfree =>
      split
      next hdrained =>
        intro q request' hq
        by_cases hqp : q = p
        · rw [hqp]
          exact ⟨rfl, hdrained.1⟩
        · have hheld := (h q request' ((Function.update_of_ne hqp _ s.procs).symm.trans hq)).1
          rw [hfree] at hheld
          cases hheld
      · exact h.goto p (by simp)
    · exact h
  | crash p => exact h.unlock p

omit [PyFloatNames F] in
theorem System.resets_eq_some {q : Nat} {resetAt : Str} {request : Circuit.ResetRequest}
    {c : Circuit}
    (h : s.resets q resetAt = some (request, c)) :
    s.procs q = .drained request ∧ s.circuit.trippedAt = some request.expectedTrippedAt := by
  rw [System.resets] at h
  split at h
  next request' hphase =>
    obtain ⟨c', hc', heq⟩ := Option.map_eq_some_iff.1 h
    cases heq
    exact ⟨hphase, (Circuit.resetWithEvidence_eq_ok (toOption_eq_some_iff.1 hc')).1⟩
  · cases h

/-- **Which incidents a reset clears.**  Take the state before a call that loses its batch trips the
circuit.  If the circuit is closed then, or open with another time than the operator has read, and
no trip from then on is at that time, no later reset with it succeeds.  If the circuit is open at
that time, it stays so through every later loss, until the circuit is reset, and whoever has found
the spool drained resets it with that time.  Whenever a reset succeeds the spool is drained. -/
theorem reset_clears_seen_incident (H : Host F) (maxStorageBytes : Nat) :
    (∀ (before during after : List (Act F)) (p : Nat) (reason : Str) (stamp : Stamp) (T : Str),
      let s := runs (System.step H maxStorageBytes) .start before
      let acts := during ++ .tripLost p reason stamp :: after
      (s.circuit.tripped = true → s.circuit.trippedAt ≠ some T) → (∀ a ∈ acts, a.stamp? ≠ some T) →
      ∀ q resetAt request c,
        (runs (System.step H maxStorageBytes) s acts).resets q resetAt = some (request, c) →
        request.expectedTrippedAt ≠ T) ∧
    (∀ (before acts : List (Act F)) (T : Str),
      let s := runs (System.step H maxStorageBytes) .start before
      let s' := runs (System.step H maxStorageBytes) s acts
      s.circuit.tripped = true → s.circuit.trippedAt = some T → (∀ a ∈ acts, a.isReset = false) →
      ∀ q resetAt request, s'.procs q = .drained request → request.Supported →
        request.expectedTrippedAt = T → (s'.resets q resetAt).isSome = true) ∧
    ∀ (acts : List (Act F)) (q : Nat) (resetAt : Str),
      let s := runs (System.step H maxStorageBytes) .start acts
      (s.resets q resetAt).isSome = true → pendingBatches H s.spool = .ok 0 := by
  refine ⟨?_, ?_, ?_⟩
  · intro before during after p reason stamp T s acts hbefore hacts q resetAt request c h hT
    have hdated : s.circuit.Dated := dated_runs H maxStorageBytes before
    have hne : s.circuit.trippedAt ≠ some T := by
      cases htripped : s.circuit.tripped with
      | true => exact hbefore htripped
      | false => simp [hdated.closed htripped]
    have hlast := runs_of_meets (C := fun _ (a : Act F) ↦ a.stamp? ≠ some T)
      (P := fun s : System F ↦ s.circuit.Dated ∧ s.circuit.trippedAt ≠ some T)
      (fun s a ha hs ↦ ⟨dated_step H maxStorageBytes hs.1 a,
        trippedAt_ne_step H maxStorageBytes hs.1 hs.2 ha⟩)
      (meets_of_forall_mem fun _ ↦ hacts) ⟨hdated, hne⟩
    exact hlast.2 ((System.resets_eq_some h).2.trans (by rw [hT]))
  · intro before acts T s s' htripped htime hacts q resetAt request hdrained hrequest hT
    have hlast := runs_of_meets (C := fun _ (a : Act F) ↦ a.isReset = false)
      (P := fun s : System F ↦ s.circuit.Dated ∧ s.circuit.tripped = true ∧
        s.circuit.trippedAt = some T)
      (fun s a ha hs ↦ by
        obtain ⟨hopen, hsame⟩ := open_step H maxStorageBytes hs.1 hs.2.1 ha
        exact ⟨dated_step H maxStorageBytes hs.1 a, hopen, hsame.trans hs.2.2⟩)
      (meets_of_forall_mem fun _ ↦ hacts) ⟨dated_runs H maxStorageBytes before, htripped, htime⟩
    obtain ⟨c, hc⟩ := Circuit.exists_resetWithEvidence resetAt hrequest hlast.2.1
      (by rw [hlast.2.2, hT])
    rw [System.resets, hdrained]
    exact Option.isSome_map.trans (by rw [toOption_eq_some_iff.2 hc]; rfl)
  · intro acts q resetAt s h
    obtain ⟨⟨request, c⟩, hreset⟩ := Option.isSome_iff_exists.1 h
    have hguarded : Guarded H s := runs_induction (P := Guarded H)
      (fun _ a h ↦ h.step maxStorageBytes a) (fun _ _ hq ↦ by cases hq) acts
    exact (hguarded q request (System.resets_eq_some hreset).1).2

end Steps

/-- Does the call of the process return `lost` next? -/
def System.loses (s : System F) (p : Nat) : Bool :=
  match s.procs p with
  | .spoolFailed _ => true
  | _ => false

/-- An operator who has read the time of the sample. -/
def sampleReset : List (Act TokenFloat) :=
  [.beginReset 1 ⟨sampleStamp.trippedAt, .lit "operator", .lit "evidence", 0⟩ ⟨true, 0, 0, 0⟩,
    .lockSpool 1]

/-- The circuit is closed when the outbox fails, and the operator has read another time. -/
theorem reset_clears_seen_incident_sample :
    let s := runs (System.step sampleHost 1) .start [.call 0 [samplePayload] .fails 0]
    let acts := [.tripPrimary 0 [] sampleStamp, .spool 0 sampleId .opening] ++
      .tripLost 0 [] sampleStamp :: sampleReset
    s.circuit.tripped = false ∧
      (runs (System.step sampleHost 1) s acts).circuit.trippedAt = some (.lit "T") ∧
      ∀ q resetAt request c,
        (runs (System.step sampleHost 1) s acts).resets q resetAt = some (request, c) →
        request.expectedTrippedAt ≠ .lit "S" :=
  ⟨by decide +kernel, by decide +kernel, (reset_clears_seen_incident sampleHost 1).1 _ _ sampleReset
    0 []
    sampleStamp _ (by decide +kernel) (by decide +kernel)⟩

/-- **An incident is cleared that the operator did not see.**  The circuit was tripped by a check
and the operator has read its time; then a call loses its batch, which leaves the time as it is. -/
theorem lost_incident_is_reset :
    let seen := runs (System.step sampleHost 1) .start [.trip [] sampleStamp]
    let losing := runs (System.step sampleHost 1) seen (sampleCall samplePayload .opening)
    let s :=
      runs (System.step sampleHost 1) losing (.tripLost 0 [] ⟨.lit "L", .lit "V"⟩ :: sampleReset)
    seen.circuit.trippedAt = some sampleStamp.trippedAt ∧ losing.loses 0 = true ∧
      (s.resets 1 (.lit "now")).isSome = true := by
  decide +kernel

end AgentGateway.UsageResilience
