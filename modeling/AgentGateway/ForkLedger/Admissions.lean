import AgentGateway.ForkLedger.Ledger

/-!
# Admissions along every run

What an operation may do to an admission is `AdmissionMove`.  The instance that owns the row starts,
settles or abandons it; a recovery that treats the owner as dead takes the row over if the fork is
parked, and abandons it otherwise.  A row that is settled or abandoned never changes again, and no
row is ever deleted, so that a fork is reserved once (`fork_admissions_accounted`).

The one delicate step is the recovery, which takes over and abandons rows by two statements in
sequence: the rows it has taken over belong to an instance that is alive, so the second statement
does not see them (`reconcile_moves`).
-/

namespace AgentGateway.ForkLedger

open Py List

/-- What an operation may do to an admission. -/
inductive AdmissionMove (a : Admission) : Op → Admission → Prop
  | start (nowNs : Int) (h : a.status.isReserved = true) :
    AdmissionMove a (.start a.processInstanceId a.forkId nowNs)
    (a.withStatus (.started nowNs) nowNs)
  | settle (usd : Option ℚ) (nowNs : Int) (actual : Nat)
    (hactual : usdToMicros "actual fork cost" true usd = .ok actual)
    (h : a.status.inFlight = true) :
    AdmissionMove a (.settle a.processInstanceId a.forkId usd nowNs)
      (a.withStatus (.settled a.status.startedAt? actual nowNs) nowNs)
  | abandon (nowNs : Int) (h : a.status.inFlight = true) :
    AdmissionMove a (.abandon a.processInstanceId a.forkId nowNs)
      (a.withStatus (a.abandonedAt nowNs) nowNs)
  | recover (p : Str) (recovery : Recovery) (journal : Str → Option Bool) (nowNs : Int)
    (hdead : recovery.isDead a.processInstanceId = true) (h : a.status.inFlight = true)
    (hparked : a.status.isStarted = true → journal a.forkId ≠ some true) :
    AdmissionMove a (.reconcile p recovery journal nowNs) (a.withStatus (a.abandonedAt nowNs) nowNs)
  | adopt (p : Str) (recovery : Recovery) (journal : Str → Option Bool) (nowNs : Int)
    (hdead : recovery.isDead a.processInstanceId = true) (h : a.status.isStarted = true)
    (hparked : journal a.forkId = some true) :
    AdmissionMove a (.reconcile p recovery journal nowNs)
      { a with processInstanceId := p, updatedAtNs := nowNs }

/-- What an admission is when it first appears. -/
def NewAdmission (op : Op) (a : Admission) : Prop :=
  ∃ usd nowNs, op = .reserve a.processInstanceId a.forkId a.owner usd nowNs ∧ a.status = .reserved

/-! ## One operation -/

theorem inFlight_of_isStarted {s : AdmissionStatus} (h : s.isStarted = true) :
    s.inFlight = true := by
  rw [AdmissionStatus.inFlight, h, Bool.or_true]

variable {p : Str} {nowNs : Int} {db db' : Db} {op : Op}

/-- An `UPDATE` of a row by its owner. -/
theorem updateOwned_evolves {forkId : Str} {admits : AdmissionStatus → Bool}
    {set : Admission → AdmissionStatus} {hit : Bool}
    (h : updateOwned db p forkId admits set nowNs = .ok (hit, db'))
    (hmove : ∀ a : Admission, a.forkId = forkId → a.processInstanceId = p → admits a.status = true →
      AdmissionMove a op (a.withStatus (set a) nowNs)) :
    db.admissions.Evolves (fun a a' ↦ a' = a ∨ AdmissionMove a op a') (NewAdmission op)
      db'.admissions := by
  obtain rfl := updateOwned_eq_ok h
  dsimp only
  refine Table.evolves_update (fun _ ↦ .inl rfl) fun a _ ha ↦ .inr ?_
  rw [Bool.and_eq_true, Bool.and_eq_true, decide_eq_true_eq, decide_eq_true_eq] at ha
  exact hmove a ha.1.1 ha.2 ha.1.2

/-- The journals were read of all forks, and those that are parked are known. -/
theorem mem_parkedForks {journal : Str → Option Bool} {rows : List Admission} {forks : List Str}
    (h : parkedForks journal rows = .ok forks) (forkId : Str) :
    forkId ∈ forks ↔ ∃ a ∈ rows, a.forkId = forkId ∧ journal forkId = some true := by
  induction rows generalizing forks with
  | nil =>
    cases h
    simp
  | cons a rest ih =>
    simp only [parkedForks, bind_eq_ok_iff, requireSome_eq_ok_iff] at h
    obtain ⟨parked, hparked, forks', hrest, h⟩ := h
    cases h
    have hcons : (forkId ∈ if parked then a.forkId :: forks' else forks') ↔
        (a.forkId = forkId ∧ parked = true) ∨ forkId ∈ forks' := by
      cases parked with
      | false => simp
      | true => simp [eq_comm]
    rw [hcons, ih hrest]
    constructor
    · rintro (⟨rfl, rfl⟩ | ⟨a', ha', hid⟩)
      · exact ⟨a, mem_cons_self, rfl, hparked⟩
      · exact ⟨a', mem_cons_of_mem _ ha', hid⟩
    · rintro ⟨a', ha', rfl, hjournal⟩
      rcases mem_cons.1 ha' with rfl | ha'
      · exact .inl ⟨rfl, Option.some.inj (hparked.symm.trans hjournal)⟩
      · exact .inr ⟨a', ha', rfl, hjournal⟩

/-- The instance that recovers is alive. -/
theorem not_isDead_of_check {recovery : Recovery} (h : recovery.check p = .ok ()) :
    recovery.isDead p = false := by
  cases recovery with
  | outside =>
    simp only [Recovery.check, bind_eq_ok_iff, require_eq_ok_iff] at h
    obtain ⟨-, -, hmem⟩ := h
    simpa [Recovery.isDead] using hmem
  | death =>
    simp only [Recovery.check, bind_eq_ok_iff, require_eq_ok_iff] at h
    obtain ⟨-, -, hne⟩ := h
    simpa [Recovery.isDead] using hne.symm

variable {a : Admission}

/-- **What a recovery does to an admission**: nothing, if the owner is not dead or the row is
settled; it takes the row over, if the fork is parked; and it abandons it otherwise. -/
theorem reconcile_moves {recovery : Recovery} {journal : Str → Option Bool} {counts : Nat × Nat}
    (h : reconcileStartup db p recovery journal nowNs = .ok (counts, db'))
    (ha : a ∈ db.admissions.rows) :
    (recovery.isDead a.processInstanceId = true → a.status.isStarted = true →
      journal a.forkId = some true →
      { a with processInstanceId := p, updatedAtNs := nowNs } ∈ db'.admissions.rows) ∧
    (recovery.isDead a.processInstanceId = true → a.status.inFlight = true →
      (a.status.isStarted = true → journal a.forkId ≠ some true) →
      a.withStatus (a.abandonedAt nowNs) nowNs ∈ db'.admissions.rows) ∧
    (recovery.isDead a.processInstanceId = false ∨ a.status.inFlight = false →
      a ∈ db'.admissions.rows) := by
  obtain ⟨hcheck, forks, hforks, rfl⟩ := reconcileStartup_eq_ok h
  have halive := not_isDead_of_check hcheck
  -- a fork is taken over exactly if its own row is dead, started and parked
  have hmem : a.forkId ∈ forks ↔ (a.status.isStarted = true ∧
      recovery.isDead a.processInstanceId = true) ∧ journal a.forkId = some true := by
    rw [mem_parkedForks hforks]
    constructor
    · rintro ⟨a', ha', hid, hjournal⟩
      rw [mem_filter, Bool.and_eq_true] at ha'
      obtain rfl : a' = a := Table.eq_of_key_eq ha'.1 ha hid
      exact ⟨ha'.2, hjournal⟩
    · rintro ⟨hdead, hjournal⟩
      exact ⟨a, mem_filter.2 ⟨ha, Bool.and_eq_true _ _ ▸ hdead⟩, rfl, hjournal⟩
  have hrow : ∀ x, (∃ a₁, (if decide (a.forkId ∈ forks) && a.status.isStarted then
        { a with processInstanceId := p, updatedAtNs := nowNs } else a) = a₁ ∧
      (if a₁.status.inFlight && recovery.isDead a₁.processInstanceId then
        a₁.withStatus (a₁.abandonedAt nowNs) nowNs else a₁) = x) →
      x ∈ ((db.admissions.update (fun a ↦ decide (a.forkId ∈ forks) && a.status.isStarted)
        (fun a ↦ { a with processInstanceId := p, updatedAtNs := nowNs }) fun _ ↦ rfl).update
          (fun a ↦ a.status.inFlight && recovery.isDead a.processInstanceId)
          (fun a ↦ a.withStatus (a.abandonedAt nowNs) nowNs) fun _ ↦ rfl).rows := by
    rintro x ⟨a₁, hfirst, hsecond⟩
    exact Table.mem_update.2 ⟨a₁, Table.mem_update.2 ⟨a, ha, hfirst⟩, hsecond⟩
  refine ⟨fun hdead hstarted hjournal ↦ ?_, fun hdead hflight hnot ↦ ?_, fun hsafe ↦ ?_⟩
  · refine hrow _ ⟨_, if_pos ?_, if_neg ?_⟩
    · simp [hmem, hdead, hstarted, hjournal]
    · simp [halive]
  · have hout : ¬ ((decide (a.forkId ∈ forks) && a.status.isStarted) = true) := by
      rw [Bool.and_eq_true, decide_eq_true_eq, hmem]
      rintro ⟨⟨-, hjournal⟩, hstarted⟩
      exact hnot hstarted hjournal
    exact hrow _ ⟨a, if_neg hout, if_pos (by simp [hdead, hflight])⟩
  · have hout : ¬ ((decide (a.forkId ∈ forks) && a.status.isStarted) = true) := by
      rw [Bool.and_eq_true, decide_eq_true_eq, hmem]
      rintro ⟨⟨⟨hstarted, hdead⟩, -⟩, -⟩
      rcases hsafe with hsafe | hsafe
      · rw [hsafe] at hdead
        cases hdead
      · rw [inFlight_of_isStarted hstarted] at hsafe
        cases hsafe
    refine hrow _ ⟨a, if_neg hout, if_neg ?_⟩
    rcases hsafe with hsafe | hsafe <;> simp [hsafe]

/-- **Every operation leaves an admission as it is, or moves it.** -/
theorem Db.step_admissions (db : Db) (op : Op) :
    db.admissions.Evolves (fun a a' ↦ a' = a ∨ AdmissionMove a op a') (NewAdmission op)
      (db.step op).admissions := by
  rcases Db.step_cases db op with hsame | hbody
  · rw [hsame]
    exact .refl (fun _ ↦ .inl rfl) _
  have same : ∀ {db' : Db}, db'.admissions = db.admissions →
      db.admissions.Evolves (fun a a' ↦ a' = a ∨ AdmissionMove a op a') (NewAdmission op)
        db'.admissions := fun hsame ↦ hsame ▸ .refl (fun _ ↦ .inl rfl) _
  generalize db.step op = db' at hbody
  cases op with
  | reserve p forkId owner usd nowNs =>
    obtain ⟨⟨reply, _⟩, h, rfl⟩ := map_eq_ok_iff.1 hbody
    obtain ⟨day, reserved, admissions, -, hins, -, rfl⟩ := reserveAdmission_eq_ok h
    exact Table.evolves_insert? (fun _ ↦ .inl rfl) hins ⟨usd, nowNs, rfl, rfl⟩
  | start p forkId nowNs =>
    obtain ⟨⟨hit, _⟩, h, rfl⟩ := map_eq_ok_iff.1 hbody
    simp only [markAdmissionStarted, bind_eq_ok_iff] at h
    obtain ⟨-, -, h⟩ := h
    exact updateOwned_evolves h fun a hid hp ha ↦ hid ▸ hp ▸ .start nowNs ha
  | settle p forkId usd nowNs =>
    obtain ⟨⟨hit, _⟩, h, rfl⟩ := map_eq_ok_iff.1 hbody
    simp only [settleAdmission, bind_eq_ok_iff] at h
    obtain ⟨-, -, actual, hactual, h⟩ := h
    exact updateOwned_evolves h fun a hid hp ha ↦ hid ▸ hp ▸ .settle usd nowNs actual hactual ha
  | abandon p forkId nowNs =>
    obtain ⟨⟨hit, _⟩, h, rfl⟩ := map_eq_ok_iff.1 hbody
    simp only [abandonAdmission, bind_eq_ok_iff] at h
    obtain ⟨-, -, h⟩ := h
    exact updateOwned_evolves h fun a hid hp ha ↦ hid ▸ hp ▸ .abandon nowNs ha
  | reconcile p recovery journal nowNs =>
    obtain ⟨⟨counts, _⟩, h, rfl⟩ := map_eq_ok_iff.1 hbody
    refine ⟨fun a ha ↦ ?_, fun a ha hnew ↦ ?_⟩
    · obtain ⟨hadopt, hrecover, hkeep⟩ := reconcile_moves h ha
      by_cases hsafe : recovery.isDead a.processInstanceId = false ∨ a.status.inFlight = false
      · exact ⟨a, hkeep hsafe, rfl, .inl rfl⟩
      · rw [not_or, Bool.not_eq_false, Bool.not_eq_false] at hsafe
        by_cases hparked : a.status.isStarted = true ∧ journal a.forkId = some true
        · exact ⟨_, hadopt hsafe.1 hparked.1 hparked.2, rfl,
            .inr (.adopt p recovery journal nowNs hsafe.1 hparked.1 hparked.2)⟩
        · have hnot : a.status.isStarted = true → journal a.forkId ≠ some true :=
            fun hs hj ↦ hparked ⟨hs, hj⟩
          exact ⟨_, hrecover hsafe.1 hsafe.2 hnot, rfl,
            .inr (.recover p recovery journal nowNs hsafe.1 hsafe.2 hnot)⟩
    · obtain ⟨-, forks, -, rfl⟩ := reconcileStartup_eq_ok h
      dsimp only at ha
      obtain ⟨b, hb, hid⟩ := Table.exists_key_of_mem_update ha
      obtain ⟨c, hc, hid'⟩ := Table.exists_key_of_mem_update hb
      exact absurd (hid'.trans hid) (hnew c hc)
  | write =>
    obtain ⟨⟨hit, _⟩, h, rfl⟩ := map_eq_ok_iff.1 hbody
    obtain ⟨receipts, rfl, -⟩ := writeReceipt_eq_ok h
    exact same rfl
  | claim =>
    obtain ⟨⟨claims, _⟩, h, rfl⟩ := map_eq_ok_iff.1 hbody
    obtain ⟨receipts, -, rfl⟩ := claimPendingReceipts_eq_ok h
    exact same rfl
  | ack forkId claimToken nowNs | revert forkId claimToken nowNs =>
    obtain ⟨⟨hit, _⟩, h, rfl⟩ := map_eq_ok_iff.1 hbody
    obtain ⟨-, rfl⟩ := finishReceiptClaim_eq_ok h
    exact same rfl

/-! ## Runs -/

/-- What an admission was and what it has become: its account stays, and once it is closed so does
everything. -/
structure Accounted (a a' : Admission) : Prop where
  owner : a'.owner = a.owner
  date : a'.admissionDate = a.admissionDate
  reservation : a'.maxReservedMicrousd = a.maxReservedMicrousd
  final : a.status.inFlight = false → a' = a

theorem Accounted.refl (a : Admission) : Accounted a a := ⟨rfl, rfl, rfl, fun _ ↦ rfl⟩

variable {a' : Admission}

theorem Accounted.trans {a'' : Admission} (h : Accounted a a') (h' : Accounted a' a'') :
    Accounted a a'' where
  owner := h'.owner.trans h.owner
  date := h'.date.trans h.date
  reservation := h'.reservation.trans h.reservation
  final hfinal := by
    obtain rfl := h.final hfinal
    exact h'.final hfinal

theorem AdmissionMove.inFlight (h : AdmissionMove a op a') :
    a.status.inFlight = true := by
  cases h with
  | start nowNs h => rw [AdmissionStatus.inFlight, h, Bool.true_or]
  | settle usd nowNs actual hactual h => exact h
  | abandon nowNs h => exact h
  | recover p recovery journal nowNs hdead h => exact h
  | adopt p recovery journal nowNs hdead h => exact inFlight_of_isStarted h

theorem AdmissionMove.accounted (h : AdmissionMove a op a') :
    Accounted a a' := by
  have hflight := h.inFlight
  have hfinal : a.status.inFlight = false → a' = a := fun hf ↦ by rw [hf] at hflight; cases hflight
  cases h <;> exact ⟨rfl, rfl, rfl, hfinal⟩

theorem admissions_accounted (db : Db) (ops : List Op) :
    db.admissions.Keeps (fun _ ↦ True) Accounted (db.after ops).admissions := by
  refine rel_runs_of_meets (C := fun _ _ ↦ True)
    (R := fun db db' : Db ↦ db.admissions.Keeps (fun _ ↦ True) Accounted db'.admissions)
    (fun db ↦ Table.Keeps.refl Accounted.refl _)
    (fun _ _ _ h h' ↦ Table.Keeps.trans (fun _ _ _ ↦ Accounted.trans) h h') (fun db op _ ↦ ?_)
    (meets_of_forall (fun _ _ ↦ trivial) db ops)
  intro a ha _
  obtain ⟨a', ha', hid, rfl | hmove⟩ := (Db.step_admissions db op).keeps a ha
  · exact ⟨a', ha', hid, trivial, .refl a'⟩
  · exact ⟨a', ha', hid, trivial, hmove.accounted⟩

/-- What a reservation replies, and what it has written. -/
structure Reserved (db : Db) (p forkId owner : Str) (usd : Option ℚ) (reply : AdmissionReservation)
    (db' : Db) : Prop where
  isNew : ∀ a ∈ db.admissions.rows, a.forkId ≠ forkId
  mem : reply.record ∈ db'.admissions.rows
  fork : reply.record.forkId = forkId
  owned : reply.record.owner = owner ∧ reply.record.processInstanceId = p
  status : reply.record.status = .reserved
  reservation : usdToMicros "fork reservation estimate" false usd =
    .ok reply.record.maxReservedMicrousd
  dayInvocations : reply.dayInvocations =
    (db'.admissionsOf owner reply.record.admissionDate).length
  dayCharged : reply.dayChargedMicrousd =
    ((db'.admissionsOf owner reply.record.admissionDate).map Admission.charge).sum

theorem reserved_of_ok {forkId owner : Str} {usd : Option ℚ} {reply : AdmissionReservation}
    (h : reserveAdmission db p forkId owner usd nowNs = .ok (reply, db')) :
    Reserved db p forkId owner usd reply db' := by
  obtain ⟨day, reserved, admissions, hreserved, hins, rfl, rfl⟩ := reserveAdmission_eq_ok h
  obtain ⟨hnew, hrows⟩ := Table.insert?_eq_some_iff.1 hins
  have hday : (⟨nowNs, db.receipts, admissions⟩ : Db).admissionsOf owner day =
      db.admissionsOf owner day ++
        [⟨forkId, owner, day, reserved, .reserved, p, nowNs, nowNs⟩] := by
    simp [Db.admissionsOf, hrows]
  refine ⟨hnew, ?_, rfl, ⟨rfl, rfl⟩, rfl, hreserved, ?_, ?_⟩
  · dsimp only
    rw [hrows]
    exact mem_append_right _ mem_cons_self
  · simp [hday]
  · simp [hday, Admission.charge]

/-- **Every paid fork is accounted for once**, whatever the instances do and in whichever order.

A reservation is of a fork that has none, its totals are those of the owner's day, and no later one
of the fork succeeds.  Every operation leaves an admission as it is or moves it (`AdmissionMove`):
the instance that owns it, or a recovery that treats the owner as dead.  Along every run it keeps
its owner, its day and its reservation, and a closed one does not change again.  A recovery leaves
alone what belongs to an instance it does not treat as dead, and takes a parked fork over. -/
theorem fork_admissions_accounted (ops : List Op) :
    let db := Db.empty.after ops
    (∀ p forkId owner usd nowNs reply db',
      reserveAdmission db p forkId owner usd nowNs = .ok (reply, db') →
      Reserved db p forkId owner usd reply db' ∧
      ∀ more p' owner' usd' nowNs' reply' db'',
        reserveAdmission (db'.after more) p' forkId owner' usd' nowNs' ≠ .ok (reply', db'')) ∧
    (∀ op, db.admissions.Evolves (fun a a' ↦ a' = a ∨ AdmissionMove a op a') (NewAdmission op)
      (db.step op).admissions) ∧
    (∀ more, db.admissions.Keeps (fun _ ↦ True) Accounted (db.after more).admissions) ∧
    ∀ p recovery journal nowNs counts db',
      reconcileStartup db p recovery journal nowNs = .ok (counts, db') →
      ∀ a ∈ db.admissions.rows,
        (recovery.isDead a.processInstanceId = false → a ∈ db'.admissions.rows) ∧
        (recovery.isDead a.processInstanceId = true → a.status.isStarted = true →
          journal a.forkId = some true →
          { a with processInstanceId := p, updatedAtNs := nowNs } ∈ db'.admissions.rows) := by
  intro db
  refine ⟨fun p forkId owner usd nowNs reply db' h ↦ ?_, Db.step_admissions db,
    admissions_accounted db, fun p recovery journal nowNs counts db' h a ha ↦ ?_⟩
  · have hres := reserved_of_ok h
    refine ⟨hres, fun more p' owner' usd' nowNs' reply' db'' h' ↦ ?_⟩
    obtain ⟨b, hb, hid, -⟩ := admissions_accounted _ more _ hres.mem trivial
    exact (reserved_of_ok h').isNew b hb (hid.trans hres.fork)
  · obtain ⟨hadopt, -, hkeep⟩ := reconcile_moves h ha
    exact ⟨fun hlive ↦ hkeep (.inl hlive), hadopt⟩

/-- An instance has started a fork. -/
def startedFork : List Op :=
  [.reserve (.lit "gateway-1") (.lit "fork") (.lit "owner") (some 2) 1,
    .start (.lit "gateway-1") (.lit "fork") 2]

/-- The instance dies while the fork is parked, and another takes it over; the owner's next fork of
the day is charged on top of it. -/
theorem fork_admissions_accounted_sample :
    let db := Db.empty.after startedFork
    (∃ a ∈ db.admissions.rows, ∃ counts db',
      reconcileStartup db (.lit "gateway-2") (.death (.lit "gateway-1")) (fun _ ↦ some true) 3 =
        .ok (counts, db') ∧
      { a with processInstanceId := .lit "gateway-2", updatedAtNs := 3 } ∈ db'.admissions.rows) ∧
    ∃ reply db', reserveAdmission db (.lit "gateway-2") (.lit "fork-2") (.lit "owner") (some 1) 4 =
        .ok (reply, db') ∧ reply.dayChargedMicrousd = 3000000 ∧
      Reserved db (.lit "gateway-2") (.lit "fork-2") (.lit "owner") (some 1) reply db' := by
  intro db
  obtain ⟨hreserve, -, -, hrecover⟩ := fork_admissions_accounted startedFork
  have hrow : db.admissions.rows.head?.any (fun a ↦ a.status.isStarted &&
      decide (a.processInstanceId = .lit "gateway-1") &&
      (reconcileStartup db (.lit "gateway-2") (.death (.lit "gateway-1")) (fun _ ↦ some true)
        3).toOption.any fun _ ↦ true) = true := by
    decide +kernel
  have hreply : (reserveAdmission db (.lit "gateway-2") (.lit "fork-2") (.lit "owner") (some 1)
      4).toOption.any (fun r ↦ decide (r.1.dayChargedMicrousd = 3000000)) = true := by
    decide +kernel
  obtain ⟨a, ha, hrow⟩ := (Option.any_eq_true _ _).1 hrow
  rw [Bool.and_eq_true, Bool.and_eq_true, decide_eq_true_eq] at hrow
  obtain ⟨⟨hstarted, hp⟩, hok⟩ := hrow
  obtain ⟨⟨counts, db'⟩, hok, -⟩ := exists_ok_of_any hok
  obtain ⟨⟨reply, db''⟩, hreply, hcharged⟩ := exists_ok_of_any hreply
  have hmem := mem_of_head? ha
  refine ⟨⟨a, hmem, counts, db', hok, ?_⟩, reply, db'', hreply, of_decide_eq_true hcharged, ?_⟩
  · exact (hrecover _ _ _ _ _ _ hok a hmem).2 (decide_eq_true hp) hstarted rfl
  · exact (hreserve _ _ _ _ _ _ _ hreply).1

end AgentGateway.ForkLedger
