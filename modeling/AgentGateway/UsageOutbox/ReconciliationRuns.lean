import AgentGateway.UsageOutbox.Reconciliation
import AgentGateway.UsageOutbox.Runs

/-!
# Reconciliation reports ship in order

Every call does one of two things (`Advance`): it adds the next revision of a request, with a
shipment that has not been started, or it moves shipments.  A move leaves a shipment that has ended
alone, and starts one only if every earlier revision has been accepted (`Moved`).  So of a started
shipment every earlier revision has been accepted (`Inv`), and the accepted revisions of a request
are the first few, the one that follows them is the only one that can be in flight, and if that one
is dead the request has come to its end.
-/

namespace AgentGateway.UsageOutbox.Reconciliation

open Py List

/-- The state of sending a report on. -/
def Reconciliations.stateOf (db : Reconciliations) (r : Report) : Option ShipmentState :=
  (db.shipments.find? r.reportId).map Shipment.state

/-- The reports of a request. -/
def Reconciliations.chain (db : Reconciliations) (key : ReportKey) : List Report :=
  db.reports.chain key

/-- Every earlier revision has been accepted. -/
def Reconciliations.Settled (db : Reconciliations) (r : Report) : Prop :=
  ∀ r' ∈ db.reports.rows, r'.key = r.key → r'.revision < r.revision →
    ∀ s ∈ db.shipments.rows, s.reportId = r'.reportId → s.state = .accepted

variable {db : Reconciliations} {r : Report}

theorem unblocked_iff :
    db.unblocked r = true ↔ db.Settled r := by
  simp [Reconciliations.unblocked, Reconciliations.Settled, imp_iff_not_or]
  grind

/-- The shipment has been sent, or is being sent. -/
def Shipment.isStarted (s : Shipment) : Bool :=
  decide (s.state = .sending ∨ s.state = .accepted ∨ s.state = .dead)

/-! ## What a call does -/

/-- What becomes of a shipment, where the reports in `clear` may be sent. -/
structure Moved (clear : Str → Prop) (old new : Shipment) : Prop where
  same : new.reportId = old.reportId
  terminal : old.isTerminal = true → new = old
  started : new.isStarted = true → old.isStarted = true ∨ clear old.reportId

namespace Moved

variable {clear : Str → Prop} {s t u : Shipment}

theorem refl (s : Shipment) : Moved clear s s := ⟨rfl, fun _ ↦ rfl, .inl⟩

theorem trans (h : Moved clear s t) (h' : Moved clear t u) : Moved clear s u where
  same := h'.same.trans h.same
  terminal hs := by
    have hts := h.terminal hs
    rw [← hts]
    exact h'.terminal (hts ▸ hs)
  started hu := by
    rcases h'.started hu with ht | hc
    · exact h.started ht
    · exact .inr (h.same ▸ hc)

end Moved

/-- The shipments of a table have moved. -/
abbrev Moves (clear : Str → Prop) (t t' : Shipments) : Prop :=
  t.toTable.Evolves (Moved clear) (fun _ ↦ False) t'.toTable

/-- The reports that may be sent. -/
def Reconciliations.Clear (db : Reconciliations) (reportId : Str) : Prop :=
  ∀ r ∈ db.reports.rows, r.reportId = reportId → db.Settled r

/-- What a call does to the tables. -/
inductive Advance (db : Reconciliations) : Reconciliations → Prop
  | move (t : Shipments) (h : Moves db.Clear db.shipments t) : Advance db ⟨db.reports, t⟩
  | add (r : Report) (createdAt : Str) (enabled : Bool) (reports : Reports) (shipments : Shipments)
      (hreports : db.reports.insert? r = some reports)
      (hshipments : db.shipments.insert? (.new r.reportId createdAt enabled) = some shipments) :
      Advance db ⟨reports, shipments⟩

abbrev Advances : Reconciliations → Reconciliations → Prop := Relation.ReflTransGen Advance

variable {t : Shipments}

variable {t' : Shipments}

/-- An `UPDATE` that leaves shipments that have ended to the trigger. -/
theorem moves_update {clear : Str → Prop} {p : Shipment → Bool} {f : Shipment → Shipment}
    {hf : ∀ s, (f s).reportId = s.reportId} (h : t.update? p f hf = some t')
    (hstart : ∀ s ∈ t.rows, p s = true → (f s).isStarted = true →
      s.isStarted = true ∨ clear s.reportId) : Moves clear t t' := by
  refine Guarded.evolves_update? h (fun s _ _ ↦ .refl s) fun s hs hp hallow ↦ ?_
  refine ⟨hf s, fun hterm ↦ ?_, hstart s hs hp⟩
  rw [Shipment.allow, hterm] at hallow
  cases hallow

/-! ### Leasing -/

variable {token : Str → Str}

theorem moves_leaseShipments {clear : Str → Prop} {expiresAt : Str} {ids : List Str}
    (hclear : ∀ id ∈ ids, clear id) (h : leaseShipments token expiresAt ids t = some t') :
    Moves clear t t' := by
  induction ids generalizing t with
  | nil =>
    cases h
    exact Table.Evolves.refl Moved.refl _
  | cons id rest ih =>
    rw [leaseShipments, Option.bind_eq_some_iff] at h
    obtain ⟨t₁, hupd, hrest⟩ := h
    have hfirst : Moves clear t t₁ := by
      refine moves_update hupd fun s _ hp _ ↦ .inr ?_
      rw [Bool.and_eq_true, decide_eq_true_eq] at hp
      exact hp.1 ▸ hclear id mem_cons_self
    have hlater := ih (fun i hi ↦ hclear i (mem_cons_of_mem _ hi)) hrest
    exact hfirst.trans (fun _ _ _ h₁ h₂ ↦ h₁.trans h₂) (fun _ _ h _ ↦ h) hlater

/-- A candidate waits, and no earlier revision blocks it. -/
theorem of_mem_candidates {current : Str} {limit : Nat} {s : Shipment}
    (h : s ∈ db.candidates current limit) :
    s ∈ db.shipments.rows ∧ s.isWaiting = true ∧
      ∃ r ∈ db.reports.rows, r.reportId = s.reportId ∧ db.Settled r := by
  have hmem := (mem_insertionSort _).1 (mem_of_mem_take h)
  simp only [mem_filter, Bool.and_eq_true, any_eq_true, decide_eq_true_eq,
    Shipment.isReady, unblocked_iff] at hmem
  exact ⟨hmem.1, hmem.2.1.1, hmem.2.2⟩

theorem clear_of_settled (hr : r ∈ db.reports.rows) (h : db.Settled r) : db.Clear r.reportId := by
  intro r' hr' hid
  rwa [Table.eq_of_key_eq hr' hr hid]

variable {db' : Reconciliations}

/-- **What a lease does**: after the leases that ran out have been taken back, it takes reports that
wait and no earlier revision of which is left to be accepted. -/
theorem of_leaseReconciliationBatch {F : Type} {E : ReportEnv F} {limit leaseFor now : Int}
    {leased : List (Report × Shipment)}
    (h : leaseReconciliationBatch E db limit leaseFor now token = .ok (leased, db')) :
    ∃ mid, Advance db mid ∧ Advance mid db' ∧
      ∀ p ∈ leased, p.1 ∈ mid.reports.rows ∧ mid.Settled p.1 ∧
        ∃ s ∈ mid.shipments.rows, s.reportId = p.1.reportId ∧ s.isWaiting = true := by
  simp only [leaseReconciliationBatch, bind_eq_ok_iff, requireSome_eq_ok_iff] at h
  obtain ⟨-, -, current, -, expires, -, expired, hexp, t, hlease, h⟩ := h
  cases h
  refine ⟨⟨db.reports, expired⟩, .move _ (moves_update hexp fun s _ _ hs ↦ ?_), .move t ?_,
    fun p hp ↦ ?_⟩
  · simp [Shipment.isStarted, Shipment.expire] at hs
  · refine moves_leaseShipments (fun id hid ↦ ?_) hlease
    obtain ⟨s, hs, rfl⟩ := mem_map.1 hid
    obtain ⟨-, -, r, hr, hrid, hset⟩ := of_mem_candidates hs
    exact hrid ▸ clear_of_settled hr hset
  · simp only [Reconciliations.select, mem_flatMap, mem_map, mem_filter,
      decide_eq_true_eq, mem_insertionSort] at hp
    obtain ⟨s, ⟨-, c, hc, hcid⟩, r, ⟨hr, hrid⟩, rfl⟩ := hp
    obtain ⟨hc', hwait, r', hr', hrid', hset⟩ := of_mem_candidates hc
    obtain rfl : r' = r := Table.eq_of_key_eq hr' hr (hrid'.trans (hcid.trans hrid.symm))
    exact ⟨hr, hset, c, hc', hrid'.symm, hwait⟩

/-! ### The other calls -/

theorem advance_enable {n : Nat}
    (h : enableReconciliationShipping db = .ok (n, db')) : Advance db db' := by
  simp only [enableReconciliationShipping, bind_eq_ok_iff, requireSome_eq_ok_iff] at h
  obtain ⟨t, hupd, h⟩ := h
  cases h
  exact .move t (moves_update hupd fun s _ _ hs ↦ by simp [Shipment.isStarted] at hs)

theorem advance_finish {reportId token : Str} {o : ShipmentOutcome} {b : Bool}
    (h : finishReconciliationShipment db reportId token o = .ok (b, db')) :
    Advance db db' := by
  simp only [finishReconciliationShipment, bind_eq_ok_iff, requireSome_eq_ok_iff] at h
  obtain ⟨t, hupd, h⟩ := h
  cases h
  refine .move t (moves_update hupd fun s _ hp _ ↦ .inl ?_)
  simp only [Shipment.isSendingUnder, Bool.and_eq_true, decide_eq_true_eq] at hp
  simp [Shipment.isStarted, hp.1.2]

variable {enabled : Bool}

section

variable {F : Type} [PyFloat F] {E : ReportEnv F} {db : Reconciliations}

/-- **Recording**: the report is there already and nothing changes, or it is added. -/
theorem of_recordReconciliationReport {db' : Reconciliations} {report : Json F} {recordedAt : Int}
    {repeated : Bool} {r : Report}
    (h : recordReconciliationReport E db report recordedAt enabled = .ok ((r, repeated), db')) :
    ∃ p, prepareReport E report = .ok p ∧ r.key = p.key ∧ r.contentSha256 = p.contentSha256 ∧
      (repeated = true ∧ r ∈ db.chain p.key ∧ db' = db ∨
        repeated = false ∧ (∀ x ∈ db.chain p.key, x.contentSha256 ≠ p.contentSha256) ∧
          Advance db db' ∧ db'.chain p.key = db.chain p.key ++ [r]) := by
  simp only [recordReconciliationReport, bind_eq_ok_iff] at h
  obtain ⟨p, hp, recorded, -, h⟩ := h
  refine ⟨p, hp, ?_⟩
  split at h
  next existing hfind =>
    cases h
    have hmem := mem_of_find?_eq_some hfind
    have hsha : r.contentSha256 = p.contentSha256 := by simpa using find?_some hfind
    exact ⟨(Reports.mem_chain.1 hmem).2, hsha, .inl ⟨rfl, hmem, rfl⟩⟩
  next hnone =>
    simp only [addReport, bind_eq_ok_iff, requireSome_eq_ok_iff] at h
    obtain ⟨-, -, -, -, text, -, reports, hreports, shipments, hshipments, h⟩ := h
    cases h
    refine ⟨rfl, rfl, .inr ⟨rfl, fun x hx heq ↦ ?_, .add _ _ _ _ _ hreports hshipments, ?_⟩⟩
    · exact absurd (decide_eq_true heq) (find?_eq_none.1 hnone x hx)
    · change reportsOf reports.rows p.key = _
      rw [(Reports.of_insert? hreports).1, Reports.reportsOf_concat]
      exact if_pos rfl

/-- **A call that returns advances the tables.** -/
theorem advances_body {op : ReportOp F} {db' : Reconciliations} (h : op.body E db = .ok db') :
    Advances db db' := by
  cases op with
  | record =>
    obtain ⟨⟨⟨r, repeated⟩, db₁⟩, hcall, rfl⟩ := map_eq_ok_iff.1 h
    obtain ⟨p, -, -, -, ⟨-, -, rfl⟩ | ⟨-, -, hadv, -⟩⟩ := of_recordReconciliationReport hcall
    · exact .refl
    · exact .single hadv
  | lease =>
    obtain ⟨⟨leased, db₁⟩, hcall, rfl⟩ := map_eq_ok_iff.1 h
    obtain ⟨mid, h₁, h₂, -⟩ := of_leaseReconciliationBatch hcall
    exact .tail (.single h₁) h₂
  | enable =>
    obtain ⟨⟨n, db₁⟩, hcall, rfl⟩ := map_eq_ok_iff.1 h
    exact .single (advance_enable hcall)
  | accepted =>
    obtain ⟨⟨b, db₁⟩, hcall, rfl⟩ := map_eq_ok_iff.1 h
    simp only [markReconciliationAccepted, bind_eq_ok_iff] at hcall
    obtain ⟨_, -, hfinish⟩ := hcall
    exact .single (advance_finish hfinish)
  | retryable =>
    obtain ⟨⟨b, db₁⟩, hcall, rfl⟩ := map_eq_ok_iff.1 h
    simp only [markReconciliationRetryable, bind_eq_ok_iff] at hcall
    obtain ⟨_, -, hfinish⟩ := hcall
    exact .single (advance_finish hfinish)
  | dead =>
    obtain ⟨⟨b, db₁⟩, hcall, rfl⟩ := map_eq_ok_iff.1 h
    simp only [markReconciliationDead, bind_eq_ok_iff] at hcall
    obtain ⟨-, -, _, -, hfinish⟩ := hcall
    exact .single (advance_finish hfinish)

theorem advances_step (op : ReportOp F) : Advances db (reportStep E db op) := by
  rw [reportStep]
  cases h : op.body E db with
  | error => exact .refl
  | ok => exact advances_body h

theorem advances_after (ops : List (ReportOp F)) : Advances db (afterReports E db ops) :=
  rel_runs_of_meets (R := Advances) (C := fun _ _ ↦ True) (fun _ ↦ .refl)
    (fun _ _ _ ↦ Relation.ReflTransGen.trans) (fun _ op _ ↦ advances_step op)
    (meets_of_forall (fun _ _ ↦ trivial) db ops)

end

/-! ## What holds along every run -/

/-- Every report has a shipment, and of one that was started the earlier revisions are accepted. -/
structure Inv (db : Reconciliations) : Prop where
  shipped : ∀ r ∈ db.reports.rows, ∃ s ∈ db.shipments.rows, s.reportId = r.reportId
  front : ∀ r ∈ db.reports.rows, ∀ s ∈ db.shipments.rows, s.reportId = r.reportId →
    s.isStarted = true → db.Settled r

theorem inv_empty : Inv .empty where
  shipped r hr := by cases hr
  front r hr := by cases hr

/-- What was accepted stays so. -/
theorem Settled.of_moves {clear : Str → Prop} (hinv : Inv db) (h : db.Settled r)
    (hmoves : Moves clear db.shipments t) :
    Reconciliations.Settled ⟨db.reports, t⟩ r := by
  intro r' hr' hkey hlt s hs hid
  obtain ⟨old, hold, hoid⟩ := hinv.shipped r' hr'
  have hacc := h r' hr' hkey hlt old hold hoid
  obtain ⟨new, hnew, hnid, hmoved⟩ := hmoves.keeps old hold
  obtain rfl : s = new := Table.eq_of_key_eq hs hnew (hid.trans (hoid.symm.trans hnid.symm))
  rw [hmoved.terminal (by simp [Shipment.isTerminal, hacc])]
  exact hacc

theorem Inv.of_moves (hinv : Inv db)
    (hmoves : Moves db.Clear db.shipments t) : Inv ⟨db.reports, t⟩ where
  shipped r hr := by
    obtain ⟨s, hs, hid⟩ := hinv.shipped r hr
    obtain ⟨s', hs', hkey, -⟩ := hmoves.keeps s hs
    exact ⟨s', hs', hkey.trans hid⟩
  front r hr s hs hid hstarted := by
    rcases hmoves.cases hs with hfalse | ⟨old, hold, hkey, hmoved⟩
    · exact hfalse.elim
    · have hoid : old.reportId = r.reportId := hkey.trans hid
      refine Settled.of_moves hinv ?_ hmoves
      rcases hmoved.started hstarted with hold' | hclear
      · exact hinv.front r hr old hold hoid hold'
      · exact hclear r hr hoid.symm

/-- A report that is added is later than those of its request. -/
theorem lt_revision_of_insert? {t t' : Reports} {x : Report} (h : t.insert? r = some t')
    (hx : x ∈ t.rows) (hkey : x.key = r.key) : x.revision < r.revision := by
  have hmem : x ∈ t.chain r.key := Reports.mem_chain.2 ⟨hx, hkey⟩
  have hbounds := (t.linked r.key).rev_bounds hmem
  rw [(Reports.of_insert? h).2.2]
  exact Nat.lt_succ_of_le hbounds.2

theorem Inv.of_add (hinv : Inv db) {createdAt : Str} {reports : Reports} {shipments : Shipments}
    (hreports : db.reports.insert? r = some reports)
    (hshipments : db.shipments.insert? (.new r.reportId createdAt enabled) = some shipments) :
    Inv ⟨reports, shipments⟩ := by
  obtain ⟨hrows, hfresh, -⟩ := Reports.of_insert? hreports
  obtain ⟨hunshipped, hships⟩ :=
    Table.insert?_eq_some_iff.1 (Guarded.toTable_of_insert? hshipments)
  have hreport {x : Report} : x ∈ reports.rows ↔ x ∈ db.reports.rows ∨ x = r := by
    rw [hrows, mem_append, mem_singleton]
  have hship {s : Shipment} :
      s ∈ shipments.rows ↔ s ∈ db.shipments.rows ∨ s = .new r.reportId createdAt enabled := by
    rw [hships, mem_append, mem_singleton]
  constructor
  · intro x hx
    rcases hreport.1 hx with hx | rfl
    · obtain ⟨s, hs, hid⟩ := hinv.shipped x hx
      exact ⟨s, hship.2 (.inl hs), hid⟩
    · exact ⟨_, hship.2 (.inr rfl), rfl⟩
  · intro x hx s hs hid hstarted
    -- the new shipment has not been started, so the one that has is an old one, of an old report
    rcases hship.1 hs with hs | rfl
    swap
    · cases enabled <;> cases hstarted
    rcases hreport.1 hx with hx | rfl
    swap
    · exact absurd hid (hunshipped s hs)
    intro r' hr' hkey hlt s' hs' hid'
    rcases hreport.1 hr' with hr' | rfl
    swap
    · exact absurd (lt_revision_of_insert? hreports hx hkey.symm) (Nat.lt_asymm hlt)
    rcases hship.1 hs' with hs' | rfl
    · exact hinv.front x hx s hs hid hstarted r' hr' hkey hlt s' hs' hid'
    · exact absurd hid'.symm (hfresh r' hr')

theorem inv_advance : Invariant Advance Inv := by
  rintro db db' (⟨t, hmoves⟩ | ⟨r, createdAt, enabled, reports, shipments, hreports, hshipments⟩)
    hinv
  · exact hinv.of_moves hmoves
  · exact hinv.of_add hreports hshipments

/-- Reports are only added, and shipments that have ended stay as they are. -/
structure Extends (db db' : Reconciliations) : Prop where
  reports : db.reports.rows <+: db'.reports.rows
  ended : ∀ s ∈ db.shipments.rows, s.isTerminal = true → s ∈ db'.shipments.rows

theorem Extends.trans {db'' : Reconciliations} (h : Extends db db') (h' : Extends db' db'') :
    Extends db db'' :=
  ⟨h.reports.trans h'.reports, fun s hs ht ↦ h'.ended s (h.ended s hs ht) ht⟩

theorem Advance.extends (h : Advance db db') : Extends db db' := by
  rcases h with ⟨t, hmoves⟩ | ⟨r, createdAt, enabled, reports, shipments, hreports, hshipments⟩
  · refine ⟨prefix_rfl, fun s hs hterm ↦ ?_⟩
    obtain ⟨s', hs', -, hmoved⟩ := hmoves.keeps s hs
    exact hmoved.terminal hterm ▸ hs'
  · have hships := (Table.insert?_eq_some_iff.1 (Guarded.toTable_of_insert? hshipments)).2
    refine ⟨⟨[r], (Reports.of_insert? hreports).1.symm⟩, fun s hs _ ↦ ?_⟩
    rw [hships]
    exact mem_append_left _ hs

theorem Advances.extends (h : Advances db db') : Extends db db' := by
  induction h with
  | refl => exact ⟨prefix_rfl, fun s hs _ ↦ hs⟩
  | tail _ hstep ih => exact ih.trans hstep.extends

/-! ## Shipping in order -/

variable {key : ReportKey}

section Order

variable {db : Reconciliations}

variable {r : Report}

theorem stateOf_eq_some_iff {state : ShipmentState} :
    db.stateOf r = some state ↔
      ∃ s ∈ db.shipments.rows, s.reportId = r.reportId ∧ s.state = state := by
  simp only [Reconciliations.stateOf, Option.map_eq_some_iff, Table.find?_eq_some_iff, and_assoc]

variable {r' : Report}

/-- Before a report that was started, everything is accepted. -/
theorem Inv.accepted_of_lt (hinv : Inv db) (hr : r ∈ db.chain key) (hr' : r' ∈ db.chain key)
    (hlt : r'.revision < r.revision) {s : Shipment} (hs : s ∈ db.shipments.rows)
    (hid : s.reportId = r.reportId) (hstarted : s.isStarted = true) :
    db.stateOf r' = some .accepted := by
  obtain ⟨hr, hkey⟩ := Reports.mem_chain.1 hr
  obtain ⟨hr', hkey'⟩ := Reports.mem_chain.1 hr'
  obtain ⟨s', hs', hid'⟩ := hinv.shipped r' hr'
  have hacc := hinv.front r hr s hs hid hstarted r' hr' (hkey'.trans hkey.symm) hlt s' hs' hid'
  exact stateOf_eq_some_iff.2 ⟨s', hs', hid', hacc⟩

/-- **The accepted reports of a request are its first ones, and the next one is the only one that is
in flight.** -/
theorem Inv.exists_frontier (hinv : Inv db) (key : ReportKey) :
    ∃ k ≤ (db.chain key).length, ∀ r ∈ db.chain key,
      (db.stateOf r = some .accepted ↔ r.revision ≤ k) ∧
        (db.stateOf r = some .sending → r.revision = k + 1) ∧
        (db.stateOf r = some .dead → r.revision = k + 1) := by
  have hlinked : Chained (db.chain key) := db.reports.linked key
  obtain ⟨k, hk, hfront⟩ := hlinked.exists_frontier (P := fun r ↦ db.stateOf r = some .accepted)
    (fun r hr r' hr' hacc hlt ↦ by
      obtain ⟨s, hs, hid, hstate⟩ := stateOf_eq_some_iff.1 hacc
      exact hinv.accepted_of_lt hr hr' hlt hs hid (by simp [Shipment.isStarted, hstate]))
  -- a report that was started but not accepted comes after `k`, and all before it is accepted
  have hnext : ∀ r ∈ db.chain key, ∀ s ∈ db.shipments.rows, s.reportId = r.reportId →
      s.isStarted = true → s.state ≠ .accepted → r.revision = k + 1 := by
    intro r hr s hs hid hstarted hne
    have hgt : k < r.revision := by
      by_contra hle
      have hacc := (hfront r hr).2 (Nat.le_of_not_lt hle)
      rw [stateOf_eq_some_iff.2 ⟨s, hs, hid, rfl⟩, Option.some.injEq] at hacc
      exact hne hacc
    by_contra hneq
    have hbounds := hlinked.rev_bounds hr
    have hidx : k < (db.chain key).length := by omega
    have hget := getElem?_eq_getElem hidx
    have hrev := (hlinked k _ hget).1
    have hacc := hinv.accepted_of_lt hr (getElem_mem hidx) (by omega) hs hid hstarted
    have := (hfront _ (getElem_mem hidx)).1 hacc
    omega
  refine ⟨k, hk, fun r hr ↦ ⟨hfront r hr, fun hstate ↦ ?_, fun hstate ↦ ?_⟩⟩
  · obtain ⟨s, hs, hid, hstate⟩ := stateOf_eq_some_iff.1 hstate
    exact hnext r hr s hs hid (by simp [Shipment.isStarted, hstate]) (by simp [hstate])
  · obtain ⟨s, hs, hid, hstate⟩ := stateOf_eq_some_iff.1 hstate
    exact hnext r hr s hs hid (by simp [Shipment.isStarted, hstate]) (by simp [hstate])

/-- A request one of whose reports is dead has none that a lease could take. -/
theorem Inv.not_waiting_of_dead (hinv : Inv db) (hr : r ∈ db.reports.rows)
    (hdead : db.stateOf r = some .dead) (hr' : r' ∈ db.reports.rows) (hkey : r'.key = r.key)
    (hset : db.Settled r') {s : Shipment} (hs : s ∈ db.shipments.rows)
    (hid : s.reportId = r'.reportId) : s.isWaiting = false := by
  obtain ⟨d, hd, hdid, hdstate⟩ := stateOf_eq_some_iff.1 hdead
  rcases Nat.lt_trichotomy r.revision r'.revision with hlt | heq | hlt
  · have hacc := hset r hr hkey.symm hlt d hd hdid
    rw [hdstate] at hacc
    cases hacc
  · obtain rfl : r = r' := (db.reports.linked r.key).eq_of_rev_eq
      (Reports.mem_chain.2 ⟨hr, rfl⟩) (Reports.mem_chain.2 ⟨hr', hkey⟩) heq
    obtain rfl : d = s := Table.eq_of_key_eq hd hs (hdid.trans hid.symm)
    simp [Shipment.isWaiting, hdstate]
  · have hstarted : d.isStarted = true := by simp [Shipment.isStarted, hdstate]
    have hacc := hinv.front r hr d hd hdid hstarted r' hr' hkey hlt s hs hid
    simp [Shipment.isWaiting, hacc]

/-- At most one report of a request is in flight. -/
theorem Inv.sending_le_one (hinv : Inv db) (key : ReportKey) :
    ((db.chain key).filter fun r ↦ decide (db.stateOf r = some .sending)).length ≤ 1 := by
  obtain ⟨k, -, hk⟩ := hinv.exists_frontier key
  have hnodup : (db.chain key).Nodup := (List.Nodup.of_map _ db.reports.unique).filter _
  have hone : ∀ r ∈ (db.chain key).filter fun r ↦ decide (db.stateOf r = some .sending),
      r ∈ db.chain key ∧ r.revision = k + 1 := by
    intro r hr
    obtain ⟨hr, hsending⟩ := mem_filter.1 hr
    exact ⟨hr, (hk r hr).2.1 (of_decide_eq_true hsending)⟩
  have hsub := hnodup.filter fun r ↦ decide (db.stateOf r = some .sending)
  rcases hl : (db.chain key).filter fun r ↦ decide (db.stateOf r = some .sending) with
    _ | ⟨a, _ | ⟨b, rest⟩⟩
  · exact Nat.zero_le 1
  · exact Nat.le_refl 1
  · rw [hl] at hone hsub
    obtain ⟨ha, hak⟩ := hone a mem_cons_self
    obtain ⟨hb, hbk⟩ := hone b (mem_cons_of_mem _ mem_cons_self)
    have hab := (db.reports.linked key).eq_of_rev_eq ha hb (hak.trans hbk.symm)
    exact absurd (hab ▸ mem_cons_self) (nodup_cons.1 hsub).1

/-- Beside a report that is dead, none of its request is in flight. -/
theorem Inv.not_sending_of_dead (hinv : Inv db) (hr : r ∈ db.chain key)
    (hdead : db.stateOf r = some .dead) (hr' : r' ∈ db.chain key) :
    db.stateOf r' ≠ some .sending := by
  intro hsending
  obtain ⟨k, -, hk⟩ := hinv.exists_frontier key
  have heq := ((hk r hr).2.2 hdead).trans ((hk r' hr').2.1 hsending).symm
  rw [← (db.reports.linked key).eq_of_rev_eq hr hr' heq, hdead] at hsending
  cases hsending

end Order

theorem Extends.chain (h : Extends db db') (key : ReportKey) :
    db.chain key <+: db'.chain key := h.reports.filter _

/-- A report that is dead stays dead. -/
theorem Extends.dead (h : Extends db db')
    (hdead : db.stateOf r = some .dead) : db'.stateOf r = some .dead := by
  obtain ⟨s, hs, hid, hstate⟩ := stateOf_eq_some_iff.1 hdead
  have hterm : s.isTerminal = true := by simp [Shipment.isTerminal, hstate]
  exact stateOf_eq_some_iff.2 ⟨s, h.ended s hs hterm, hid, hstate⟩

/-- **After a report is dead, no lease takes one of its request.** -/
theorem not_leased_of_dead {F : Type} {E : ReportEnv F} (hinv : Inv db) (hr : r ∈ db.chain key)
    (hdead : db.stateOf r = some .dead) {limit leaseFor now : Int}
    {leased : List (Report × Shipment)}
    (h : leaseReconciliationBatch E db limit leaseFor now token = .ok (leased, db')) :
    ∀ p ∈ leased, p.1.key ≠ key := by
  intro p hp hkey
  obtain ⟨mid, hmid, -, hleased⟩ := of_leaseReconciliationBatch h
  obtain ⟨hp', hset, s, hs, hid, hwait⟩ := hleased p hp
  obtain ⟨hr', hrkey⟩ := Reports.mem_chain.1 (hmid.extends.chain key |>.mem hr)
  have hnot := (inv_advance hmid hinv).not_waiting_of_dead hr' (hmid.extends.dead hdead) hp'
    (hkey.trans hrkey.symm) hset hs hid
  rw [hnot] at hwait
  cases hwait

section Runs

variable {F : Type} [PyFloat F]

/-- A report whose content is there is not recorded again. -/
theorem reportStep_of_repeated {E : ReportEnv F} {db : Reconciliations} {report : Json F}
    {recordedAt : Int} {p : Prepared F} (hp : prepareReport E report = .ok p)
    (hmem : ∃ r ∈ db.chain p.key, r.contentSha256 = p.contentSha256) :
    reportStep E db (.record report recordedAt enabled) = db := by
  rw [reportStep]
  cases h : (ReportOp.record report recordedAt enabled).body E db with
  | error => rfl
  | ok =>
    obtain ⟨⟨⟨r, repeated⟩, db₁⟩, hcall, rfl⟩ := map_eq_ok_iff.1 h
    obtain ⟨p', hp', -, -, ⟨-, -, heq⟩ | ⟨-, hnew, -, -⟩⟩ := of_recordReconciliationReport hcall
    · exact heq
    · obtain ⟨x, hx, hsha⟩ := hmem
      rw [hp] at hp'
      cases hp'
      exact absurd hsha (hnew x hx)

/-- **Reconciliation reports ship in order.**  Whatever calls have been made, the reports of a
request are a line of revisions, which grows at its end.  A report that is refused, or whose content
is there, changes nothing.  The accepted reports are the first `k` of the line; no more than one is
in flight, and it is the next one.  Once that one is dead, none of the request is in flight or
leased any more. -/
theorem reconciliation_reports_ship_in_order (E : ReportEnv F) (ops more : List (ReportOp F))
    (key : ReportKey) :
    let db := afterReports E .empty ops
    let db' := afterReports E db more
    Chained (db.chain key) ∧ db.chain key <+: db'.chain key ∧
    (∀ report recordedAt enabled,
      (∀ e, recordReconciliationReport E db report recordedAt enabled = .error e →
        reportStep E db (.record report recordedAt enabled) = db) ∧
      ∀ p, prepareReport E report = .ok p →
        (∃ r ∈ db.chain p.key, r.contentSha256 = p.contentSha256) →
        reportStep E db (.record report recordedAt enabled) = db) ∧
    (∃ k ≤ (db.chain key).length, ∀ r ∈ db.chain key,
      (db.stateOf r = some .accepted ↔ r.revision ≤ k) ∧
      (db.stateOf r = some .sending → r.revision = k + 1) ∧
      (db.stateOf r = some .dead → r.revision = k + 1)) ∧
    ((db.chain key).filter fun r ↦ decide (db.stateOf r = some .sending)).length ≤ 1 ∧
    ∀ r ∈ db.chain key, db.stateOf r = some .dead →
      (∀ r' ∈ db'.chain key, db'.stateOf r' ≠ some .sending) ∧
      ∀ limit leaseFor now token leased db'',
        leaseReconciliationBatch E db' limit leaseFor now token = .ok (leased, db'') →
        ∀ p ∈ leased, p.1.key ≠ key := by
  intro db db'
  have hinv : Inv db := inv_advance.of_run (advances_after ops) inv_empty
  have hrun : Advances db db' := advances_after more
  have hinv' : Inv db' := inv_advance.of_run hrun hinv
  refine ⟨db.reports.linked key, hrun.extends.chain key, fun report recordedAt enabled ↦ ⟨?_, ?_⟩,
    hinv.exists_frontier key, hinv.sending_le_one key, fun r hr hdead ↦ ?_⟩
  · intro e he
    simp only [reportStep, ReportOp.body, he, Except.map]
  · intro p hp hmem
    exact reportStep_of_repeated hp hmem
  · have hr' : r ∈ db'.chain key := (hrun.extends.chain key).mem hr
    have hdead' : db'.stateOf r = some .dead := hrun.extends.dead hdead
    exact ⟨fun r' hr'' ↦ hinv'.not_sending_of_dead hr' hdead' hr'',
      fun limit leaseFor now token leased db'' h ↦ not_leased_of_dead hinv' hr' hdead' h⟩

end Runs

/-- An interpreter in which the identifier of a report is the length of its name. -/
def plainReportEnv : ReportEnv NumToken where
  toEnv := plainEnv
  pyEq
    | .int m, .int n => decide (m = n)
    | .null, .null => true
    | _, _ => false
  schemaError _ _ := none
  inconsistency _ := none
  uuid5 text := (intText text.length).map .scalar

def sampleReport (note : Int) : Json NumToken :=
  .dict [(.lit "environment", .str (.lit "prod")), (.lit "source_product", .str (.lit "chat")),
    (.lit "request_id", .str (.lit "request")), (.lit "session_id", .str (.lit "session")),
    (.lit "status", .str (.lit "match")), (.lit "summary_emitted_as_cost_event", .bool false),
    (.lit "note", .int note)]

def sampleReportKey : ReportKey := ⟨.lit "prod", .lit "chat", .lit "request", .lit "session"⟩

/-- Of two reports of a request the first is accepted, and then the second is dead. -/
def secondDead : List (ReportOp NumToken) :=
  [.record (sampleReport 1) 1 true, .record (sampleReport 2) 2 true,
    .lease 5 10 3 (fun _ ↦ .lit "token"), .accepted (.lit "500") (.lit "token") .accepted none 4,
    .lease 5 10 5 (fun _ ↦ .lit "token"), .dead (.lit "1032") (.lit "token") (.lit "no")
    none none 6]

/-- A third report is recorded, and a lease does not take it. -/
theorem reconciliation_reports_ship_in_order_sample :
    ∃ r ∈ (afterReports plainReportEnv .empty secondDead).chain sampleReportKey, r.revision = 2 ∧
      ∀ leased db, leaseReconciliationBatch plainReportEnv
          (afterReports plainReportEnv (afterReports plainReportEnv .empty secondDead)
            [.record (sampleReport 3) 7 true]) 5 10 8 (fun _ ↦ .lit "token") = .ok (leased, db) →
        ∀ p ∈ leased, p.1.key ≠ sampleReportKey := by
  obtain ⟨-, -, -, -, -, hdead⟩ := reconciliation_reports_ship_in_order plainReportEnv secondDead
    [.record (sampleReport 3) 7 true] sampleReportKey
  have hrow : ((afterReports plainReportEnv .empty secondDead).chain sampleReportKey).getLast?.any
      (fun r ↦ decide (r.revision = 2) &&
        decide ((afterReports plainReportEnv .empty secondDead).stateOf r = some .dead)) =
        true := by
    decide +kernel
  obtain ⟨r, hr, hrow⟩ := (Option.any_eq_true _ _).1 hrow
  rw [Bool.and_eq_true, decide_eq_true_eq, decide_eq_true_eq] at hrow
  have hmem := mem_of_getLast? hr
  exact ⟨r, hmem, hrow.1, (hdead r hmem hrow.2).2 5 10 8 _⟩

end AgentGateway.UsageOutbox.Reconciliation
