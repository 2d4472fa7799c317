import AgentGateway.ForkLedger.Ledger

/-!
# Receipts along every run

What an operation may do to a receipt is `ReceiptMove`.  A pending receipt is claimed under a token
that the claim draws; a claimed one is acknowledged or handed back by whoever presents the token,
and a recovery hands back what an instance it treats as dead had claimed.  An acknowledged receipt
never changes again.

A recovery may take a claim back while its holder is still running, and the receipt may then be
claimed by another turn.  That the first holder's token is worthless from then on rests on the
tokens being drawn once (`holdsClaim_step`: a claim that an operation brings about has a token the
operation has drawn), and on nothing else.
-/

namespace AgentGateway.ForkLedger

open Py List

/-- The tokens an operation draws. -/
def Op.tokens : Op → List Str
  | .claim _ _ _ _ limit tokens _ => (List.range limit).map tokens
  | _ => []

/-- The receipt after an `UPDATE` of its state. -/
def Receipt.withStatus (r : Receipt) (status : ReceiptStatus) (nowNs : Int) : Receipt :=
  { r with status, updatedAtNs := nowNs }

/-- What an operation may do to a receipt. -/
inductive ReceiptMove (r : Receipt) : Op → Receipt → Prop
  | claim (p turnId : Str) (limit : Nat) (tokens : Nat → Str) (nowNs : Int) (token : Str)
    (htoken : token ∈ (List.range limit).map tokens) (h : r.status = .pending) :
    ReceiptMove r (.claim p r.sessionId r.owner turnId limit tokens nowNs)
      (r.withStatus (.claimed ⟨token, turnId, p, nowNs⟩) nowNs)
  | ack (c : Claim) (nowNs : Int) (h : r.status = .claimed c) :
    ReceiptMove r (.ack r.forkId c.claimToken nowNs) (r.withStatus (.acked c nowNs) nowNs)
  | revert (c : Claim) (nowNs : Int) (h : r.status = .claimed c) :
    ReceiptMove r (.revert r.forkId c.claimToken nowNs) (r.withStatus .pending nowNs)
  | release (c : Claim) (p : Str) (recovery : Recovery) (journal : Str → Option Bool) (nowNs : Int)
    (hdead : recovery.isDead c.processInstanceId = true) (h : r.status = .claimed c) :
    ReceiptMove r (.reconcile p recovery journal nowNs) (r.withStatus .pending nowNs)

/-- What a receipt is when it first appears. -/
def NewReceipt (op : Op) (r : Receipt) : Prop :=
  ∃ nowNs, op = .write r.forkId r.sessionId r.owner r.receiptText nowNs ∧ r.status = .pending

/-! ## Claiming -/

variable {r : Receipt}

theorem isPending_iff : r.isPending = true ↔ r.status = .pending := decide_eq_true_iff

theorem claim?_eq_some_iff {c : Claim} : r.claim? = some c ↔ r.status = .claimed c := by
  rw [Receipt.claim?]
  split
  next c' hc => rw [hc, Option.some.injEq, ReceiptStatus.claimed.injEq]
  next hne => exact ⟨nofun, fun h ↦ absurd h (hne c)⟩

/-- The rows that a claim goes through are those of the table. -/
def Selected (l : List (Receipt × Str)) (t : Table Receipt Receipt.forkId) : Prop :=
  ∀ x ∈ l, ∀ r ∈ t.rows, r.forkId = x.1.forkId →
    r.sessionId = x.1.sessionId ∧ r.owner = x.1.owner ∧ r.receiptText = x.1.receiptText

variable {db : Db}

variable {owner sessionId : Str} {limit : Nat}

theorem mem_pendingReceipts (h : r ∈ db.pendingReceipts sessionId owner limit) :
    r ∈ db.receipts.rows ∧ r.sessionId = sessionId ∧ r.owner = owner := by
  have hmem := mem_of_mem_take h
  rw [mem_insertionSort, mem_filter, Bool.and_eq_true, decide_eq_true_eq] at hmem
  exact ⟨hmem.1, hmem.2.1⟩

section Loop

variable {p turnId : Str} {nowNs : Int}

/-- What the loop does to a receipt. -/
def ClaimedBy (p turnId : Str) (nowNs : Int) (l : List (Receipt × Str)) (r r' : Receipt) : Prop :=
  r' = r ∨ r.status = .pending ∧ ∃ x ∈ l, x.1.forkId = r.forkId ∧
    r' = r.withStatus (.claimed ⟨x.2, turnId, p, nowNs⟩) nowNs

/-- The table after one round. -/
def claimRow (p turnId : Str) (nowNs : Int) (x : Receipt × Str) (t : Table Receipt Receipt.forkId) :
    Table Receipt Receipt.forkId :=
  t.update (fun y ↦ decide (y.forkId = x.1.forkId) && y.isPending)
    (fun y ↦ y.withStatus (.claimed ⟨x.2, turnId, p, nowNs⟩) nowNs) fun _ ↦ rfl

/-- One round of the loop. -/
theorem claimRows_cons (x : Receipt × Str) (rest : List (Receipt × Str))
    (t : Table Receipt Receipt.forkId) :
    claimRows p turnId nowNs (x :: rest) t =
      ((if t.rowcount (fun y ↦ decide (y.forkId = x.1.forkId) && y.isPending) = 1 then
          [⟨x.1.forkId, x.1.sessionId, x.1.owner, x.1.receiptText, ⟨x.2, turnId, p, nowNs⟩⟩]
            else []) ++
        (claimRows p turnId nowNs rest (claimRow p turnId nowNs x t)).1,
      (claimRows p turnId nowNs rest (claimRow p turnId nowNs x t)).2) := by
  by_cases h : t.rowcount (fun y ↦ decide (y.forkId = x.1.forkId) && y.isPending) = 1
  · rw [if_pos h]
    exact if_pos h
  · rw [if_neg h]
    exact if_neg h

theorem claimRow_evolves (x : Receipt × Str) (rest : List (Receipt × Str))
    (t : Table Receipt Receipt.forkId) :
    t.Evolves (ClaimedBy p turnId nowNs (x :: rest)) (fun _ ↦ False)
    (claimRow p turnId nowNs x t) := by
  refine Table.evolves_update (fun _ ↦ .inl rfl) fun r _ hr ↦ .inr ?_
  rw [Bool.and_eq_true, decide_eq_true_eq, isPending_iff] at hr
  exact ⟨hr.2, x, mem_cons_self, hr.1.symm, rfl⟩

theorem Selected.claimRow {x : Receipt × Str} {rest : List (Receipt × Str)}
    {t : Table Receipt Receipt.forkId} (h : Selected (x :: rest) t) :
    Selected rest (claimRow p turnId nowNs x t) := by
  intro y hy r' hr' hid
  rcases (claimRow_evolves x rest t).cases hr' with hfalse | ⟨r, hr, hkey, hP⟩
  · exact hfalse.elim
  · have hsel := h y (mem_cons_of_mem x hy) r hr (hkey.trans hid)
    rcases hP with rfl | ⟨-, -, -, -, rfl⟩
    · exact hsel
    · exact hsel

/-- **The loop claims pending receipts, and leaves the others alone.** -/
theorem claimRows_evolves (p turnId : Str) (nowNs : Int) (l : List (Receipt × Str))
    (t : Table Receipt Receipt.forkId) :
    t.Evolves (ClaimedBy p turnId nowNs l) (fun _ ↦ False) (claimRows p turnId nowNs l t).2 := by
  induction l generalizing t with
  | nil => exact .refl (fun _ ↦ .inl rfl) t
  | cons x rest ih =>
    rw [claimRows_cons]
    refine (claimRow_evolves x rest t).trans ?_ (fun _ _ h _ ↦ h) (ih _)
    rintro r s u (rfl | ⟨hpending, y, hy, hid, rfl⟩) hsu
    · rcases hsu with rfl | ⟨hpending, y, hy, hid, rfl⟩
      · exact .inl rfl
      · exact .inr ⟨hpending, y, mem_cons_of_mem x hy, hid, rfl⟩
    · -- a receipt that is claimed stays claimed in the later rounds
      rcases hsu with rfl | ⟨hclaimed, -⟩
      · exact .inr ⟨hpending, y, hy, hid, rfl⟩
      · cases hclaimed

/-- **A claim that is handed out is of a receipt that was pending, and is now claimed under it.** -/
theorem claimRows_claims (p turnId : Str) (nowNs : Int) (l : List (Receipt × Str))
    (t : Table Receipt Receipt.forkId) (hsel : Selected l t) :
    ∀ c ∈ (claimRows p turnId nowNs l t).1, ∃ r ∈ t.rows,
      r.status = .pending ∧
      c = ⟨r.forkId, r.sessionId, r.owner, r.receiptText, c.claim⟩ ∧
      r.withStatus (.claimed c.claim) nowNs ∈ (claimRows p turnId nowNs l t).2.rows := by
  induction l generalizing t with
  | nil =>
    intro c hc
    cases hc
  | cons x rest ih =>
    rw [claimRows_cons]
    intro c hc
    rcases mem_append.1 hc with hc | hc
    · split at hc
      next hhit =>
        rw [mem_singleton] at hc
        subst hc
        obtain ⟨r, hr, hhit⟩ := Table.exists_of_rowcount hhit
        rw [Bool.and_eq_true, decide_eq_true_eq, isPending_iff] at hhit
        obtain ⟨hsession, howner, htext⟩ := hsel x mem_cons_self r hr hhit.1
        refine ⟨r, hr, hhit.2, by rw [hhit.1, hsession, howner, htext], ?_⟩
        -- the later rounds leave it alone
        have hrow : r.withStatus (.claimed ⟨x.2, turnId, p, nowNs⟩) nowNs ∈
            (claimRow p turnId nowNs x t).rows :=
          Table.mem_update.2 ⟨r, hr, if_pos (by simp [hhit, Receipt.isPending])⟩
        obtain ⟨r', hr', -, rfl | ⟨hpending, -⟩⟩ :=
          (claimRows_evolves p turnId nowNs rest _).keeps _ hrow
        · exact hr'
        · cases hpending
      · cases hc
    · obtain ⟨r', hr', hpending, hc, hmem⟩ := ih _ hsel.claimRow c hc
      rcases (claimRow_evolves x rest t).cases hr' with hfalse | ⟨r, hr, -, rfl | ⟨-, y, -, -, rfl⟩⟩
      · exact hfalse.elim
      · exact ⟨r', hr, hpending, hc, hmem⟩
      · cases hpending

end Loop

/-- The receipts of a session, with the tokens drawn for them. -/
theorem selected_pendingReceipts (db : Db) (sessionId owner : Str) (limit : Nat)
    (tokens : List Str) :
    Selected ((db.pendingReceipts sessionId owner limit).zip tokens) db.receipts := by
  intro x hx r hr hid
  have hmem := mem_pendingReceipts (of_mem_zip hx).1
  obtain rfl := Table.eq_of_key_eq hr hmem.1 hid
  exact ⟨rfl, rfl, rfl⟩

variable {db' : Db}

theorem claimPendingReceipts_claims {p turnId : Str} {tokens : Nat → Str} {nowNs : Int}
    {claims : List ReceiptClaim}
    (h : claimPendingReceipts db p sessionId owner turnId limit tokens nowNs = .ok (claims, db'))
    {c : ReceiptClaim} (hc : c ∈ claims) : ∃ r ∈ db.receipts.rows, r.status = .pending ∧
      c = ⟨r.forkId, r.sessionId, r.owner, r.receiptText, c.claim⟩ ∧
      r.withStatus (.claimed c.claim) nowNs ∈ db'.receipts.rows := by
  obtain ⟨receipts, hloop, rfl⟩ := claimPendingReceipts_eq_ok h
  have hclaims := claimRows_claims p turnId nowNs _ _
    (selected_pendingReceipts db sessionId owner limit ((List.range limit).map tokens))
  rw [hloop] at hclaims
  exact hclaims c hc

/-! ## One operation -/

variable {forkId : Str}

variable {op : Op}

/-- An `UPDATE` of the receipt whose claim has the token. -/
theorem finishReceiptClaim_evolves {claimToken : Str} {finish : Claim → ReceiptStatus} {nowNs : Int}
    {hit : Bool} (h : finishReceiptClaim db forkId claimToken finish nowNs = .ok (hit, db'))
    (hmove : ∀ (r : Receipt) (c : Claim), r.forkId = forkId → c.claimToken = claimToken →
      r.status = .claimed c → ReceiptMove r op (r.withStatus (finish c) nowNs)) :
    db.receipts.Evolves (fun r r' ↦ r' = r ∨ ReceiptMove r op r') (NewReceipt op) db'.receipts := by
  obtain ⟨-, rfl⟩ := finishReceiptClaim_eq_ok h
  dsimp only
  refine Table.evolves_update (fun _ ↦ .inl rfl) fun r _ hr ↦ .inr ?_
  rw [Bool.and_eq_true, decide_eq_true_eq] at hr
  obtain ⟨c, hc, htoken⟩ := (Option.any_eq_true _ _).1 hr.2
  have hstatus : (r.claim?.map finish).getD r.status = finish c := by rw [hc]; rfl
  rw [hstatus]
  exact hmove r c hr.1 (of_decide_eq_true htoken) (claim?_eq_some_iff.1 hc)

/-- A claim touches the receipts of its session only. -/
theorem claimPendingReceipts_evolves {p turnId : Str} {tokens : Nat → Str} {nowNs : Int}
    {claims : List ReceiptClaim}
    (h : claimPendingReceipts db p sessionId owner turnId limit tokens nowNs = .ok (claims, db')) :
    let op := Op.claim p sessionId owner turnId limit tokens nowNs
    db.receipts.Evolves (fun r r' ↦ r' = r ∨ ReceiptMove r op r') (NewReceipt op) db'.receipts := by
  intro op
  obtain ⟨receipts, hloop, rfl⟩ := claimPendingReceipts_eq_ok h
  have hevolves := claimRows_evolves p turnId nowNs
    ((db.pendingReceipts sessionId owner limit).zip ((List.range limit).map tokens)) db.receipts
  rw [hloop] at hevolves
  refine ⟨fun r hr ↦ ?_, fun r hr hnew ↦ (hevolves.new r hr hnew).elim⟩
  obtain ⟨r', hr', hid, rfl | ⟨hpending, x, hx, hxid, rfl⟩⟩ := hevolves.keeps r hr
  · exact ⟨r', hr', hid, .inl rfl⟩
  · obtain ⟨hrow, htoken⟩ := of_mem_zip hx
    obtain ⟨hmem, rfl, rfl⟩ := mem_pendingReceipts hrow
    obtain rfl := Table.eq_of_key_eq hmem hr hxid
    exact ⟨_, hr', hid, .inr (.claim p turnId limit tokens nowNs x.2 htoken hpending)⟩

/-- **Every operation leaves a receipt as it is, or moves it.** -/
theorem Db.step_receipts (db : Db) (op : Op) :
    db.receipts.Evolves (fun r r' ↦ r' = r ∨ ReceiptMove r op r') (NewReceipt op)
      (db.step op).receipts := by
  rcases Db.step_cases db op with hsame | hbody
  · rw [hsame]
    exact .refl (fun _ ↦ .inl rfl) _
  have same : ∀ {db' : Db}, db'.receipts = db.receipts →
      db.receipts.Evolves (fun r r' ↦ r' = r ∨ ReceiptMove r op r') (NewReceipt op)
        db'.receipts := fun hsame ↦ hsame ▸ .refl (fun _ ↦ .inl rfl) _
  generalize db.step op = db' at hbody
  cases op with
  | reserve =>
    obtain ⟨⟨reply, _⟩, h, rfl⟩ := map_eq_ok_iff.1 hbody
    obtain ⟨day, reserved, admissions, -, -, -, rfl⟩ := reserveAdmission_eq_ok h
    exact same rfl
  | start =>
    obtain ⟨⟨hit, _⟩, h, rfl⟩ := map_eq_ok_iff.1 hbody
    simp only [markAdmissionStarted, bind_eq_ok_iff] at h
    obtain ⟨-, -, h⟩ := h
    obtain rfl := updateOwned_eq_ok h
    exact same rfl
  | settle =>
    obtain ⟨⟨hit, _⟩, h, rfl⟩ := map_eq_ok_iff.1 hbody
    simp only [settleAdmission, bind_eq_ok_iff] at h
    obtain ⟨-, -, actual, -, h⟩ := h
    obtain rfl := updateOwned_eq_ok h
    exact same rfl
  | abandon =>
    obtain ⟨⟨hit, _⟩, h, rfl⟩ := map_eq_ok_iff.1 hbody
    simp only [abandonAdmission, bind_eq_ok_iff] at h
    obtain ⟨-, -, h⟩ := h
    obtain rfl := updateOwned_eq_ok h
    exact same rfl
  | reconcile p recovery journal nowNs =>
    obtain ⟨⟨counts, _⟩, h, rfl⟩ := map_eq_ok_iff.1 hbody
    obtain ⟨-, forks, -, rfl⟩ := reconcileStartup_eq_ok h
    dsimp only
    refine Table.evolves_update (fun _ ↦ .inl rfl) fun r _ hr ↦ .inr ?_
    obtain ⟨c, hc, hdead⟩ := (Option.any_eq_true _ _).1 hr
    exact .release c p recovery journal nowNs hdead (claim?_eq_some_iff.1 hc)
  | write forkId sessionId owner receiptText nowNs =>
    obtain ⟨⟨hit, _⟩, h, rfl⟩ := map_eq_ok_iff.1 hbody
    obtain ⟨receipts, rfl, rfl | hins⟩ := writeReceipt_eq_ok h
    · exact same rfl
    · exact Table.evolves_insert? (fun _ ↦ .inl rfl) hins ⟨nowNs, rfl, rfl⟩
  | claim =>
    obtain ⟨⟨claims, _⟩, h, rfl⟩ := map_eq_ok_iff.1 hbody
    exact claimPendingReceipts_evolves h
  | ack forkId claimToken nowNs =>
    obtain ⟨⟨hit, _⟩, h, rfl⟩ := map_eq_ok_iff.1 hbody
    exact finishReceiptClaim_evolves h fun r c hid hc hstatus ↦ hid ▸ hc ▸ .ack c nowNs hstatus
  | revert forkId claimToken nowNs =>
    obtain ⟨⟨hit, _⟩, h, rfl⟩ := map_eq_ok_iff.1 hbody
    exact finishReceiptClaim_evolves h fun r c hid hc hstatus ↦ hid ▸ hc ▸ .revert c nowNs hstatus

/-! ## Runs -/

/-- What a receipt was and what it has become: its text and its addressee stay, and once it is
acknowledged so does everything. -/
structure Delivered (r r' : Receipt) : Prop where
  fork : r'.forkId = r.forkId
  session : r'.sessionId = r.sessionId
  owner : r'.owner = r.owner
  text : r'.receiptText = r.receiptText
  final : ∀ c ackedAtNs, r.status = .acked c ackedAtNs → r' = r

theorem Delivered.refl (r : Receipt) : Delivered r r := ⟨rfl, rfl, rfl, rfl, fun _ _ _ ↦ rfl⟩

theorem Delivered.trans {r' r'' : Receipt} (h : Delivered r r') (h' : Delivered r' r'') :
    Delivered r r'' where
  fork := h'.fork.trans h.fork
  session := h'.session.trans h.session
  owner := h'.owner.trans h.owner
  text := h'.text.trans h.text
  final c at_ hacked := by
    obtain rfl := h.final c at_ hacked
    exact h'.final c at_ hacked

theorem ReceiptMove.delivered {r' : Receipt} (h : ReceiptMove r op r') :
    Delivered r r' := by
  have hfinal : ∀ c ackedAtNs, r.status = .acked c ackedAtNs → r' = r := by
    intro c at_ hacked
    cases h with
    | claim p turnId limit tokens nowNs token htoken h => cases hacked.symm.trans h
    | ack c nowNs h => cases hacked.symm.trans h
    | revert c nowNs h => cases hacked.symm.trans h
    | release c p recovery journal nowNs hdead h => cases hacked.symm.trans h
  cases h <;> exact ⟨rfl, rfl, rfl, rfl, hfinal⟩

theorem receipts_delivered (db : Db) (ops : List Op) :
    db.receipts.Keeps (fun _ ↦ True) Delivered (db.after ops).receipts := by
  refine rel_runs_of_meets (C := fun _ _ ↦ True)
    (R := fun db db' : Db ↦ db.receipts.Keeps (fun _ ↦ True) Delivered db'.receipts)
    (fun db ↦ Table.Keeps.refl Delivered.refl _)
    (fun _ _ _ h h' ↦ Table.Keeps.trans (fun _ _ _ ↦ Delivered.trans) h h') (fun db op _ ↦ ?_)
    (meets_of_forall (fun _ _ ↦ trivial) db ops)
  intro r hr _
  obtain ⟨r', hr', hid, rfl | hmove⟩ := (Db.step_receipts db op).keeps r hr
  · exact ⟨r', hr', hid, trivial, .refl r'⟩
  · exact ⟨r', hr', hid, trivial, hmove.delivered⟩

/-- The receipt of the fork is claimed under the token. -/
def Db.HoldsClaim (db : Db) (forkId token : Str) : Prop :=
  ∃ r ∈ db.receipts.rows, r.forkId = forkId ∧ ∃ c, r.status = .claimed c ∧ c.claimToken = token

variable {token : Str}

/-- **A claim that an operation brings about has a token that the operation has drawn.** -/
theorem holdsClaim_step (h : (db.step op).HoldsClaim forkId token) :
    db.HoldsClaim forkId token ∨ token ∈ op.tokens := by
  obtain ⟨r', hr', hid, c, hstatus, htoken⟩ := h
  rcases (Db.step_receipts db op).cases hr' with ⟨-, -, hpending⟩ | ⟨r, hr, hkey, rfl | hmove⟩
  · cases hstatus.symm.trans hpending
  · exact .inl ⟨r', hr, hid, c, hstatus, htoken⟩
  · cases hmove with
    | claim p turnId limit tokens nowNs token' htoken' =>
      cases hstatus
      exact .inr (htoken ▸ htoken')
    | ack => cases hstatus
    | revert => cases hstatus
    | release => cases hstatus

theorem holdsClaim_after (ops : List Op) (h : (db.after ops).HoldsClaim forkId token) :
    db.HoldsClaim forkId token ∨ token ∈ ops.flatMap Op.tokens := by
  induction ops generalizing db with
  | nil => exact .inl h
  | cons op ops ih =>
    rw [flatMap_cons, mem_append]
    rcases ih h with hstep | hlater
    · rcases holdsClaim_step hstep with hheld | hdrawn
      · exact .inl hheld
      · exact .inr (.inl hdrawn)
    · exact .inr (.inr hlater)

/-- A receipt is claimed under one token at most. -/
theorem Db.HoldsClaim.unique {token' : Str} (h : db.HoldsClaim forkId token)
    (h' : db.HoldsClaim forkId token') : token = token' := by
  obtain ⟨r, hr, hid, c, hstatus, rfl⟩ := h
  obtain ⟨r', hr', hid', c', hstatus', rfl⟩ := h'
  obtain rfl := Table.eq_of_key_eq hr hr' (hid.trans hid'.symm)
  cases hstatus.symm.trans hstatus'
  rfl

/-- Only the token of the current claim finishes it. -/
theorem holdsClaim_of_finish {claimToken : Str} {finish : Claim → ReceiptStatus} {nowNs : Int}
    (h : finishReceiptClaim db forkId claimToken finish nowNs = .ok (true, db')) :
    ∃ r ∈ db.receipts.rows, r.forkId = forkId ∧ ∃ c, r.status = .claimed c ∧
      c.claimToken = claimToken ∧ r.withStatus (finish c) nowNs ∈ db'.receipts.rows := by
  obtain ⟨hhit, rfl⟩ := finishReceiptClaim_eq_ok h
  obtain ⟨r, hr, hmatch⟩ := Table.exists_of_rowcount (of_decide_eq_true hhit.symm)
  have hmatch' := hmatch
  rw [Bool.and_eq_true, decide_eq_true_eq] at hmatch'
  obtain ⟨c, hc, htoken⟩ := (Option.any_eq_true _ _).1 hmatch'.2
  refine ⟨r, hr, hmatch'.1, c, claim?_eq_some_iff.1 hc, of_decide_eq_true htoken, ?_⟩
  dsimp only
  refine Table.mem_update.2 ⟨r, hr, (if_pos hmatch).trans ?_⟩
  rw [hc]
  rfl

/-- A token that has been drawn and is not that of the receipt's claim never is again. -/
theorem not_holdsClaim_later {ops more : List Op}
    (htokens : ((ops ++ more).flatMap Op.tokens).Nodup) (hdrawn : token ∈ ops.flatMap Op.tokens)
    (hnot : ¬ (Db.empty.after ops).HoldsClaim forkId token) :
    ¬ ((Db.empty.after ops).after more).HoldsClaim forkId token := by
  intro hlater
  rw [flatMap_append, nodup_append] at htokens
  rcases holdsClaim_after more hlater with hheld | hmore
  · exact hnot hheld
  · exact htokens.2.2 token hdrawn token hmore rfl

/-- An acknowledged receipt has no claim that could be finished, and waits for none. -/
theorem acked_after {c : Claim} {ackedAtNs : Int} (hr : r ∈ db.receipts.rows)
    (hacked : r.status = .acked c ackedAtNs) (more : List Op) :
    ∀ x ∈ (db.after more).receipts.rows, x.forkId = r.forkId → x.status = .acked c ackedAtNs := by
  intro x hx hid
  obtain ⟨r', hr', -, -, hdelivered⟩ := receipts_delivered db more r hr trivial
  obtain rfl := hdelivered.final c ackedAtNs hacked
  obtain rfl := Table.eq_of_key_eq hx hr' hid
  exact hacked

/-- A turn of one instance claims a receipt, and another instance takes the claim back. -/
def takenBack : List Op :=
  [.write (.lit "fork") (.lit "session") (.lit "owner") (.lit "done") 1,
    .claim (.lit "gateway-1") (.lit "session") (.lit "owner") (.lit "turn-1") 1
      (fun _ ↦ .lit "token-1") 2,
    .reconcile (.lit "gateway-2") (.death (.lit "gateway-1")) (fun _ ↦ some false) 3]

/-- The receipt is claimed again. -/
def claimedAgain : List Op :=
  [.claim (.lit "gateway-2") (.lit "session") (.lit "owner") (.lit "turn-2") 1
    (fun _ ↦ .lit "token-2") 4]

end AgentGateway.ForkLedger
