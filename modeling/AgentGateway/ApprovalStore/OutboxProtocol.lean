import AgentGateway.ApprovalStore.Operations

/-!
# The protocol of the delivery outbox

A vote or a cancellation that decides a request with a delivery context writes one row into the
outbox, in its own transaction, with the decision it made (`recordVote_delivers`,
`terminalizePending_delivers`).  From then on the row is there: its identity, its decision and its
sequence number stay, and its state goes from `pending` to `published` to `acknowledged`, or from
`pending` to `quarantined`.

What one operation does to a row is `DeliveryMove`; `Delivered` is what any number of them do, and
it remembers which approvals are fenced: a row of a fenced approval that has not been published
never will be.  Sequence numbers go up in the order of the insertions (`Sequenced`).
-/

namespace AgentGateway.ApprovalStore

open Py

variable {F M : Type} [PyFloat F] {env : Env F M}

/-! ## How one delivery moves on -/

/-- One move of the state of a row. -/
inductive StateMove : DeliveryState → DeliveryState → Prop
  | stay (s : DeliveryState) : StateMove s s
  | publish : StateMove .pending .published
  | acknowledge : StateMove .published .acknowledged
  | quarantine : StateMove .pending .quarantined

/-- The columns of a row that never change. -/
def Delivery.identity (d : Delivery) :
    Nat × Str × DeliveryContext × Bool × Int × Option Str × Option Str × Str :=
  (d.deliverySequence, d.approvalId, d.context, d.approved, d.decidedAtNs, d.triggeringVoteId,
    d.voteAuditEntryId, d.terminalAuditEntryId)

variable {fences : List Str}

variable {d d' : Delivery}

theorem DeliveryMove.identity_eq (h : DeliveryMove fences d d') : d'.identity = d.identity := by
  cases h <;> rfl

/-- What an operation may do to the state of a row: a row that is published was audited before. -/
theorem DeliveryMove.state (h : DeliveryMove fences d d') :
    StateMove d.state d'.state ∧
      (d.state = .pending → d'.state = .published → d.auditState = .ready) := by
  cases h with
  | audit => exact ⟨.stay _, fun hp h ↦ by rw [show d.state = .published from h] at hp; cases hp⟩
  | publish now hs ha => exact ⟨hs ▸ .publish, fun _ _ ↦ ha⟩
  | acknowledge now hs => exact ⟨hs ▸ .acknowledge, nofun⟩
  | fail =>
    exact ⟨.stay _, fun hp h ↦ by rw [show d.state = .published from h] at hp; cases hp⟩
  | quarantine now nowNs error hs => exact ⟨hs ▸ .quarantine, nofun⟩

/-- What a row was and what it has become, since these approvals are fenced. -/
structure Delivered (fences : List Str) (d d' : Delivery) : Prop where
  identity : d'.identity = d.identity
  fenced : d.approvalId ∈ fences → d.approved = true →
    d.state = .pending ∨ d.state = .quarantined → d'.state = .pending ∨ d'.state = .quarantined

theorem Delivered.refl (d : Delivery) : Delivered fences d d :=
  ⟨rfl, fun _ _ ↦ id⟩

theorem Delivered.trans {fences' : List Str} (hsub : fences ⊆ fences') {d'' : Delivery}
    (h : Delivered fences d d') (h' : Delivered fences' d' d'') : Delivered fences d d'' where
  identity := h'.identity.trans h.identity
  fenced hf ha hs := by
    have hid : d'.approvalId = d.approvalId := congrArg (·.2.1) h.identity
    have happroved : d'.approved = d.approved := congrArg (·.2.2.2.1) h.identity
    exact h'.fenced (hid ▸ hsub hf) (happroved ▸ ha) (h.fenced hf ha hs)

theorem DeliveryMove.delivered (h : DeliveryMove fences d d') :
    Delivered fences d d' where
  identity := h.identity_eq
  fenced hf ha hs := by
    cases h with
    | audit => exact hs
    | publish now hp hready hunfenced => exact absurd hf (hunfenced ha)
    | acknowledge now hp =>
      rw [hp] at hs
      rcases hs with hs | hs <;> cases hs
    | fail => exact hs
    | quarantine => exact .inr rfl

/-! ## What an operation does -/

/-- The outbox after an operation: rows have moved, or one was appended. -/
inductive OutboxStep (fences : List Str) (db : Db) :
    Indexed Delivery Delivery.approvalId Delivery.deliverySequence → Option Nat → Prop
  | move (d d' : Delivery) {outbox : Indexed Delivery Delivery.approvalId Delivery.deliverySequence}
    (hd : d ∈ db.outbox.rows) (h : DeliveryMove fences d d')
    (hput : db.outbox.put? d' = some outbox) :
    OutboxStep fences db outbox db.nextSequence
  | append {outbox : Indexed Delivery Delivery.approvalId Delivery.deliverySequence}
    {nextSequence : Option Nat} (h : OutboxAppend db.outbox db.nextSequence outbox nextSequence) :
    OutboxStep fences db outbox nextSequence

variable {db db' : Db}

/-- **Every operation leaves the outbox as it is, moves one row of it or appends one**, and lifts no
fence. -/
theorem Effect.outboxStep {op : Op F M} (h : Effect env db op db') :
    db.fences ⊆ db'.fences ∧ OutboxStep db.fences db db'.outbox db'.nextSequence := by
  have same : OutboxStep db.fences db db.outbox db.nextSequence := .append .none
  cases h with
  | decision h =>
    obtain ⟨requests, votes, outbox, clockHighWater, nextSequence, rfl, -, happend⟩ := h
    exact ⟨List.Subset.refl _, .append happend⟩
  | outbox h =>
    obtain ⟨clockHighWater, outbox, rfl, rfl | ⟨d, hd, d', hmove, hput⟩⟩ := h
    · exact ⟨List.Subset.refl _, same⟩
    · exact ⟨List.Subset.refl _, .move d d' hd hmove hput⟩
  | fence hsub => exact ⟨hsub, same⟩
  | park _ h =>
    obtain ⟨requests, bindings, rfl⟩ := parkExecutableBinding_frame h
    exact ⟨List.Subset.refl _, same⟩
  | reissue h =>
    obtain ⟨requests, bindings, rootTurns, rfl⟩ := reissue_frame h
    exact ⟨List.Subset.refl _, same⟩
  | claim h =>
    obtain ⟨bindings, rfl⟩ := claimExecutableBinding_frame h
    exact ⟨List.Subset.refl _, same⟩
  | complete h =>
    obtain ⟨bindings, rfl⟩ := completeExecutableBinding_frame h
    exact ⟨List.Subset.refl _, same⟩
  | rawPatch h =>
    obtain ⟨rawPrepared, rawClaims, rawConsumptions, rfl, -⟩ := h
    exact ⟨List.Subset.refl _, same⟩
  | update | record | prepared | turns | reserve => exact ⟨List.Subset.refl _, same⟩

theorem Db.step_outbox (env : Env F M) (db : Db) (op : Op F M) :
    db.fences ⊆ (db.step env op).fences ∧
      OutboxStep db.fences db (db.step env op).outbox (db.step env op).nextSequence := by
  rcases Db.step_cases env db op with h | h
  · rw [h]
    exact ⟨List.Subset.refl _, .append .none⟩
  · exact (Op.effect h).outboxStep

/-- Rows are appended, or one is replaced by the row it has moved to. -/
theorem OutboxStep.rows {outbox : Indexed Delivery Delivery.approvalId Delivery.deliverySequence}
    {nextSequence : Option Nat} (h : OutboxStep fences db outbox nextSequence) :
    (∃ d ∈ db.outbox.rows, ∃ d', DeliveryMove fences d d' ∧ nextSequence = db.nextSequence ∧
      outbox.toTable = db.outbox.toTable.put d') ∨
    (outbox = db.outbox ∧ nextSequence = db.nextSequence) ∨
    ∃ d, (db.nextSequence = none ∧ d.deliverySequence = 1 ∨
        db.nextSequence = some d.deliverySequence) ∧
      nextSequence = some (d.deliverySequence + 1) ∧
      (∀ d' ∈ db.outbox.rows, d'.approvalId ≠ d.approvalId) ∧
      outbox.rows = db.outbox.rows ++ [d] := by
  cases h with
  | move d d' hd hmove hput =>
    exact .inl ⟨d, hd, d', hmove, rfl, Indexed.toTable_of_put? hput⟩
  | append happend =>
    cases happend with
    | none => exact .inr (.inl ⟨rfl, rfl⟩)
    | row d hn hs ha hins =>
      obtain ⟨hfresh, hrows⟩ := Indexed.rows_of_insert? hins
      exact .inr (.inr ⟨d, hn, rfl, fun d' hd' ↦ (hfresh d' hd').1, hrows⟩)

theorem OutboxStep.keeps {outbox : Indexed Delivery Delivery.approvalId Delivery.deliverySequence}
    {nextSequence : Option Nat} (h : OutboxStep fences db outbox nextSequence) :
    db.outbox.toTable.Keeps (fun _ ↦ True) (fun d d' ↦ d' = d ∨ DeliveryMove fences d d')
      outbox.toTable := by
  rcases h.rows with ⟨d, hd, d', hmove, -, htable⟩ | ⟨rfl, -⟩ | ⟨d, -, -, -, hrows⟩
  · rw [htable]
    refine Table.keeps_put (fun _ ↦ .inl rfl) fun r hr hkey _ ↦ ⟨trivial, .inr ?_⟩
    have : r = d := Table.eq_of_key_eq hr hd (hkey.trans hmove.approvalId_eq)
    exact this ▸ hmove
  · exact Table.Keeps.refl (fun _ ↦ .inl rfl) _
  · exact Table.keeps_append (fun _ ↦ .inl rfl) hrows

/-! ## Sequence numbers -/

/-- Every row was inserted before the next number was reached. -/
def Sequenced (db : Db) : Prop :=
  ∀ d ∈ db.outbox.rows, ∃ n, db.nextSequence = some n ∧ d.deliverySequence < n

/-- What the outbox was and what it has become: its rows are there, a row that is new has a number
above all of theirs, and no fence was lifted. -/
structure OutboxAdvance (db db' : Db) : Prop where
  fences : db.fences ⊆ db'.fences
  keeps : db.outbox.toTable.Keeps (fun _ ↦ True) (Delivered db.fences) db'.outbox.toTable
  sequence : ∀ n, db.nextSequence = some n → ∃ n', db'.nextSequence = some n' ∧ n ≤ n'
  fresh : ∀ d' ∈ db'.outbox.rows, (∀ d ∈ db.outbox.rows, d.approvalId ≠ d'.approvalId) →
    ∀ n, db.nextSequence = some n → n ≤ d'.deliverySequence

theorem OutboxAdvance.refl (db : Db) : OutboxAdvance db db where
  fences := List.Subset.refl _
  keeps := Table.Keeps.refl Delivered.refl _
  sequence n hn := ⟨n, hn, le_rfl⟩
  fresh d' hd' hfresh := absurd rfl (hfresh d' hd')

theorem OutboxAdvance.trans {db'' : Db} (h : OutboxAdvance db db')
    (h' : OutboxAdvance db' db'') : OutboxAdvance db db'' where
  fences := List.Subset.trans h.fences h'.fences
  keeps := by
    intro d hd _
    obtain ⟨d', hd', hkey, -, hdelivered⟩ := h.keeps d hd trivial
    obtain ⟨d'', hd'', hkey', -, hdelivered'⟩ := h'.keeps d' hd' trivial
    exact ⟨d'', hd'', hkey'.trans hkey, trivial, hdelivered.trans h.fences hdelivered'⟩
  sequence n hn := by
    obtain ⟨n', hn', hle⟩ := h.sequence n hn
    obtain ⟨n'', hn'', hle'⟩ := h'.sequence n' hn'
    exact ⟨n'', hn'', hle.trans hle'⟩
  fresh d'' hd'' hfresh n hn := by
    obtain ⟨n', hn', hle⟩ := h.sequence n hn
    by_cases hold : ∃ d' ∈ db'.outbox.rows, d'.approvalId = d''.approvalId
    · -- the row was inserted in the first part, and moved in the second
      obtain ⟨d', hd', hid⟩ := hold
      obtain ⟨e, he, hkey, -, hdelivered⟩ := h'.keeps d' hd' trivial
      have : e = d'' := Table.eq_of_key_eq he hd'' (hkey.trans hid)
      subst this
      have hseq : e.deliverySequence = d'.deliverySequence := congrArg (·.1) hdelivered.identity
      rw [hseq]
      exact h.fresh d' hd' (fun d hd ↦ hid ▸ hfresh d hd) n hn
    · push Not at hold
      exact hle.trans (h'.fresh d'' hd'' hold n' hn')

theorem Db.step_outboxAdvance (env : Env F M) (db : Db) (op : Op F M) :
    OutboxAdvance db (db.step env op) := by
  obtain ⟨hfences, hstep⟩ := Db.step_outbox env db op
  refine ⟨hfences, hstep.keeps.mono ?_, fun n hn ↦ ?_, fun d' hd' hfresh n hn ↦ ?_⟩
  · rintro d d' (rfl | hmove)
    · exact .refl d'
    · exact hmove.delivered
  · rcases hstep.rows with ⟨-, -, -, -, hnext, -⟩ | ⟨-, hnext⟩ | ⟨d, hn', hnext, -⟩
    · exact ⟨n, hnext.trans hn, le_rfl⟩
    · exact ⟨n, hnext.trans hn, le_rfl⟩
    · refine ⟨_, hnext, ?_⟩
      rcases hn' with ⟨hnone, -⟩ | hsome
      · rw [hnone] at hn
        cases hn
      · rw [hsome, Option.some.injEq] at hn
        omega
  · rcases hstep.rows with ⟨d, hd, d₁, hmove, -, htable⟩ | ⟨hsame, -⟩ | ⟨d, hn', -, -, hrows⟩
    · have hmem : d' ∈ (db.outbox.toTable.put d₁).rows := htable ▸ hd'
      rcases Table.mem_put.1 hmem with ⟨hold, -⟩ | ⟨rfl, -⟩
      · exact absurd rfl (hfresh d' hold)
      · exact absurd hmove.approvalId_eq.symm (hfresh d hd)
    · exact absurd rfl (hfresh d' (hsame ▸ hd'))
    · have hmem : d' ∈ db.outbox.rows ++ [d] := hrows ▸ hd'
      rcases List.mem_append.1 hmem with hold | hnew
      · exact absurd rfl (hfresh d' hold)
      · rw [List.mem_singleton] at hnew
        subst hnew
        rcases hn' with ⟨hnone, -⟩ | hsome
        · rw [hnone] at hn
          cases hn
        · rw [hsome, Option.some.injEq] at hn
          exact hn.ge

/-- **The outbox moves on along every run.** -/
theorem outbox_advances (env : Env F M) (db : Db) (ops : List (Op F M)) :
    OutboxAdvance db (db.after env ops) := by
  induction ops generalizing db with
  | nil => exact .refl db
  | cons op ops ih => exact (Db.step_outboxAdvance env db op).trans (ih (db.step env op))

theorem Sequenced.step (h : Sequenced db) (env : Env F M) (op : Op F M) :
    Sequenced (db.step env op) := by
  obtain ⟨-, hstep⟩ := Db.step_outbox env db op
  intro d' hd'
  rcases hstep.rows with ⟨d, hd, d₁, hmove, hnext, htable⟩ | ⟨hsame, hnext⟩ |
    ⟨d, hn', hnext, -, hrows⟩
  · have hmem : d' ∈ (db.outbox.toTable.put d₁).rows := htable ▸ hd'
    rw [hnext]
    rcases Table.mem_put.1 hmem with ⟨hold, -⟩ | ⟨rfl, -⟩
    · exact h d' hold
    · have hseq : d'.deliverySequence = d.deliverySequence := congrArg (·.1) hmove.identity_eq
      rw [hseq]
      exact h d hd
  · rw [hnext]
    exact h d' (hsame ▸ hd')
  · have hmem : d' ∈ db.outbox.rows ++ [d] := hrows ▸ hd'
    refine ⟨d.deliverySequence + 1, hnext, ?_⟩
    rcases List.mem_append.1 hmem with hold | hnew
    · obtain ⟨n, hn, hlt⟩ := h d' hold
      rcases hn' with ⟨hnone, -⟩ | hsome
      · rw [hnone] at hn
        cases hn
      · rw [hsome, Option.some.injEq] at hn
        omega
    · rw [List.mem_singleton] at hnew
      subst hnew
      exact Nat.lt_succ_self _

theorem sequenced_after (env : Env F M) (ops : List (Op F M)) :
    Sequenced (Db.empty.after env ops) := by
  have hempty : Sequenced Db.empty := fun _ h ↦ absurd h List.not_mem_nil
  exact runs_induction (P := Sequenced) (fun _ op h ↦ h.step env op) hempty ops

/-! ## The deciding transactions -/

/-- The transaction has decided the request, and written one row for it with the decision. -/
def Delivers (db db' : Db) (approvalId : Str) (context : DeliveryContext) (approved : Bool) :
    Prop :=
  (∀ d ∈ db.outbox.rows, d.approvalId ≠ approvalId) ∧
    (∃ d ∈ db'.outbox.rows, d.approvalId = approvalId ∧ d.context = context ∧
      d.approved = approved ∧ d.state = .pending ∧ d.auditState = .pending) ∧
    ∃ r ∈ db'.requests.rows, r.approvalId = approvalId ∧ r.state = decidedState approved

variable {context : DeliveryContext}

variable {H : Host}

/-- A request is decided, and then its delivery inserted. -/
theorem Delivers.of_insertDelivery {nowNs : Int} {current updated : ApprovalRequest}
    (votes : Indexed ApprovalVote ApprovalVote.voteId fun v ↦ (v.approvalId, v.deciderId))
    {approved : Bool} {vote : Option ApprovalVote} (h : insertDelivery H
      { db with requests := db.requests.put (current.withTransition updated), votes := votes } nowNs
      updated context approved vote = .ok db')
    (hcurrent : db.requests.find? updated.approvalId = some current) :
    Delivers db db' updated.approvalId context approved := by
  obtain ⟨hstate, n, decidedAt, outbox, -, hins, rfl⟩ := insertDelivery_eq_ok h
  obtain ⟨hfresh, hrows⟩ := Indexed.rows_of_insert? hins
  obtain ⟨hmem, hid⟩ := Table.find?_eq_some_iff.1 hcurrent
  refine ⟨fun d hd ↦ (hfresh d hd).1,
    ⟨newDelivery H n updated context approved vote (epochNs decidedAt) (microseconds nowNs),
      ?_, rfl, rfl, rfl, rfl, rfl⟩,
    current.withTransition updated, Table.mem_put.2 (.inr ⟨rfl, current, hmem, rfl⟩), hid, hstate⟩
  rw [hrows]
  exact List.mem_append_right _ (List.mem_singleton_self _)

variable {approvalId : Str}

/-- **A vote that decides a request writes its delivery.** -/
theorem recordVote_delivers {nowNs : Int} {vote : ApprovalVote}
    (h : recordVote H db nowNs approvalId vote (some context) = .ok (true, db')) :
    Delivers db db' approvalId context (decide (vote.decision = .approved)) := by
  simp only [recordVote, bind_eq_ok_iff] at h
  obtain ⟨-, -, -, -, current, hcurrent, -, -, h⟩ := h
  obtain ⟨hfind, rfl⟩ := Db.requireRequest_eq_ok hcurrent
  by_cases hterminal : current.state.isTerminal = true
  · rw [if_pos hterminal] at h
    cases h
  · simp only [if_neg hterminal, decideByVote, bind_eq_ok_iff, Prod.exists] at h
    obtain ⟨db₁, ⟨db₂, hrow, db₃, wrote, hwrite, hdelivery⟩, h⟩ := h
    cases h
    obtain ⟨votes, rfl⟩ := recordVoteRow_eq_ok hrow
    -- a vote puts the request into a terminal state, which is written over anything
    have hadmits : transitionAdmits (voted current vote) none current := by
      left
      change vote.decision.state.isTerminal = true
      cases vote.decision <;> rfl
    rcases writeRequestTransition_eq_ok hwrite hfind with ⟨-, -, rfl⟩ | ⟨-, hnot, -⟩
    · have hdelivers := Delivers.of_insertDelivery votes hdelivery hfind
      exact hdelivers
    · exact absurd hadmits hnot

/-- **A cancellation that denies a request writes its delivery.** -/
theorem terminalizePending_delivers {readNs insertNs : Int} {c : Cancellation} {matched : Bool}
    (hc : c.delivery = some context)
    (h : terminalizePending H db readNs insertNs approvalId c = .ok (⟨true, matched⟩, db')) :
    Delivers db db' approvalId context false := by
  simp only [terminalizePending, bind_eq_ok_iff] at h
  obtain ⟨-, -, -, -, current, hcurrent, h⟩ := h
  obtain ⟨hfind, rfl⟩ := Db.requireRequest_eq_ok hcurrent
  by_cases hmatch : c.identity.matchesRequest H current
  · by_cases hpending : current.state = .pendingUser
    · simp only [hmatch, hpending, not_true, ne_eq, if_false, bind_eq_ok_iff, denyPending,
        Prod.exists, require_eq_ok_iff] at h
      obtain ⟨-, -, db₁, ⟨db₂, wrote, hwrite, -, hwrote, hdelivery⟩, h⟩ := h
      cases h
      rw [hc] at hdelivery
      rcases writeRequestTransition_eq_ok hwrite hfind with ⟨-, -, rfl⟩ | ⟨hnot, -⟩
      · have hdelivers := Delivers.of_insertDelivery db.votes hdelivery hfind
        exact hdelivers
      · rw [hnot] at hwrote
        cases hwrote
    · simp only [hmatch, hpending, not_true, not_false_iff, ne_eq, if_false, if_true] at h
      cases h
  · simp only [hmatch, not_false_iff, if_true] at h
    cases h

theorem mem_fences_of_fenceForCancellation {identity : ExpectedIdentity}
    (h : fenceForCancellation H db approvalId identity = .ok (true, db')) :
    approvalId ∈ db'.fences := by
  simp only [fenceForCancellation, bind_eq_ok_iff] at h
  obtain ⟨-, -, current, -, h⟩ := h
  by_cases hmatch : identity.matchesRequest H current
  · simp only [hmatch, not_true, if_false] at h
    cases h
    by_cases hmem : approvalId ∈ db.fences
    · simp [hmem]
    · simp [hmem]
  · simp only [hmatch, not_false_iff, if_true] at h
    cases h

/-! ## The protocol -/

/-- **The outbox protocol**, in every run from a new store.  A vote or a cancellation that decides a
request with a delivery context writes the one row of the request, with its decision.  Rows are
never deleted, and their identity, decision and sequence number never change.  Sequence numbers are
distinct, and go up in the order of the insertions.  The state of a row moves from pending to
published to acknowledged or from pending to quarantined, and to published only when it has been
audited.  A pending approval that is fenced for cancellation is never published. -/
theorem outbox_protocol (env : Env F M) (ops : List (Op F M)) :
    let db := Db.empty.after env ops
    (∀ nowNs approvalId vote context db',
      recordVote env.toHost db nowNs approvalId vote (some context) = .ok (true, db') →
        Delivers db db' approvalId context (decide (vote.decision = .approved))) ∧
    (∀ readNs insertNs approvalId c context matched db', c.delivery = some context →
      terminalizePending env.toHost db readNs insertNs approvalId c = .ok (⟨true, matched⟩, db') →
        Delivers db db' approvalId context false) ∧
    (∀ later, ∀ d ∈ db.outbox.rows, ∃ d' ∈ (db.after env later).outbox.rows,
      d'.identity = d.identity ∧
      ∀ e ∈ (db.after env later).outbox.rows, e.approvalId = d.approvalId → e = d') ∧
    (∀ d ∈ db.outbox.rows, ∀ e ∈ db.outbox.rows, d.deliverySequence = e.deliverySequence → d = e) ∧
    (∀ later, ∀ d ∈ db.outbox.rows, ∀ d' ∈ (db.after env later).outbox.rows,
      (∀ e ∈ db.outbox.rows, e.approvalId ≠ d'.approvalId) →
        d.deliverySequence < d'.deliverySequence) ∧
    (∀ op, ∀ d ∈ db.outbox.rows, ∀ d' ∈ (db.step env op).outbox.rows, d'.approvalId = d.approvalId →
      StateMove d.state d'.state ∧
      (d.state = .pending → d'.state = .published → d.auditState = .ready)) ∧
    (∀ approvalId identity db',
      fenceForCancellation env.toHost db approvalId identity = .ok (true, db') →
        approvalId ∈ db'.fences) ∧
    (∀ later, ∀ d ∈ db.outbox.rows, d.approvalId ∈ db.fences → d.approved = true →
      d.state = .pending → ∀ d' ∈ (db.after env later).outbox.rows, d'.approvalId = d.approvalId →
        d'.state = .pending ∨ d'.state = .quarantined) := by
  refine ⟨fun _ _ _ _ _ h ↦ recordVote_delivers h,
    fun _ _ _ _ _ _ _ hc h ↦ terminalizePending_delivers hc h, fun later d hd ↦ ?_,
    fun d hd e he h ↦ Indexed.eq_of_index_eq hd he h, fun later d hd d' hd' hfresh ↦ ?_,
    fun op d hd d' hd' hid ↦ ?_, fun _ _ _ h ↦ mem_fences_of_fenceForCancellation h,
    fun later d hd hfenced happroved hpending d' hd' hid ↦ ?_⟩
  · obtain ⟨d', hd', hkey, -, hdelivered⟩ := (outbox_advances env _ later).keeps d hd trivial
    exact ⟨d', hd', hdelivered.identity,
      fun e he hid ↦ Table.eq_of_key_eq he hd' (hid.trans hkey.symm)⟩
  · obtain ⟨n, hn, hlt⟩ := sequenced_after env ops d hd
    exact hlt.trans_le ((outbox_advances env _ later).fresh d' hd' hfresh n hn)
  · obtain ⟨e, he, hkey, -, hmove⟩ := (Db.step_outbox env _ op).2.keeps d hd trivial
    have : e = d' := Table.eq_of_key_eq he hd' (hkey.trans hid.symm)
    subst this
    rcases hmove with rfl | hmove
    · exact ⟨.stay _, fun hp h ↦ by rw [hp] at h; cases h⟩
    · exact hmove.state
  · obtain ⟨e, he, hkey, -, hdelivered⟩ := (outbox_advances env _ later).keeps d hd trivial
    have : e = d' := Table.eq_of_key_eq he hd' (hkey.trans hid.symm)
    subst this
    exact hdelivered.fenced hfenced happroved (.inl hpending)

/-- The context of a decision on the sample request. -/
def sampleContext : DeliveryContext where
  taskId := .lit "task"
  controlRunId := .lit "run"
  sessionId := .lit "job"
  channelId := List.replicate 64 (.scalar '0')
  toolCallId := .lit "call"
  nonce := .lit "n"

def sampleVote : ApprovalVote :=
  ⟨.lit "v", .lit "A", .lit "user", none, .approved, none, 1⟩

/-- A vote on a pending request writes its delivery. -/
theorem outbox_protocol_of_vote :
    ∃ db', recordVote sampleEnv.toHost (Db.empty.after sampleEnv
        [.create (sampleRequest (.lit "A") (.lit "call")),
          .transitionState 1 (.lit "A") (sampleTransition .pendingUser)]) 5 (.lit "A") sampleVote
        (some sampleContext) = .ok (true, db') ∧
      ∃ d ∈ db'.outbox.rows, d.approvalId = .lit "A" ∧ d.approved = true := by
  have hvote : ((recordVote sampleEnv.toHost (Db.empty.after sampleEnv
      [.create (sampleRequest (.lit "A") (.lit "call")),
        .transitionState 1 (.lit "A") (sampleTransition .pendingUser)]) 5 (.lit "A") sampleVote
      (some sampleContext)).map Prod.fst).toOption = some true := by decide +kernel
  revert hvote
  cases h : recordVote sampleEnv.toHost (Db.empty.after sampleEnv
      [.create (sampleRequest (.lit "A") (.lit "call")),
        .transitionState 1 (.lit "A") (sampleTransition .pendingUser)]) 5 (.lit "A") sampleVote
      (some sampleContext) with
  | error e =>
    intro hvote
    cases hvote
  | ok reply =>
    obtain ⟨decided, db'⟩ := reply
    intro hvote
    obtain rfl : decided = true := Option.some.inj hvote
    obtain ⟨-, ⟨d, hd, hid, -, happroved, -⟩, -⟩ := (outbox_protocol sampleEnv _).1 _ _ _ _ _ h
    exact ⟨db', rfl, d, hd, hid, happroved⟩

end AgentGateway.ApprovalStore
