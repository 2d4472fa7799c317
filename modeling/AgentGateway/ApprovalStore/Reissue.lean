import AgentGateway.ApprovalStore.SingleUse

/-!
# Chains of re-issued approvals

A parked call that is re-issued again and again leaves a chain of approvals behind.  `Chain` is what
the store looks like then: the newest approval is bound to the call and waits for a decision, every
other one has expired, with a reason that names its successor, and each has a root turn of its own
that holds the nonce it was published under.  `Chain.issue` is the step that adds a link, and
`ChainRun` a sequence of calls, each of which names an approval of the chain.

A call that names the newest approval adds a link, and a call that names its predecessor finds the
newest (`Chain.find`).  A call that names an older approval fails: the reason it expired for names
its own successor, which is not the bound one any more (`Chain.lost`).
-/

namespace AgentGateway.ApprovalStore

open Py List

variable {F M : Type} [PyFloat F] {env : Env F M}

/-! ## Chains -/

/-- An approval of the chain, with the nonce and the root turn it was published under. -/
structure Link where
  approvalId : Str
  nonce : Str
  turnId : Str
deriving DecidableEq

/-- A root call that is parked, with its operands. -/
structure ParkedCall where
  jobId : Str
  toolCallId : Str
  tenantStorageId : Str
  preparedInputJson : List Char
  dispatchContextJson : List Char
  exactBackend : Option Str

/-- The arguments of a re-issue that names a link. -/
def ParkedCall.args (c : ParkedCall) (l : Link) (generation : PolicyGeneration) : ReissueArgs :=
  ⟨l.approvalId, c.jobId, c.toolCallId, l.nonce, l.turnId, c.tenantStorageId, generation⟩

/-- The link is bound to the call, with its operands, and nobody has claimed it. -/
def ParkedCall.isBound (c : ParkedCall) (l : Link) (row : BindingRow) : Prop :=
  row.approvalId = l.approvalId ∧ row.jobId = c.jobId ∧ row.toolCallId = c.toolCallId ∧
    row.tenantStorageId = c.tenantStorageId ∧ row.nonce = l.nonce ∧
    row.executionState = .unclaimed ∧ row.preparedInputJson = c.preparedInputJson ∧
    row.dispatchContextJson = c.dispatchContextJson ∧ row.exactBackend = c.exactBackend

instance (c : ParkedCall) (l : Link) (row : BindingRow) : Decidable (c.isBound l row) :=
  inferInstanceAs (Decidable (_ ∧ _))

/-- The links expired one after the other, each because of the one before it in the list. -/
def Superseded (db : Db) : Str → List Link → Prop
  | _, [] => True
  | newer, l :: older =>
    (∃ r, db.requests.find? l.approvalId = some r ∧ r.state = .expired ∧
      r.decisionReason = some (reissuedAs newer)) ∧ Superseded db l.approvalId older

/-- The turns that hold the nonce of a link. -/
def ParkedCall.turns (c : ParkedCall) (db : Db) (nonce : Str) : List RootTurn :=
  db.turnsHolding c.jobId c.tenantStorageId ⟨c.toolCallId, nonce⟩

/-- The store after a call was parked under the last link and re-issued under the others. -/
structure Chain (db : Db) (c : ParkedCall) (head : Link) (older : List Link) : Prop where
  wellBound : WellBound db
  bound : ∃ row ∈ db.bindings.rows, c.isBound head row
  open_ : ∃ r, db.requests.find? head.approvalId = some r ∧
    (r.undecided ∨ older = [] ∧ r.state = .approved)
  superseded : Superseded db head.approvalId older
  turns : ∀ l ∈ head :: older, ∃ t, c.turns db l.nonce = [t] ∧ t.turnId = l.turnId
  ids : ((head :: older).map Link.approvalId).Nodup
  nonces : ((head :: older).map Link.nonce).Nodup

variable {db : Db} {older : List Link}

variable {newer : Str}

/-- A link behind the newest one has expired, because of one that is in front of it. -/
theorem Superseded.expired {l : Link} (h : Superseded db newer older) (hl : l ∈ older) :
    ∃ r, db.requests.find? l.approvalId = some r ∧ r.state = .expired ∧
      ∃ m ∈ newer :: older.map Link.approvalId, r.decisionReason = some (reissuedAs m) := by
  induction older generalizing newer with
  | nil => cases hl
  | cons l₀ older ih =>
    obtain ⟨⟨r, hr, hexpired, hreason⟩, hrest⟩ := h
    rcases mem_cons.1 hl with rfl | hl
    · exact ⟨r, hr, hexpired, newer, mem_cons_self, hreason⟩
    · obtain ⟨r, hr, hexpired, m, hm, hreason⟩ := ih hrest hl
      exact ⟨r, hr, hexpired, m, mem_cons_of_mem _ hm, hreason⟩

variable {db' : Db}

theorem Superseded.congr (h : Superseded db newer older)
    (hsame : ∀ l ∈ older, db'.requests.find? l.approvalId = db.requests.find? l.approvalId) :
    Superseded db' newer older := by
  induction older generalizing newer with
  | nil => trivial
  | cons l older ih =>
    refine ⟨?_, ih h.2 fun l' hl' ↦ hsame l' (mem_cons_of_mem _ hl')⟩
    rw [hsame l mem_cons_self]
    exact h.1

variable {c : ParkedCall} {head : Link}

/-- Every link of the chain has a request. -/
theorem Chain.request (h : Chain db c head older) :
    ∀ l ∈ head :: older, ∃ r, db.requests.find? l.approvalId = some r := by
  intro l hl
  rcases mem_cons.1 hl with rfl | hl
  · obtain ⟨r, hr, -⟩ := h.open_
    exact ⟨r, hr⟩
  · obtain ⟨r, hr, -⟩ := h.superseded.expired hl
    exact ⟨r, hr⟩

/-- The bound row is the one of the call. -/
theorem Chain.bindingOfCall (h : Chain db c head older) :
    ∃ row, db.bindingOfCall (c.jobId, c.toolCallId) = some row ∧ c.isBound head row := by
  obtain ⟨row, hrow, hbound⟩ := h.bound
  exact ⟨row, Db.bindingOfCall_eq_some_iff.2 ⟨hrow, Prod.ext hbound.2.1 hbound.2.2.1⟩, hbound⟩

/-! ## Naming an older approval -/

/-- **The predecessor of the newest approval leads to it.** -/
theorem Chain.find (env : Env F M) {previous : Link} (h : Chain db c head (previous :: older))
    (nowNs turnNs expiryNs : Int) (fresh : FreshNames) (generation : PolicyGeneration) :
    ∃ r, r.approvalId = head.approvalId ∧
      reissue env db nowNs turnNs expiryNs fresh (c.args previous generation) =
        .ok (⟨r, head.nonce, head.turnId, false⟩, db) := by
  obtain ⟨row, hrow, hid, -, -, htenant, hnonce, -⟩ := h.bindingOfCall
  obtain ⟨⟨p, hp, hexpired, hreason⟩, -⟩ := h.superseded
  obtain ⟨r, hr, -⟩ := h.open_
  obtain ⟨t, ht, hturn⟩ := h.turns head mem_cons_self
  refine ⟨r, (Table.find?_eq_some_iff.1 hr).2, ?_⟩
  have hsuccessor : reissuedSuccessor db p (c.args previous generation) =
      some ⟨r, head.nonce, head.turnId, false⟩ := by
    rw [reissuedSuccessor_eq hrow htenant, hid, if_neg (not_not.2 hreason), hnonce]
    rw [ParkedCall.turns] at ht
    simp only [ParkedCall.args, ht, hr, Option.map_some, hturn]
  simp only [reissue, bind_eq_ok_iff, requireSome_eq_ok_iff]
  refine ⟨p, hp, ?_⟩
  rw [if_pos hexpired, hsuccessor]

variable {l : Link}

/-- The reason an approval expired for names its own successor, so only the predecessor of the bound
approval is recognised. -/
theorem Superseded.reason {r : ApprovalRequest} (h : Superseded db newer older) (hl : l ∈ older)
    (hr : db.requests.find? l.approvalId = some r) (hhead : older.head? ≠ some l)
    (hnewer : newer ∉ older.map Link.approvalId) :
    r.decisionReason ≠ some (reissuedAs newer) := by
  cases older with
  | nil => cases hl
  | cons l₀ older =>
    have hl' : l ∈ older := (mem_cons.1 hl).resolve_left fun heq ↦ hhead (congrArg some heq.symm)
    -- whoever made the link expire is in the chain behind the newest approval
    obtain ⟨r', hr', -, m, hm, hreason⟩ := h.2.expired hl'
    obtain rfl : r = r' := Option.some.inj (hr.symm.trans hr')
    rw [hreason]
    intro hsame
    obtain rfl := append_cancel_left (Option.some.inj hsame)
    exact hnewer hm

/-- **An approval that is older than that leads nowhere**: the call fails. -/
theorem Chain.lost (h : Chain db c head older) (hl : l ∈ older) (hhead : older.head? ≠ some l)
    (nowNs turnNs expiryNs : Int) (fresh : FreshNames) (generation : PolicyGeneration)
    (reply : Reissued × Db) :
    reissue env db nowNs turnNs expiryNs fresh (c.args l generation) ≠ .ok reply := by
  intro hreissue
  obtain ⟨row, hrow, hid, -, -, htenant, hnonce, -⟩ := h.bindingOfCall
  simp only [reissue, bind_eq_ok_iff, requireSome_eq_ok_iff] at hreissue
  obtain ⟨r, hr, hreissue⟩ := hreissue
  have hreason : r.decisionReason ≠ some (reissuedAs row.approvalId) := by
    rw [hid]
    exact h.superseded.reason hl hr hhead (nodup_cons.1 (map_cons ▸ h.ids)).1
  have hnone : (if r.state = .expired then reissuedSuccessor db r (c.args l generation) else none) =
      none := by
    by_cases hexpired : r.state = .expired
    · rw [if_pos hexpired, reissuedSuccessor_eq hrow htenant, if_pos hreason]
    · rw [if_neg hexpired]
  rw [hnone] at hreissue
  -- the binding has the nonce of the newest approval
  simp only [issueSuccessor, readExecutableBinding, bind_eq_ok_iff, requireSome_eq_ok_iff,
    require_eq_ok_iff, Prod.exists] at hreissue
  obtain ⟨-, -, -, -, -, -, ⟨row', hrow', -, -, -, hnonce', -⟩, -⟩ := hreissue
  obtain rfl : row = row' := Option.some.inj (hrow.symm.trans hrow')
  have hsame : head.nonce = l.nonce := hnonce.symm.trans hnonce'
  have hmem : head.nonce ∈ older.map Link.nonce := hsame ▸ mem_map_of_mem hl
  exact (nodup_cons.1 (map_cons ▸ h.nonces)).1 hmem

/-! ## Naming the newest approval -/

variable {nowNs turnNs expiryNs : Int}

section Issue

variable {db : Db} {c : ParkedCall} {head : Link} {older : List Link} {fresh : FreshNames}

/-- Only the bound row stands in the way of a row for the call. -/
theorem Chain.boundRequests (h : Chain db c head older) {row newRow : BindingRow}
    {request : ApprovalRequest} {requests : Table ApprovalRequest ApprovalRequest.approvalId}
    {rootTurns : Table RootTurn fun t ↦ (t.jobId, t.turnId)} (hrow : row ∈ db.bindings.rows)
    (hbound : c.isBound head row) (hcall : newRow.call = (c.jobId, c.toolCallId))
    (hnew : db.requests.find? newRow.approvalId = none)
    (hrequest : requests.find? head.approvalId = some request) :
    ({ db with requests, rootTurns } : Db).boundRequests newRow = [(row, request)] := by
  have hrowCall : row.call = newRow.call := hcall ▸ Prod.ext hbound.2.1 hbound.2.2.1
  have hfilter : db.bindings.rows.filter newRow.clashes = [row] := by
    refine Table.filter_eq_singleton hrow fun x hx ↦ ?_
    rw [BindingRow.clashes, decide_eq_true_eq]
    constructor
    · rintro (hid | hsame)
      · obtain ⟨r, hr, -⟩ := h.wellBound.find? hx
        rw [hid, hnew] at hr
        cases hr
      · exact Indexed.eq_of_index_eq hx hrow (hsame.trans hrowCall.symm)
    · rintro rfl
      exact .inr hrowCall
  simp only [Db.boundRequests, Db.bindingsFor, hfilter, filterMap_cons, filterMap_nil]
  rw [hbound.1, hrequest]
  rfl

/-- The bound approval is superseded, and the new nonce is published. -/
theorem parkScan_of_chain {db₁ : Db} {policyGenerationRef : Option Str} {row newRow : BindingRow}
    {created request : ApprovalRequest} {published : Str} {superseded : List Str}
    (hopen : request.undecided ∨ request.state = .approved)
    (hne : row.approvalId ≠ newRow.approvalId)
    (h : parkScan db₁ policyGenerationRef newRow created [(row, request)] newRow.nonce =
      .ok (published, superseded)) : published = newRow.nonce ∧ superseded = [row.approvalId] := by
  simp only [parkScan, bind_eq_ok_iff, Prod.exists] at h
  obtain ⟨o, ho, published', ids, hrest, h⟩ := h
  cases hrest
  rcases parkOver_cases ho hne with rfl | ⟨rfl, hrefused⟩
  · cases h
    exact ⟨by simp, by simp⟩
  · have hopen' : request.state = .created ∨ request.state = .pendingUser ∨
        request.state = .approved := by
      rcases hopen with (hs | hs) | hs
      · exact .inl hs
      · exact .inr (.inl hs)
      · exact .inr (.inr hs)
    rcases hopen' with hs | hs | hs <;> rw [hs] at hrefused <;> simp at hrefused

/-- The turns that hold a nonce, after a turn was appended that holds one. -/
theorem ParkedCall.turns_append (c : ParkedCall) (nonce' : Str) {db₁ : Db} {t : RootTurn}
    {nonce : Str} (hrows : db₁.rootTurns.rows = db.rootTurns.rows ++ [t]) (hjob : t.jobId = c.jobId)
    (htenant : t.tenantStorageId = c.tenantStorageId)
    (hrefs : t.executableRefs = [⟨c.toolCallId, nonce⟩]) :
    c.turns db₁ nonce' = c.turns db nonce' ++ if nonce' = nonce then [t] else [] := by
  rw [ParkedCall.turns, ParkedCall.turns, Db.turnsHolding, Db.turnsHolding, hrows, filter_append,
    flatMap_append]
  congr 1
  rw [filter_cons_of_pos (by simp [hjob, htenant]), filter_nil, flatMap_cons,
    flatMap_nil, append_nil, hrefs]
  by_cases hsame : nonce' = nonce
  · simp [hsame]
  · have : ¬ nonce = nonce' := fun h ↦ hsame h.symm
    simp [hsame, this]

/-- What a re-issue that names the newest approval leaves behind: a request under the new name that
waits for the user, the old one expired, the binding moved, and a new root turn that holds the
nonce. -/
structure Issued (c : ParkedCall) (head : Link) (fresh : FreshNames) (db db' : Db) : Prop where
  unused : db.requests.find? fresh.approvalId = none
  open_ : ∃ r, db'.requests.find? fresh.approvalId = some r ∧ r.state = .pendingUser
  expired : ∃ r, db'.requests.find? head.approvalId = some r ∧ r.state = .expired ∧
    r.decisionReason = some (reissuedAs fresh.approvalId)
  others : ∀ id, id ≠ fresh.approvalId → id ≠ head.approvalId →
    db'.requests.find? id = db.requests.find? id
  bound : ∃ row ∈ db'.bindings.rows, c.isBound ⟨fresh.approvalId, fresh.nonce, fresh.turnId⟩ row
  turn : ∃ t, t.jobId = c.jobId ∧ t.turnId = fresh.turnId ∧
    t.tenantStorageId = c.tenantStorageId ∧ t.executableRefs = [⟨c.toolCallId, fresh.nonce⟩] ∧
    db'.rootTurns.rows = db.rootTurns.rows ++ [t]

/-- The table after parking moved a request to its call. -/
theorem find?_of_moved {requests moved : Table ApprovalRequest ApprovalRequest.approvalId}
    {r : ApprovalRequest} {toolCallId : Str} (hr : requests.find? r.approvalId = some r)
    (hmoved : (r.toolCallId = toolCallId ∧ moved = requests) ∨
      (r.undecided ∧ moved = requests.put { r with toolCallId })) :
    moved.find? r.approvalId = some { r with toolCallId } ∧
      ∀ id, id ≠ r.approvalId → moved.find? id = requests.find? id := by
  rcases hmoved with ⟨rfl, rfl⟩ | ⟨-, rfl⟩
  · exact ⟨hr, fun _ _ ↦ rfl⟩
  · exact ⟨Table.find?_put_self (r := { r with toolCallId }) hr,
      fun _ hid ↦ Table.find?_put_of_ne (r := { r with toolCallId }) hid⟩

/-- Parking the call under a new approval makes the bound one expire and takes its place. -/
theorem Chain.parks (h : Chain db c head older)
    {requests₁ : Table ApprovalRequest ApprovalRequest.approvalId}
    {rootTurns : Table RootTurn fun t ↦ (t.jobId, t.turnId)} {created : ApprovalRequest}
    {payload : Payload F} {published : Str} {policyGenerationRef : Option Str}
    (hcall : payload.row.call = (c.jobId, c.toolCallId))
    (hnew : db.requests.find? payload.row.approvalId = none)
    (hcreated : requests₁.find? payload.row.approvalId = some created)
    (hkept : ∀ id, id ≠ payload.row.approvalId → requests₁.find? id = db.requests.find? id)
    (hpark : parkExecutableBinding env { db with requests := requests₁, rootTurns } nowNs payload
      policyGenerationRef = .ok (published, db')) :
    published = payload.row.nonce ∧ ∃ requests bindings digest,
      db' = { db with requests, rootTurns, bindings } ∧
      { payload.row with requestArgsHash := created.argsHash, operandDigest := digest } ∈
        bindings.rows ∧
      (∃ r, requests.find? payload.row.approvalId = some r ∧ r.state = created.state) ∧
      (∃ r, requests.find? head.approvalId = some r ∧ r.state = .expired ∧
        r.decisionReason = some (reissuedAs payload.row.approvalId)) ∧
      ∀ id, id ≠ payload.row.approvalId → id ≠ head.approvalId →
        requests.find? id = db.requests.find? id := by
  obtain ⟨row, hrow, hbound⟩ := h.bound
  obtain ⟨request, hrequest, hopen⟩ := h.open_
  have hopen' : request.undecided ∨ request.state = .approved := hopen.imp_right And.right
  obtain ⟨-, hheadId⟩ := Table.find?_eq_some_iff.1 hrequest
  have hne : head.approvalId ≠ payload.row.approvalId := by
    intro hsame
    rw [hsame, hnew] at hrequest
    cases hrequest
  obtain ⟨created', superseded, digest, newRow, moved, bindings, hfindCreated, hscan, rfl, -,
    hmoved, hins, hexpire⟩ := parkExecutableBinding_eq_ok hpark
  obtain rfl : created = created' := Option.some.inj (hcreated.symm.trans hfindCreated)
  rw [h.boundRequests hrow hbound hcall hnew ((hkept _ hne).trans hrequest)] at hscan
  obtain ⟨rfl, rfl⟩ := parkScan_of_chain hopen' (hbound.1 ▸ hne) hscan
  obtain ⟨-, hcreatedId⟩ := Table.find?_eq_some_iff.1 hcreated
  obtain ⟨hm, hmovedKept⟩ := find?_of_moved (hcreatedId ▸ hcreated) hmoved
  rw [hcreatedId] at hmovedKept
  have hmovedHead : moved.find? request.approvalId = some request := by
    rw [hheadId, hmovedKept _ hne, hkept _ hne, hrequest]
  rw [hbound.1, ← hheadId] at hexpire
  obtain rfl := expireAll_singleton hexpire hmovedHead
  refine ⟨rfl, _, bindings, digest, rfl, ?_, ?_, ?_, fun id hid hid' ↦ ?_⟩
  · rw [(Indexed.rows_of_insert? hins).2]
    exact mem_append_right _ mem_cons_self
  · refine ⟨{ created with toolCallId := payload.row.toolCallId }, ?_, rfl⟩
    rw [Table.find?_put_of_ne (hheadId ▸ hne.symm), ← hcreatedId]
    exact hm
  · refine ⟨request.withTransition
      (expiredBy request (microseconds nowNs) (reissuedAs payload.row.approvalId)), ?_, rfl, rfl⟩
    rw [← hheadId]
    exact Table.find?_put_self hmovedHead
  · rw [Table.find?_put_of_ne (hheadId ▸ hid'), hmovedKept id hid, hkept id hid]

/-- **A re-issue that names the newest approval**, under a turn that is new. -/
theorem Chain.issued (h : Chain db c head older) {generation : PolicyGeneration} {issued : Reissued}
    (hturn : db.rootTurns.find? (c.jobId, fresh.turnId) = none)
    (hreissue : reissue env db nowNs turnNs expiryNs fresh (c.args head generation) =
      .ok (issued, db')) :
    issued.created = true ∧ issued.successor.approvalId = fresh.approvalId ∧
      issued.nonce = fresh.nonce ∧ issued.turnId = fresh.turnId ∧ Issued c head fresh db db' := by
  obtain ⟨row, hrow, hbound⟩ := h.bound
  obtain ⟨request, hrequest, hopen⟩ := h.open_
  have hnotExpired : request.state ≠ .expired := by
    rcases hopen with (hs | hs) | ⟨-, hs⟩ <;> rw [hs] <;> decide
  simp only [reissue, bind_eq_ok_iff, requireSome_eq_ok_iff] at hreissue
  obtain ⟨request', hrequest', hreissue⟩ := hreissue
  obtain rfl : request = request' := Option.some.inj (hrequest.symm.trans hrequest')
  rw [if_neg hnotExpired] at hreissue
  simp only [issueSuccessor, bind_eq_ok_iff, Prod.exists] at hreissue
  obtain ⟨turn, hturn', record, hrecord, binding, current, hread, db₁, hcreate, db₂, hroot, call,
    hcall, payload, hpayload, published, db₃, hpark, db₄, hlink, parked, hparked, db₅,
    wrote, hwrite, hret⟩ := hreissue
  cases hret
  -- the new request
  obtain ⟨requests₁, hins₁, rfl⟩ := create_eq_ok hcreate
  obtain ⟨hunused, hcreated⟩ := Table.find?_insert?_self hins₁
  -- the new root turn
  rw [requireSome_eq_ok_iff, Option.filter_eq_some_iff, decide_eq_true_eq] at hturn'
  obtain ⟨hturnFind, hturnTenant⟩ := hturn'
  obtain ⟨-, hturnKey⟩ := Table.find?_eq_some_iff.1 hturnFind
  obtain ⟨hrecordJob, hrecordTenant⟩ := RootTurn.args_eq_some (requireSome_eq_ok_iff.1 hrecord)
  have hjob : record.jobId = c.jobId := hrecordJob.trans (congrArg Prod.fst hturnKey)
  have hnewTurn : db.rootTurns.find? (record.jobId, fresh.turnId) = none := by rw [hjob, hturn]
  obtain ⟨t, rootTurns, hinsTurn, htJob, htTurn, htTenant, htRefs, rfl⟩ :=
    recordRootTurn_new hroot hnewTurn
  -- the operands of the binding are written as they were read
  simp only [readExecutableBinding, bind_eq_ok_iff, requireSome_eq_ok_iff] at hread
  obtain ⟨row', hrow', -, -, -, -, _, -, _, -, binding', hbinding, hread⟩ := hread
  cases hread
  have hsameRow : row' = row := by
    obtain ⟨hmem, hcall'⟩ := Db.bindingOfCall_eq_some_iff.1 hrow'
    exact Indexed.eq_of_index_eq hmem hrow (hcall'.trans (Prod.ext hbound.2.1 hbound.2.2.1).symm)
  subst hsameRow
  obtain ⟨hprepared, hdispatch, hbackend⟩ := BindingRow.binding_operands hbinding
  obtain ⟨hcallInput, hcallBackend⟩ := PreparedToolCall.make_eq_ok hcall
  obtain ⟨hpUnclaimed, hpId, hpJob, hpCall, hpNonce, hpTenant, hpBackend, hpPrepared, hpDispatch⟩ :=
    executableBindingPayload_eq_ok hpayload
  dsimp only at hpId hpJob hpCall hpNonce hpTenant hpBackend hpPrepared hpDispatch
  have hpInput : payload.row.preparedInputJson = row'.preparedInputJson := by
    rw [hcallInput] at hpPrepared
    exact Option.some.inj (hpPrepared.symm.trans hprepared)
  have hpContext : payload.row.dispatchContextJson = row'.dispatchContextJson :=
    Option.some.inj (hpDispatch.symm.trans hdispatch)
  -- the old approval expires
  obtain ⟨rfl, requests₂, bindings, digest, rfl, hnewRow, ⟨r, hr, hrState⟩, hexpired, hothers⟩ :=
    h.parks (Prod.ext hpJob hpCall) (hpId ▸ hunused) (hpId ▸ hcreated)
      (fun id hid ↦ Table.find?_insert?_of_ne hins₁ (hpId ▸ hid)) hpark
  rw [hpId] at hr hexpired hothers
  -- the new turn holds the published nonce
  rw [hjob] at htJob
  have htFind : rootTurns.find? (c.jobId, fresh.turnId) = some t := by
    have hself := (Table.find?_insert?_self hinsTurn).2
    rwa [htJob, htTurn] at hself
  obtain rfl := linkRootTurn_new hlink htFind htRefs
  -- the new request leaves `created`
  obtain ⟨hparkedFind, hparkedId⟩ := Db.requireRequest_eq_ok hparked
  obtain rfl : r = parked := Option.some.inj (hr.symm.trans hparkedFind)
  rcases writeRequestTransition_eq_ok hwrite (hparkedId ▸ hparkedFind) with ⟨-, -, rfl⟩ |
    ⟨-, hnot, -⟩
  swap
  · exact absurd (.inr (by rw [hrState]; rfl)) hnot
  have hne : head.approvalId ≠ fresh.approvalId := by
    intro hsame
    rw [hsame] at hrequest
    exact absurd (hrequest.symm.trans hunused) (by simp)
  have hfresh : (r.withTransition (pendingSuccessor r request (microseconds nowNs))).approvalId =
      fresh.approvalId := hparkedId
  have hsuccessor := Table.find?_put_self (r := r.withTransition
    (pendingSuccessor r request (microseconds nowNs))) (hparkedId.symm ▸ hr)
  refine ⟨rfl, hparkedId, hpNonce, rfl, hunused, ⟨_, hfresh ▸ hsuccessor, rfl⟩, ?_, ?_, ?_, ?_⟩
  · obtain ⟨p, hp, hstate⟩ := hexpired
    exact ⟨p, (Table.find?_put_of_ne (hfresh ▸ hne)).trans hp, hstate⟩
  · intro id hid hid'
    exact (Table.find?_put_of_ne (hfresh ▸ hid)).trans (hothers id hid hid')
  · exact ⟨_, hnewRow, hpId, hpJob, hpCall, hpTenant, hpNonce, hpUnclaimed,
      hpInput.trans hbound.2.2.2.2.2.2.1, hpContext.trans hbound.2.2.2.2.2.2.2.1,
      (hpBackend.trans (hcallBackend.trans hbackend)).trans hbound.2.2.2.2.2.2.2.2⟩
  · refine ⟨t.withRef ⟨c.toolCallId, payload.row.nonce⟩, htJob, htTurn,
      htTenant.trans (hrecordTenant.trans hturnTenant), ?_, Table.rows_put_insert? hinsTurn rfl⟩
    rw [RootTurn.withRef, htRefs, hpNonce]
    rfl

/-- The names were not used before: no turn of the job has the identifier, and none holds the
nonce. -/
def FreshNames.isNew (fresh : FreshNames) (db : Db) (c : ParkedCall) : Prop :=
  db.rootTurns.find? (c.jobId, fresh.turnId) = none ∧ c.turns db fresh.nonce = []

instance (fresh : FreshNames) (db : Db) (c : ParkedCall) : Decidable (fresh.isNew db c) :=
  inferInstanceAs (Decidable (_ ∧ _))

/-- The link a re-issue adds. -/
def Reissued.link (issued : Reissued) : Link :=
  ⟨issued.successor.approvalId, issued.nonce, issued.turnId⟩

/-- **Naming the newest approval adds a link to the chain.** -/
theorem Chain.issue (h : Chain db c head older) {generation : PolicyGeneration} {issued : Reissued}
    (hnew : fresh.isNew db c)
    (hreissue : reissue env db nowNs turnNs expiryNs fresh (c.args head generation) =
      .ok (issued, db')) :
    issued.created = true ∧ Chain db' c issued.link (head :: older) := by
  obtain ⟨hcreated, hid, hnonce, hturnId, hissued⟩ := h.issued hnew.1 hreissue
  obtain ⟨hunused, ⟨r, hr, hpending⟩, hexpired, hothers, hbound, t, htJob, htTurn, htTenant, htRefs,
    hrows⟩ := hissued
  have hlink : issued.link = ⟨fresh.approvalId, fresh.nonce, fresh.turnId⟩ := by
    rw [Reissued.link, hid, hnonce, hturnId]
  have hidFresh : fresh.approvalId ∉ (head :: older).map Link.approvalId := by
    intro hmem
    obtain ⟨l, hl, hsame⟩ := mem_map.1 hmem
    obtain ⟨r', hr'⟩ := h.request l hl
    rw [hsame, hunused] at hr'
    cases hr'
  have hnonceFresh : fresh.nonce ∉ (head :: older).map Link.nonce := by
    intro hmem
    obtain ⟨l, hl, hsame⟩ := mem_map.1 hmem
    obtain ⟨t', ht', -⟩ := h.turns l hl
    rw [hsame, hnew.2] at ht'
    cases ht'
  have hturns := fun nonce ↦ c.turns_append nonce hrows htJob htTenant htRefs
  refine ⟨hcreated, ?_⟩
  rw [hlink]
  refine ⟨(reissue_keeps hreissue h.wellBound).1, hbound, ⟨r, hr, .inl (.inr hpending)⟩, ?_,
    ?_, ?_, ?_⟩
  · refine ⟨hexpired, h.superseded.congr fun l hl ↦ hothers _ ?_ ?_⟩
    · rintro hsame
      exact hidFresh (hsame ▸ mem_map_of_mem (mem_cons_of_mem _ hl))
    · rintro hsame
      exact (nodup_cons.1 (map_cons ▸ h.ids)).1 (hsame ▸ mem_map_of_mem hl)
  · intro l hl
    rcases mem_cons.1 hl with rfl | hl
    · refine ⟨t, ?_, htTurn⟩
      rw [hturns, hnew.2, if_pos rfl, nil_append]
    · obtain ⟨t', ht', htId⟩ := h.turns l hl
      refine ⟨t', ?_, htId⟩
      have hne : l.nonce ≠ fresh.nonce := by
        rintro hsame
        exact hnonceFresh (hsame ▸ mem_map_of_mem hl)
      rw [hturns, ht', if_neg hne, append_nil]
  · exact nodup_cons.2 ⟨hidFresh, h.ids⟩
  · exact nodup_cons.2 ⟨hnonceFresh, h.nonces⟩

end Issue

/-! ## Sequences of re-issues -/

/-- The states a parked call goes through while its approvals are issued again, each time under a
generation that has been recorded and naming any approval of the chain.  A call that fails leaves
the store as it is. -/
inductive ChainRun (env : Env F M) (c : ParkedCall) (parked : Db) (original : Link) :
    Db → Link → List Link → Prop
  | start : ChainRun env c parked original parked original []
  | generation {db db' : Db} {head : Link} {older : List Link} {g : PolicyGeneration}
      (hrun : ChainRun env c parked original db head older)
      (hrecord : recordPolicyGeneration db g = .ok db') :
        ChainRun env c parked original db' head older
  | found {db db' : Db} {head l : Link} {older : List Link} {nowNs turnNs expiryNs : Int}
      {fresh : FreshNames} {g : PolicyGeneration} {issued : Reissued}
      (hrun : ChainRun env c parked original db head older) (hl : l ∈ head :: older)
      (hnew : fresh.isNew db c) (hcreated : issued.created = false)
      (hreissue : reissue env db nowNs turnNs expiryNs fresh (c.args l g) = .ok (issued, db')) :
      ChainRun env c parked original db' head older
  | issued {db db' : Db} {head l : Link} {older : List Link} {nowNs turnNs expiryNs : Int}
      {fresh : FreshNames} {g : PolicyGeneration} {issued : Reissued}
      (hrun : ChainRun env c parked original db head older) (hl : l ∈ head :: older)
      (hnew : fresh.isNew db c) (hcreated : issued.created = true)
      (hreissue : reissue env db nowNs turnNs expiryNs fresh (c.args l g) = .ok (issued, db')) :
      ChainRun env c parked original db' issued.link (head :: older)

/-- A call that succeeds names the newest approval or its predecessor. -/
theorem Chain.named (h : Chain db c head older) (hl : l ∈ head :: older) {fresh : FreshNames}
    {g : PolicyGeneration} {issued : Reissued} (hnew : fresh.isNew db c)
    (hreissue : reissue env db nowNs turnNs expiryNs fresh (c.args l g) = .ok (issued, db')) :
    (issued.created = true ∧ Chain db' c issued.link (head :: older)) ∨
      (issued.created = false ∧ db' = db) := by
  rcases mem_cons.1 hl with rfl | hl
  · exact .inl (h.issue hnew hreissue)
  · by_cases hhead : older.head? = some l
    · obtain ⟨rest, rfl⟩ := head?_eq_some_iff.1 hhead
      obtain ⟨r, -, hfound⟩ := h.find env nowNs turnNs expiryNs fresh g
      rw [hfound] at hreissue
      cases hreissue
      exact .inr ⟨rfl, rfl⟩
    · exact absurd hreissue (h.lost hl hhead nowNs turnNs expiryNs fresh g _)

theorem ChainRun.chain {parked : Db} {original : Link} (hparked : Chain parked c original [])
    (hrun : ChainRun env c parked original db head older) :
    Chain db c head older := by
  induction hrun with
  | start => exact hparked
  | generation _ hrecord ih =>
    obtain ⟨generations, rfl⟩ := recordPolicyGeneration_eq_ok hrecord
    exact ⟨ih.wellBound, ih.bound, ih.open_, ih.superseded.congr fun _ _ ↦ rfl, ih.turns, ih.ids,
      ih.nonces⟩
  | found _ hl hnew hcreated hreissue ih =>
    rcases ih.named hl hnew hreissue with ⟨hcreated', -⟩ | ⟨-, rfl⟩
    · rw [hcreated] at hcreated'
      cases hcreated'
    · exact ih
  | issued _ hl hnew hcreated hreissue ih =>
    rcases ih.named hl hnew hreissue with ⟨-, hchain⟩ | ⟨hcreated', -⟩
    · exact hchain
    · rw [hcreated] at hcreated'
      cases hcreated'

/-- **What a chain of re-issues keeps.**  The newest approval of the chain is bound to the call,
with the operands the call was parked with, and waits for a decision; every other one has expired.
A call that names one of those returns the newest approval, its nonce and its turn if it names the
predecessor of the newest one, and only then. -/
theorem reissued_chain {c : ParkedCall} {parked db : Db} {original head : Link} {older : List Link}
    (hparked : Chain parked c original []) (hrun : ChainRun env c parked original db head older) :
    (∃ row ∈ db.bindings.rows, c.isBound head row) ∧
      (older ≠ [] → ∃ r, db.requests.find? head.approvalId = some r ∧ r.undecided) ∧
      (∀ l ∈ older, ∃ r, db.requests.find? l.approvalId = some r ∧ r.state = .expired) ∧
      ∀ (nowNs turnNs expiryNs : Int) (fresh : FreshNames) (g : PolicyGeneration), ∀ l ∈ older,
        ((∃ r, r.approvalId = head.approvalId ∧
          reissue env db nowNs turnNs expiryNs fresh (c.args l g) =
            .ok (⟨r, head.nonce, head.turnId, false⟩, db)) ↔ older.head? = some l) := by
  have h := hrun.chain hparked
  refine ⟨h.bound, fun hne ↦ ?_, fun l hl ↦ ?_, fun nowNs turnNs expiryNs fresh g l hl ↦ ⟨?_, ?_⟩⟩
  · obtain ⟨r, hr, hopen | ⟨hnil, -⟩⟩ := h.open_
    · exact ⟨r, hr, hopen⟩
    · exact absurd hnil hne
  · obtain ⟨r, hr, hexpired, -⟩ := h.superseded.expired hl
    exact ⟨r, hr, hexpired⟩
  · rintro ⟨r, -, hreissue⟩
    by_contra hhead
    exact h.lost hl hhead nowNs turnNs expiryNs fresh g _ hreissue
  · intro hhead
    obtain ⟨rest, rfl⟩ := head?_eq_some_iff.1 hhead
    exact h.find env nowNs turnNs expiryNs fresh g

/-- A call without arguments. -/
def sampleCall : ParkedCall :=
  ⟨.lit "job", .lit "call", .lit "user", "\x7b\x7d".toList, "\x7b\x7d".toList, none⟩

def sampleGeneration (version : String) : PolicyGeneration :=
  policyGeneration sampleEnv (.lit "policy") (.lit version) (.lit "bundle")

def sampleTurn (turnId : String) : RootTurnArgs NumToken where
  jobId := .lit "job"
  turnId := .lit turnId
  tenantStorageId := .lit "user"
  capabilityBind := .null
  credentialGenerationRef := none
  effectiveGrant := .null
  researchBinding := .null
  selectionSnapshot := .null
  selectionProvenance := .null
  approvalRouteKind := .lit "root"
  policyGenerationRef := (sampleGeneration "1").generationRef
  createdAt := none

/-- The link with the given number. -/
def sampleLink (n : String) : Link :=
  ⟨.lit ("A" ++ n), .lit ("n" ++ n), .lit ("t" ++ n)⟩

def sampleNames (n : String) : FreshNames :=
  ⟨.lit ("A" ++ n), .lit ("t" ++ n), .lit ("n" ++ n)⟩

/-- The call is parked under the first approval, and the generations that follow are recorded. -/
def parkedOps : List (Op NumToken Unit) :=
  [.recordPolicyGeneration (sampleGeneration "1"),
    .recordPolicyGeneration (sampleGeneration "2"),
    .recordPolicyGeneration (sampleGeneration "3"),
    .recordPolicyGeneration (sampleGeneration "4"),
    .recordRootTurn 0 (sampleTurn "t0"),
    .create (sampleRequest (.lit "A0") (.lit "call")),
    .park 0 (sampleArgs (.lit "A0") (.lit "call") (.lit "n0"))
      (some (sampleGeneration "1").generationRef),
    .linkRootTurn (.lit "job") (.lit "t0") (.lit "call") (.lit "n0") (.lit "user"),
    .transitionState 1 (.lit "A0") (sampleTransition .pendingUser)]

theorem parkedOps_chain : Chain (Db.empty.after sampleEnv parkedOps) sampleCall (sampleLink "0")
    [] where
  wellBound := (bindings_captured sampleEnv Db.empty parkedOps fun _ hrow ↦ nomatch hrow).1
  bound := by decide +kernel
  open_ := by
    have h : ((Db.empty.after sampleEnv parkedOps).requests.find? (.lit "A0")).any
        (fun r ↦ decide r.undecided) = true := by decide +kernel
    obtain ⟨r, hr, hundecided⟩ := (Option.any_eq_true _ _).1 h
    exact ⟨r, hr, .inl (of_decide_eq_true hundecided)⟩
  superseded := trivial
  turns := by
    intro l hl
    obtain rfl := mem_singleton.1 hl
    have h : (sampleCall.turns (Db.empty.after sampleEnv parkedOps) (sampleLink "0").nonce).map
        (·.turnId) = [(sampleLink "0").turnId] := by decide +kernel
    obtain ⟨t, ht, hturn⟩ := map_eq_singleton_iff.1 h
    exact ⟨t, ht, hturn⟩
  ids := by decide +kernel
  nonces := by decide +kernel

/-- The first re-issue of the call. -/
theorem reissued_chain_of_first : ∃ db head,
    ChainRun sampleEnv sampleCall (Db.empty.after sampleEnv parkedOps) (sampleLink "0") db head
      [sampleLink "0"] ∧
    (∃ r, db.requests.find? head.approvalId = some r ∧ r.undecided) := by
  have h : (reissue sampleEnv (Db.empty.after sampleEnv parkedOps) 2 2 2 (sampleNames "1")
      (sampleCall.args (sampleLink "0") (sampleGeneration "2"))).toOption.any
      (fun reply ↦ reply.1.created) = true := by decide +kernel
  obtain ⟨⟨issued, db⟩, hreissue, hcreated⟩ := exists_ok_of_any h
  have hrun : ChainRun sampleEnv sampleCall (Db.empty.after sampleEnv parkedOps) (sampleLink "0") db
      issued.link [sampleLink "0"] :=
    .issued .start mem_cons_self (by decide +kernel) hcreated hreissue
  exact ⟨db, issued.link, hrun, (reissued_chain parkedOps_chain hrun).2.1 (by simp)⟩

/-- **The approval a call was parked under is lost after two re-issues**: a call that names it
fails, although the newest approval waits for a decision. -/
theorem original_approval_lost :
    let db := Db.empty.after sampleEnv (parkedOps ++
      [.reissue 2 2 2 (sampleNames "1") (sampleCall.args (sampleLink "0") (sampleGeneration "2")),
        .reissue 3 3 3 (sampleNames "2") (sampleCall.args (sampleLink "1") (sampleGeneration "3"))])
    db.requests.rows.map (fun r ↦ (r.approvalId, r.state)) =
        [(.lit "A0", .expired), (.lit "A1", .expired), (.lit "A2", .pendingUser)] ∧
      (∃ row ∈ db.bindings.rows, sampleCall.isBound (sampleLink "2") row) ∧
      reissue sampleEnv db 4 4 4 (sampleNames "3")
        (sampleCall.args (sampleLink "0") (sampleGeneration "4")) = .error
          (.binding .nonceMismatch) := by
  refine ⟨by decide +kernel, by decide +kernel, eq_error_of_raised ?_⟩
  decide +kernel

end AgentGateway.ApprovalStore
