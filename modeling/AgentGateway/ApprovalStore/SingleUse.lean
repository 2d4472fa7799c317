import AgentGateway.ApprovalStore.Operations

/-!
# A captured call is executed once

A binding that has been claimed stays where it is: no operation deletes it, gives it to another
approval or call, or opens it again, and once its result is stored nothing about it changes.  That
is `bindings_captured`, for every run from a new store.  The bindings that parking, re-issue and
prepared changes delete are those nobody has claimed; parking sees every binding in its way because
each has its request (`WellBound`).

It follows that a claim hands out at most one licence for a call and for an approval, and that a
stored result is read by every later claim, if it can be read at all: `Readable`.  A result with a
surrogate pair in a key may be stored and not be read again (`unreadable_result`).
-/

namespace AgentGateway.ApprovalStore

open Py

variable {F M : Type} [PyFloat F] {env : Env F M}

/-! ## Bindings and their requests -/

/-- Every binding is for a request that is there. -/
def WellBound (db : Db) : Prop :=
  ∀ row ∈ db.bindings.rows, ∃ r ∈ db.requests.rows, row.identifies r

theorem Rewritten.identifies {o : Prop} {row : BindingRow} {r r' : ApprovalRequest}
    (h : Rewritten o r r') (hr : row.identifies r) : row.identifies r' := by
  induction h with
  | refl => exact hr
  | tail _ hstep ih =>
    obtain ⟨updated, -, -, -⟩ := hstep
    exact ih

variable {db : Db}

/-- The request of a binding is looked up under the approval of the binding. -/
theorem WellBound.find? (h : WellBound db) {row : BindingRow} (hrow : row ∈ db.bindings.rows) :
    ∃ r, db.requests.find? row.approvalId = some r ∧ row.identifies r := by
  obtain ⟨r, hr, hidentifies⟩ := h row hrow
  exact ⟨r, Table.find?_eq_some_iff.2 ⟨hr, hidentifies.2.1⟩, hidentifies⟩

/-! ## Rows that were claimed -/

/-- Somebody has claimed the binding. -/
def BindingRow.started (r : BindingRow) : Prop := r.executionState ≠ .unclaimed

/-- A binding that was claimed, and what it has become: its result may have been stored. -/
structure Captured (r r' : BindingRow) : Prop where
  same : r' =
    { r with
      executionState := r'.executionState
      executionResultJson := r'.executionResultJson
      executionResultDigest := r'.executionResultDigest }
  completed : r.executionState = .completed → r' = r

theorem Captured.refl (r : BindingRow) : Captured r r := ⟨rfl, fun _ ↦ rfl⟩

theorem Captured.trans (r s t : BindingRow) (h : Captured r s) (h' : Captured s t) :
    Captured r t where
  same := by
    rw [h'.same, h.same]
  completed hr := by
    obtain rfl := h.completed hr
    exact h'.completed hr

/-- What an operation does to the bindings: each has its request still, and those that were claimed
are there. -/
def KeepsBindings (db db' : Db) : Prop :=
  WellBound db →
    WellBound db' ∧ db.bindings.toTable.Keeps BindingRow.started Captured db'.bindings.toTable

variable {db' : Db}

theorem KeepsBindings.trans {db'' : Db} (h : KeepsBindings db db')
    (h' : KeepsBindings db' db'') : KeepsBindings db db'' := by
  intro hdb
  obtain ⟨hdb', hkeeps⟩ := h hdb
  obtain ⟨hdb'', hkeeps'⟩ := h' hdb'
  exact ⟨hdb'', Table.Keeps.trans Captured.trans hkeeps hkeeps'⟩

/-- The bindings stay, and the requests keep the columns that identify them. -/
theorem KeepsBindings.of_requests (hbindings : db'.bindings = db.bindings)
    (h : ∀ row ∈ db.bindings.rows, ∀ r ∈ db.requests.rows, row.identifies r →
      ∃ r' ∈ db'.requests.rows, row.identifies r') : KeepsBindings db db' := by
  intro hdb
  rw [WellBound, hbindings]
  refine ⟨fun row hrow ↦ ?_, Table.Keeps.refl Captured.refl _⟩
  obtain ⟨r, hr, hidentifies⟩ := hdb row hrow
  exact h row hrow r hr hidentifies

theorem KeepsBindings.of_keepsRequests {o : Prop} (hbindings : db'.bindings = db.bindings)
    (h : KeepsRequests o db.requests db'.requests) : KeepsBindings db db' := by
  refine .of_requests hbindings fun row _ r hr hidentifies ↦ ?_
  obtain ⟨r', hr', -, -, hrewritten⟩ := h r hr trivial
  exact ⟨r', hr', Rewritten.identifies hrewritten hidentifies⟩

theorem KeepsBindings.of_eq (hbindings : db'.bindings = db.bindings)
    (hrequests : db'.requests = db.requests) : KeepsBindings db db' :=
  .of_requests hbindings fun _ _ r hr hidentifies ↦ ⟨r, hrequests ▸ hr, hidentifies⟩

/-! ## Deleting and replacing -/

/-- Bindings that nobody has claimed are deleted. -/
theorem KeepsBindings.of_delete {p : BindingRow → Bool}
    (hp : ∀ row ∈ db.bindings.rows, p row = true → row.executionState = .unclaimed) :
    KeepsBindings db { db with bindings := db.bindings.delete p } := by
  intro hdb
  refine ⟨fun row hrow ↦ hdb row (Indexed.mem_delete.1 hrow).1,
    Table.keeps_delete Captured.refl fun row hrow hstarted ↦ ?_⟩
  by_contra hne
  exact hstarted (hp row hrow (by simpa using hne))

/-- A binding is written for a request that is there. -/
theorem KeepsBindings.of_insert? {row : BindingRow}
    {bindings : Indexed BindingRow BindingRow.approvalId BindingRow.call}
    {request : ApprovalRequest}
    (hrequest : request ∈ db.requests.rows) (hrow : row.identifies request)
    (hins : db.bindings.insert? row = some bindings) : KeepsBindings db { db with bindings } := by
  intro hdb
  obtain ⟨-, hrows⟩ := Indexed.rows_of_insert? hins
  refine ⟨fun row' hrow' ↦ ?_, Table.keeps_append Captured.refl hrows⟩
  have hmem : row' ∈ db.bindings.rows ++ [row] := hrows ▸ hrow'
  rcases List.mem_append.1 hmem with hold | hnew
  · exact hdb row' hold
  · rw [List.mem_singleton] at hnew
    exact ⟨request, hrequest, hnew ▸ hrow⟩

/-- A binding is written over, for the same call and under the same approval. -/
theorem KeepsBindings.of_put? {row row' : BindingRow}
    {bindings : Indexed BindingRow BindingRow.approvalId BindingRow.call}
    (hput : db.bindings.put? row' = some bindings) (hrow : row ∈ db.bindings.rows)
    (hid : row'.approvalId = row.approvalId)
    (hidentifies : ∀ r, row.identifies r → row'.identifies r)
    (hstarted : row.started → row'.started ∧ Captured row row') :
    KeepsBindings db { db with bindings } := by
  intro hdb
  have htable : bindings.toTable = db.bindings.toTable.put row' := Indexed.toTable_of_put? hput
  refine ⟨fun x hx ↦ ?_, ?_⟩
  · have hmem : x ∈ (db.bindings.toTable.put row').rows := htable ▸ hx
    rcases Table.mem_put.1 hmem with ⟨hold, -⟩ | ⟨rfl, -⟩
    · exact hdb x hold
    · obtain ⟨r, hr, h⟩ := hdb row hrow
      exact ⟨r, hr, hidentifies r h⟩
  · rw [htable]
    refine Table.keeps_put Captured.refl fun r hr hkey hs ↦ ?_
    have : r = row := Table.eq_of_key_eq hr hrow (hkey.trans hid)
    subst this
    exact hstarted hs

/-! ## Parking -/

/-- Parking has looked at every binding in its way. -/
theorem unclaimed_of_parkScan (hdb : WellBound db) {row row' : BindingRow}
    {policyGenerationRef : Option Str} {request : ApprovalRequest} {nonce published : Str}
    {superseded : List Str}
    (hscan : parkScan db policyGenerationRef row request (db.boundRequests row) nonce =
      .ok (published, superseded))
    (hrow' : row' ∈ db.bindings.rows) (hclash : row.clashes row' = true) :
    row'.executionState = .unclaimed := by
  obtain ⟨r, hr, -⟩ := hdb.find? hrow'
  refine parkScan_eq_ok hscan (row', r) ?_
  rw [Db.boundRequests, List.mem_filterMap]
  refine ⟨row', List.mem_filter.2 ⟨hrow', hclash⟩, ?_⟩
  rw [hr, Option.map_some]

theorem parkExecutableBinding_keeps {nowNs : Int} {p : Payload F} {policyGenerationRef : Option Str}
    {nonce : Str}
    (h : parkExecutableBinding env db nowNs p policyGenerationRef = .ok (nonce, db')) :
    KeepsBindings db db' := by
  obtain ⟨request, superseded, digest, row, moved, bindings, hrequest, hscan, hrow, hidentifies,
    hmoved, hins, hexpire⟩ := parkExecutableBinding_eq_ok h
  obtain ⟨requests, rfl, hexpired⟩ := expireAll_eq_ok hexpire
  obtain ⟨hmem, hid⟩ := Table.find?_eq_some_iff.1 hrequest
  have hrowId : row.approvalId = p.row.approvalId := by rw [hrow]
  have hclashes : row.clashes = p.row.clashes := by rw [hrow]; rfl
  intro hdb
  -- the bindings in the way go first, so that no binding of the request is left when it moves
  obtain ⟨hdeleted, hkept⟩ := KeepsBindings.of_delete (p := row.clashes)
    (fun row' hrow' hclash ↦ unclaimed_of_parkScan hdb hscan hrow' (hclashes ▸ hclash)) hdb
  have hmove : KeepsBindings { db with bindings := db.bindings.delete row.clashes }
      { db with requests := moved, bindings := db.bindings.delete row.clashes } := by
    rcases hmoved with ⟨-, rfl⟩ | ⟨-, rfl⟩
    · exact .of_eq rfl rfl
    · refine .of_requests rfl fun row' hrow' r hr hr' ↦
        ⟨r, Table.mem_put.2 (.inl ⟨hr, fun hkey ↦ ?_⟩), hr'⟩
      have hnoclash : row.clashes row' = false := (Indexed.mem_delete.1 hrow').2
      have hsame : row'.approvalId = row.approvalId := by
        rw [hrowId, ← hid, ← hr'.2.1]
        exact hkey
      simp [BindingRow.clashes, hsame] at hnoclash
  have hbound : { request with toolCallId := p.row.toolCallId } ∈ moved.rows := by
    rcases hmoved with ⟨hcall, rfl⟩ | ⟨-, rfl⟩
    · rw [← hcall]
      exact hmem
    · exact Table.mem_put.2 (.inr ⟨rfl, request, hmem, rfl⟩)
  obtain ⟨hmovedBound, hkept'⟩ := hmove hdeleted
  have hinsert : KeepsBindings
      { db with requests := moved, bindings := db.bindings.delete row.clashes }
      { db with requests := moved, bindings := bindings } := .of_insert? hbound hidentifies hins
  have hexpire' : KeepsBindings { db with requests := moved, bindings := bindings }
      { db with requests := requests, bindings := bindings } := .of_keepsRequests rfl hexpired
  obtain ⟨hwell, hkept''⟩ := (hinsert.trans hexpire') hmovedBound
  exact ⟨hwell, Table.Keeps.trans Captured.trans
    (Table.Keeps.trans Captured.trans hkept hkept') hkept''⟩

theorem reissue_keeps {nowNs turnNs expiryNs : Int} {fresh : FreshNames} {a : ReissueArgs}
    {issued : Reissued}
    (h : reissue env db nowNs turnNs expiryNs fresh a = .ok (issued, db')) :
    KeepsBindings db db' := by
  rcases reissue_eq_ok h with rfl | ⟨request, db₁, db₂, payload, published, db₃, db₄, parked, wrote,
    hcreate, ⟨rootTurns, rfl⟩, -, hpark, ⟨rootTurns', rfl⟩, hparked, hwrite⟩
  · exact .of_eq rfl rfl
  · obtain ⟨requests, votes, outbox, clockHighWater, nextSequence, rfl, hcreated, -⟩ :=
      create_update hcreate
    obtain ⟨-, hid⟩ := Table.find?_eq_some_iff.1 hparked
    rw [← hid] at hparked
    obtain ⟨requests', rfl, hwritten⟩ := writeRequestTransition_keeps True hwrite hparked rfl
      fun _ _ ↦ .inr trivial
    have hpre : KeepsBindings db
        { db with requests, votes, outbox, clockHighWater, nextSequence, rootTurns } :=
      .of_keepsRequests rfl hcreated
    exact (hpre.trans (parkExecutableBinding_keeps hpark)).trans (.of_keepsRequests rfl hwritten)

/-! ## Every operation -/

theorem Effect.keepsBindings {op : Op F M} (h : Effect env db op db') :
    KeepsBindings db db' := by
  cases h with
  | decision h =>
    obtain ⟨requests, votes, outbox, clockHighWater, nextSequence, rfl, hkeeps, -⟩ := h
    exact .of_keepsRequests rfl hkeeps
  | outbox h =>
    obtain ⟨clockHighWater, outbox, rfl, -⟩ := h
    exact .of_eq rfl rfl
  | @update request current hcurrent hidentity hbound =>
    obtain ⟨hmem, hid⟩ := Table.find?_eq_some_iff.1 hcurrent
    refine .of_requests rfl fun row hrow r hr hidentifies ↦ ?_
    by_cases hkey : r.approvalId = request.approvalId
    · have : r = current := Table.eq_of_key_eq hr hmem (hkey.trans hid.symm)
      subst this
      obtain ⟨-, -, -, -, hargs⟩ := hbound row hrow (hidentifies.2.1.symm.trans hkey)
      obtain ⟨huser, hid', hcall, htool, -⟩ := hidentifies
      exact ⟨r.withUpdate request, Table.mem_put.2 (.inr ⟨rfl, r, hr, rfl⟩), huser, hid',
        hcall, htool, hargs⟩
    · exact ⟨r, Table.mem_put.2 (.inl ⟨hr, fun h ↦ hkey (h.trans hid)⟩), hidentifies⟩
  | record hrequest hrow hunclaimed hins =>
    exact .of_insert? (Table.find?_eq_some_iff.1 hrequest).1 hrow hins
  | park _ h => exact parkExecutableBinding_keeps h
  | reissue h => exact reissue_keeps h
  | @prepared _ requests prepared bindings hkeeps hbindings =>
    have hdelete : KeepsBindings db { db with bindings } := by
      rcases hbindings with rfl | ⟨predecessorId, rfl⟩
      · exact .of_eq rfl rfl
      · refine .of_delete fun row _ hrow ↦ ?_
        rw [BindingRow.unclaimedOf, decide_eq_true_eq] at hrow
        exact hrow.2
    exact hdelete.trans (.of_keepsRequests rfl hkeeps)
  | claim h =>
    obtain ⟨row, request, hrow, -, -, -,
      ⟨r, -, rfl, -⟩ | ⟨bindings, -, hclaimable, -, -, hput, rfl⟩⟩ := claimExecutableBinding_eq_ok h
    · exact .of_eq rfl rfl
    · refine .of_put? hput hrow rfl (fun _ ↦ id) fun hstarted ↦ absurd ?_ hstarted
      simp only [BindingRow.claimable, Bool.and_eq_true, beq_iff_eq] at hclaimable
      exact hclaimable.1.1.1.1
  | complete h =>
    obtain rfl | ⟨row, text, digest, bindings, hrow, -, -, -, -, hcompletable, hput, rfl⟩ :=
      completeExecutableBinding_eq_ok h
    · exact .of_eq rfl rfl
    · refine .of_put? hput hrow rfl (fun _ ↦ id) fun _ ↦ ⟨nofun, rfl, ?_⟩
      intro hcompleted
      simp only [BindingRow.completable, Bool.and_eq_true, beq_iff_eq] at hcompletable
      rw [hcompletable.1.1.1.1] at hcompleted
      cases hcompleted
  | rawPatch h =>
    obtain ⟨rawPrepared, rawClaims, rawConsumptions, rfl, -⟩ := h
    exact .of_eq rfl rfl
  | fence | turns | reserve => exact .of_eq rfl rfl

theorem Db.step_keepsBindings (env : Env F M) (db : Db) (op : Op F M) :
    KeepsBindings db (db.step env op) := by
  rcases Db.step_cases env db op with h | h
  · exact .of_eq (by rw [h]) (by rw [h])
  · exact (Op.effect h).keepsBindings

/-- **A binding that was claimed is there after every run**, with its approval, its call, its
operands and its claim, and unchanged once its result is stored. -/
theorem bindings_captured (env : Env F M) (db : Db) (ops : List (Op F M)) :
    KeepsBindings db (db.after env ops) := by
  induction ops generalizing db with
  | nil => exact .of_eq rfl rfl
  | cons op ops ih => exact (Db.step_keepsBindings env db op).trans (ih (db.step env op))

/-! ## Licences -/

/-- A claim of the binding would return a licence to execute. -/
def Db.licenses (env : Env F M) (db : Db) (b : ExecutableBinding F) (version : Int) (token : Str) :
    Prop :=
  ∃ db', claimExecutableBinding env db b version token = .ok (none, db')

instance (db : Db) (b : ExecutableBinding F) (version : Int) (token : Str) :
    Decidable (db.licenses env b version token) :=
  match h : claimExecutableBinding env db b version token with
  | .ok (none, db') => isTrue ⟨db', h⟩
  | .ok (some _, _) => isFalse fun ⟨_, h'⟩ ↦ by rw [h] at h'; cases h'
  | .error _ => isFalse fun ⟨_, h'⟩ ↦ by rw [h] at h'; cases h'

section Licences

variable {db : Db} {b b' : ExecutableBinding F} {version version' : Int} {token token' : Str}

/-- A licence is for a binding that nobody has claimed, of a request that is executable at the
version the claim names. -/
theorem Db.licenses.row (h : db.licenses env b version token) :
    ∃ row ∈ db.bindings.rows, row.holds env b ∧ row.executionState = .unclaimed ∧
      ∃ r ∈ db.requests.rows, row.identifies r ∧ r.isExecutable = true ∧
        r.stateVersion = version := by
  obtain ⟨db', h⟩ := h
  obtain ⟨row, r, hrow, hholds, hr, hidentifies,
    ⟨_, hsome, -⟩ | ⟨bindings, -, hclaimable, hversion, hexecutable, -⟩⟩ :=
    claimExecutableBinding_eq_ok h
  · cases hsome
  · simp only [BindingRow.claimable, Bool.and_eq_true, beq_iff_eq] at hclaimable
    exact ⟨row, hrow, hholds, hclaimable.1.1.1.1, r, (Table.find?_eq_some_iff.1 hr).1, hidentifies,
      hexecutable, hversion⟩

/-- With the licence the binding is claimed. -/
theorem Db.licenses.started (h : db.licenses env b version token) :
    ∃ row ∈ (db.step env (.claimExecutableBinding b version token)).bindings.rows,
      row.isOf b ∧ row.started := by
  obtain ⟨db', h⟩ := h
  have hstep : db.step env (.claimExecutableBinding b version token) = db' := by
    rw [Db.step, Op.body, h]
    rfl
  obtain ⟨row, r, hrow, hholds, -, -, ⟨_, hsome, -⟩ | ⟨bindings, -, -, -, -, hput, rfl⟩⟩ :=
    claimExecutableBinding_eq_ok h
  · cases hsome
  · rw [hstep]
    have hstarted : (row.withClaim token version).started := by
      simp [BindingRow.started, BindingRow.withClaim]
    refine ⟨row.withClaim token version, ?_, hholds.isOf, hstarted⟩
    have htable := Indexed.toTable_of_put? hput
    rw [htable]
    exact Table.mem_put.2 (.inr ⟨rfl, row, hrow, rfl⟩)

/-- **There is one licence for a call, and one for an approval.** -/
theorem licenses_once (hdb : WellBound db) (h : db.licenses env b version token)
    (ops : List (Op F M))
    (h' : ((db.step env (.claimExecutableBinding b version token)).after env ops).licenses env b'
      version' token') : b'.call ≠ b.call ∧ b'.approvalId ≠ b.approvalId := by
  obtain ⟨row, hrow, ⟨hid, hjob, hcall, -⟩, hstarted⟩ := h.started
  have hclaimed : WellBound (db.step env (.claimExecutableBinding b version token)) :=
    (Db.step_keepsBindings env db _ hdb).1
  obtain ⟨kept, hkept, hkey, hkeptStarted, hcaptured⟩ :=
    (bindings_captured env _ ops hclaimed).2 row hrow hstarted
  have hkeptCall : kept.call = b.call := by
    rw [hcaptured.same]
    exact Prod.ext hjob hcall
  obtain ⟨row', hrow', hholds', hunclaimed, -⟩ := h'.row
  obtain ⟨hid', hjob', hcall', -⟩ := hholds'.isOf
  constructor
  · intro hsame
    have : kept = row' := Indexed.eq_of_index_eq hkept hrow'
      (hkeptCall.trans (hsame.symm.trans (Prod.ext hjob' hcall').symm))
    exact hkeptStarted (this ▸ hunclaimed)
  · intro hsame
    have : kept = row' := Table.eq_of_key_eq hkept hrow'
      (hkey.trans (hid.trans (hsame.symm.trans hid'.symm)))
    exact hkeptStarted (this ▸ hunclaimed)

/-- **A result that can be read is read by every later claim** of the binding. -/
theorem claims_read_result {db' : Db} {result : ToolResult F M} (hdb : WellBound db)
    (hresult : result.Readable env)
    (h : completeExecutableBinding env db b version token result = .ok db')
    (hnew : ∀ row ∈ db.bindings.rows, row.isOf b → row.executionState ≠ .completed)
    (ops : List (Op F M)) (htoken : token' ≠ []) :
    claimExecutableBinding env (db'.after env ops) b version' token' =
      .ok (some result.sorted, db'.after env ops) := by
  have hdb' : WellBound db' := (Effect.complete h).keepsBindings hdb |>.1
  obtain ⟨htext, -⟩ := readDocument_of_readable env hresult
  simp only [completeExecutableBinding, bind_eq_ok_iff, requireSome_eq_ok_iff, require_eq_ok_iff,
    Prod.exists] at h
  obtain ⟨-, hne, text, htext', digest, hdigest, request, row, hverify, -, htok, -, hver, h⟩ := h
  obtain ⟨hmem, hholds, -, -⟩ := verifyExecutableAttempt_eq_ok_iff.1 hverify
  rw [if_neg (hnew row hmem hholds.isOf)] at h
  obtain rfl : text = (result.document env).asciiText := Option.some.inj (htext'.symm.trans htext)
  obtain ⟨row', bindings, hmem', hisOf, -, hput, rfl⟩ := Db.updateBinding_eq_ok h
  obtain rfl : row' = row := db.bindings.eq_of_key_eq hmem' hmem (hisOf.1.trans hholds.isOf.1.symm)
  have hstored : row'.withResult (result.document env).asciiText digest ∈
    bindings.toTable.rows := by
    rw [Indexed.toTable_of_put? hput]
    exact Table.mem_put.2 (.inr ⟨rfl, row', hmem, rfl⟩)
  obtain ⟨kept, hkept, -, -, hcaptured⟩ :=
    (bindings_captured env _ ops hdb').2 _ hstored nofun
  obtain rfl := hcaptured.completed rfl
  obtain ⟨r, hr, hidentifies⟩ := (bindings_captured env _ ops hdb').1.find? hkept
  exact claimExecutableBinding_of_completed hresult hkept hholds hr hidentifies rfl rfl htok
    hne hver
    hdigest rfl htoken

end Licences

/-- **A captured call is executed once**, in every run from a new store: a claim hands out one
licence for a call and one for an approval, while the request is executable at the version it names;
a binding that was claimed keeps its approval, its call, its operands and its claim, and never
changes again once its result is stored; and a result that can be read back is what every later
claim returns. -/
theorem captured_call_executed_once (env : Env F M) (ops : List (Op F M)) :
    let db := Db.empty.after env ops
    (∀ b version token, db.licenses env b version token →
      (∃ row ∈ db.bindings.rows, row.holds env b ∧ ∃ r ∈ db.requests.rows, row.identifies r ∧
        r.isExecutable = true ∧ r.stateVersion = version) ∧
      ∀ later b' version' token',
        ((db.step env (.claimExecutableBinding b version token)).after env later).licenses env b'
          version' token' → b'.call ≠ b.call ∧ b'.approvalId ≠ b.approvalId) ∧
    (∀ later, ∀ row ∈ db.bindings.rows, row.executionState ≠ .unclaimed →
      ∃ row' ∈ (db.after env later).bindings.rows, row'.executionState ≠ .unclaimed ∧
        row' = { row with
          executionState := row'.executionState
          executionResultJson := row'.executionResultJson
          executionResultDigest := row'.executionResultDigest } ∧
        (row.executionState = .completed → row' = row)) ∧
    (∀ b version token (result : ToolResult F M) db', result.Readable env →
      completeExecutableBinding env db b version token result = .ok db' →
      (∀ row ∈ db.bindings.rows, row.isOf b → row.executionState ≠ .completed) →
      ∀ later version' token', token' ≠ [] →
        claimExecutableBinding env (db'.after env later) b version' token' =
          .ok (some result.sorted, db'.after env later)) := by
  have hdb := ((bindings_captured env Db.empty ops) fun _ h ↦ absurd h List.not_mem_nil).1
  refine ⟨fun b version token h ↦
    ⟨?_, fun later b' version' token' h' ↦ licenses_once hdb h later h'⟩,
    fun later row hrow hstarted ↦ ?_,
    fun b version token result db' hresult h hnew later version' token' htoken ↦
      claims_read_result hdb hresult h hnew later htoken⟩
  · obtain ⟨row, hrow, hholds, -, hrequest⟩ := h.row
    exact ⟨row, hrow, hholds, hrequest⟩
  · obtain ⟨row', hrow', -, hstarted', hcaptured⟩ :=
      (bindings_captured env _ later hdb).2 row hrow hstarted
    exact ⟨row', hrow', hstarted', hcaptured.same, hcaptured.completed⟩

/-- **Every binding has its request**, in every run from a new store. -/
theorem binding_has_request (env : Env F M) (ops : List (Op F M)) :
    let db := Db.empty.after env ops
    ∀ row ∈ db.bindings.rows, ∃ r, db.requests.find? row.approvalId = some r ∧
      row.identifies r := by
  intro db row hrow
  have hdb : WellBound db :=
    (bindings_captured env Db.empty ops fun _ h ↦ absurd h List.not_mem_nil).1
  exact hdb.find? hrow

/-! ## Two runs -/

/-- The operands of a call without arguments. -/
def sampleArgs (approvalId toolCallId nonce : Str) : BindingArgs NumToken where
  approvalId := approvalId
  jobId := .lit "job"
  toolCallId := toolCallId
  nonce := nonce
  tenantStorageId := .lit "user"
  toolName := .lit "tool"
  preparedCall := ⟨[], none, rfl⟩
  dispatchContext := []
  credentialGenerationRef := none

/-- A call is bound to its approval, and the approval is given. -/
def approvedCall : List (Op NumToken Unit) :=
  [.create (sampleRequest (.lit "A") (.lit "call")),
    .recordExecutableBinding (sampleArgs (.lit "A") (.lit "call") (.lit "n")),
    .transitionState 1 (.lit "A") (sampleTransition .approved)]

theorem binding_has_request_sample : ∃ (row : BindingRow) (r : _),
    (Db.empty.after sampleEnv approvedCall).requests.find? row.approvalId = some r ∧
      row.identifies r := by
  obtain ⟨row, hrow⟩ := List.exists_mem_of_length_pos
    (l := (Db.empty.after sampleEnv approvedCall).bindings.rows) (by decide +kernel)
  exact ⟨row, binding_has_request sampleEnv approvedCall row hrow⟩

/-- The binding an executor reads. -/
def sampleBinding : ExecutableBinding NumToken where
  approvalId := .lit "A"
  jobId := .lit "job"
  toolCallId := .lit "call"
  nonce := .lit "n"
  tenantStorageId := .lit "user"
  toolName := .lit "tool"
  preparedInput := []
  dispatchContext := []
  exactBackend := none
  credentialGenerationRef := none
  operandDigest := (((Db.empty.after sampleEnv approvedCall).bindings.find? (.lit "A")).map
    (·.operandDigest)).getD []

/-- No later claim of an approved call gets a licence. -/
theorem captured_call_executed_once_sample :
    (Db.empty.after sampleEnv approvedCall).licenses sampleEnv sampleBinding 1 (.lit "t") ∧
      ∀ later version token, ¬ (((Db.empty.after sampleEnv approvedCall).step sampleEnv
        (.claimExecutableBinding sampleBinding 1 (.lit "t"))).after sampleEnv later).licenses
          sampleEnv
          sampleBinding version token := by
  have hlicence : (Db.empty.after sampleEnv approvedCall).licenses sampleEnv sampleBinding 1
      (.lit "t") := by decide +kernel
  refine ⟨hlicence, fun later version token h ↦ ?_⟩
  obtain ⟨honce, -⟩ := captured_call_executed_once sampleEnv approvedCall
  exact ((honce _ _ _ hlicence).2 later sampleBinding version token h).1 rfl

/-- A result with two keys, the first of which is a surrogate pair. -/
def pairedResult : ToolResult NumToken Unit :=
  ⟨.json (.dict [([.surrogate 0x3D, .surrogate 0x600], .int 1), ([.scalar '\uFFFF'], .int 2)]),
    none⟩

/-- **A stored result that no claim returns**: the pair is read back as one character, which belongs
behind the other key, and the text is refused. -/
theorem unreadable_result :
    let db := Db.empty.after sampleEnv (approvedCall ++
      [.claimExecutableBinding sampleBinding 1 (.lit "t"),
        .completeExecutableBinding sampleBinding 1 (.lit "t") pairedResult])
    (∃ row ∈ db.bindings.rows, row.isOf sampleBinding ∧ row.executionState = .completed) ∧
      claimExecutableBinding sampleEnv db sampleBinding 1 (.lit "t") =
        .error (.binding .resultMismatch) := by
  refine ⟨by decide +kernel, eq_error_of_raised ?_⟩
  decide +kernel

end AgentGateway.ApprovalStore
