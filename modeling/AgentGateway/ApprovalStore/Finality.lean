import AgentGateway.ApprovalStore.Operations

/-!
# Decisions are final

Along every run of the store the version of a request goes up with each change of its state, and a
request that has been decided is never opened again.  A request that has been refused stays refused
as long as nobody calls `transition_state` to approve it: that operation alone writes an approval
over any state.

* `requests_advance` carries this along a run, `refused_stays_refused` is the result.
* `approved_after_denial` is a run in which a denied request becomes executable.
* `cancellation_lands_iff`: when the cancellation of a request that waits gets through.
-/

namespace AgentGateway.ApprovalStore

open Py

variable {F M : Type} [PyFloat F] {env : Env F M}

/-! ## How one request moves on -/

/-- What a request was and what it has become; refusals are kept in a `faithful` run. -/
structure Advance (faithful : Prop) (r r' : ApprovalRequest) : Prop where
  version_le : r.stateVersion ≤ r'.stateVersion
  version_lt : r'.state ≠ r.state → r.stateVersion < r'.stateVersion
  terminal : r.state.isTerminal = true → r'.state.isTerminal = true
  refused : faithful → r.state.isRefused = true → r'.state.isRefused = true

variable {faithful : Prop} {r r' : ApprovalRequest}

theorem Advance.of_eq (hstate : r'.state = r.state)
    (hversion : r'.stateVersion = r.stateVersion) : Advance faithful r r' where
  version_le := hversion.ge
  version_lt h := absurd hstate h
  terminal h := hstate ▸ h
  refused _ h := hstate ▸ h

theorem Advance.refl (r : ApprovalRequest) : Advance faithful r r := .of_eq rfl rfl

theorem Advance.trans (r s t : ApprovalRequest) (h : Advance faithful r s)
    (h' : Advance faithful s t) : Advance faithful r t where
  version_le := h.version_le.trans h'.version_le
  version_lt hne := by
    by_cases hst : t.state = s.state
    · exact (h.version_lt fun hsr ↦ hne (hst.trans hsr)).trans_le h'.version_le
    · exact h.version_le.trans_lt (h'.version_lt hst)
  terminal hr := h'.terminal (h.terminal hr)
  refused hf hr := h'.refused hf (h.refused hf hr)

theorem Advance.mono {faithful' : Prop} (hf : faithful' → faithful) (h : Advance faithful r r') :
    Advance faithful' r r' :=
  { h with refused := fun hf' ↦ h.refused (hf hf') }

theorem Transitioned.advance {o : Prop} (h : Transitioned o r r') :
    Advance (¬ o) r r' := by
  obtain ⟨updated, hversion, hterminal, hrefused⟩ := h
  have hlt : r.stateVersion < updated.stateVersion := by omega
  refine ⟨hlt.le, fun _ ↦ hlt, fun hr ↦ ?_, fun ho hr ↦ (hrefused hr).resolve_right ho⟩
  rcases hterminal with hterminal | hopen
  · exact hterminal
  · rw [hr] at hopen
    cases hopen

theorem Rewritten.advance {o : Prop} (h : Rewritten o r r') :
    Advance (¬ o) r r' := by
  induction h with
  | refl => exact .refl r
  | tail _ hstep ih => exact ih.trans _ _ _ hstep.advance

/-! ## What an operation does -/

/-- The requests of a table have moved on to those of another. -/
def RequestsAdvance (faithful : Prop) (db db' : Db) : Prop :=
  db.requests.Keeps (fun _ ↦ True) (Advance faithful) db'.requests

variable {db db' : Db}

theorem RequestsAdvance.of_eq (h : db'.requests = db.requests) :
    RequestsAdvance faithful db db' := by
  rw [RequestsAdvance, h]
  exact Table.Keeps.refl Advance.refl _

theorem RequestsAdvance.trans {db'' : Db} (h : RequestsAdvance faithful db db')
    (h' : RequestsAdvance faithful db' db'') :
    RequestsAdvance faithful db db'' :=
  Table.Keeps.trans Advance.trans h h'

theorem KeepsRequests.advance {o : Prop} (hf : faithful → ¬ o)
    (h : KeepsRequests o db.requests db'.requests) : RequestsAdvance faithful db db' :=
  Table.Keeps.mono (fun _ _ hr ↦ (Rewritten.advance hr).mono hf) h

/-- A request that is overwritten in other columns than its state has not moved. -/
theorem RequestsAdvance.of_put {id : Str} {current : ApprovalRequest}
    (hcurrent : db.requests.find? id = some current) (hid : r.approvalId = current.approvalId)
    (hstate : r.state = current.state) (hversion : r.stateVersion = current.stateVersion) :
    RequestsAdvance faithful db { db with requests := db.requests.put r } := by
  refine Table.keeps_put Advance.refl fun r' hr' hkey _ ↦ ⟨trivial, ?_⟩
  have : r' = current :=
    Table.eq_of_key_eq hr' (Table.find?_eq_some_iff.1 hcurrent).1 (hkey.trans hid)
  subst this
  exact .of_eq hstate hversion

theorem DecisionUpdate.advance {o : Prop} (hf : faithful → ¬ o)
    (h : DecisionUpdate o db db') : RequestsAdvance faithful db db' := by
  obtain ⟨requests, votes, outbox, clockHighWater, nextSequence, rfl, hkeeps, -⟩ := h
  exact KeepsRequests.advance hf hkeeps

theorem parkExecutableBinding_advance {nowNs : Int} {p : Payload F}
    {policyGenerationRef : Option Str} {nonce : Str}
    (h : parkExecutableBinding env db nowNs p policyGenerationRef = .ok (nonce, db')) :
    RequestsAdvance faithful db db' := by
  obtain ⟨request, superseded, digest, row, moved, bindings, hrequest, -, -, -, hmoved, -,
    hexpire⟩ :=
    parkExecutableBinding_eq_ok h
  obtain ⟨requests, rfl, hkeeps⟩ := expireAll_eq_ok hexpire
  have hmove : RequestsAdvance faithful db { db with requests := moved } := by
    rcases hmoved with ⟨-, rfl⟩ | ⟨-, rfl⟩
    · exact .of_eq rfl
    · exact .of_put hrequest rfl rfl rfl
  exact hmove.trans (KeepsRequests.advance (fun _ ↦ not_false) hkeeps)

theorem reissue_advance {nowNs turnNs expiryNs : Int} {fresh : FreshNames} {a : ReissueArgs}
    {issued : Reissued} (h : reissue env db nowNs turnNs expiryNs fresh a = .ok (issued, db')) :
    RequestsAdvance faithful db db' := by
  rcases reissue_eq_ok h with rfl | ⟨request, db₁, db₂, payload, published, db₃, db₄, parked, wrote,
    hcreate, ⟨rootTurns, rfl⟩, -, hpark, ⟨rootTurns', rfl⟩, hparked, hwrite⟩
  · exact .of_eq rfl
  · have h₁ : RequestsAdvance faithful db db₁ := (create_update hcreate).advance fun _ ↦ not_false
    have h₃ : RequestsAdvance faithful { db₁ with rootTurns } db₃ :=
      parkExecutableBinding_advance hpark
    obtain ⟨-, hid⟩ := Table.find?_eq_some_iff.1 hparked
    rw [← hid] at hparked
    -- the statement opens a request again only if it was never decided
    obtain ⟨requests, rfl, hkeeps⟩ := writeRequestTransition_keeps False hwrite hparked rfl
      fun hrefused hadmits ↦ by
        rcases hadmits with hterminal | hopen
        · cases hterminal
        · rw [isTerminal_of_isRefused hrefused] at hopen
          cases hopen
    exact (h₁.trans h₃).trans (KeepsRequests.advance (fun _ ↦ not_false) hkeeps)

theorem Effect.advance {op : Op F M} (h : Effect env db op db') :
    RequestsAdvance (¬ op.overrules db) db db' := by
  cases h with
  | decision h => exact h.advance id
  | outbox h =>
    obtain ⟨clockHighWater, outbox, rfl, -⟩ := h
    exact .of_eq rfl
  | update hcurrent => exact .of_put hcurrent rfl rfl rfl
  | park _ h => exact parkExecutableBinding_advance h
  | reissue h => exact reissue_advance h
  | prepared hkeeps => exact KeepsRequests.advance (fun _ ↦ not_false) hkeeps
  | claim h =>
    obtain ⟨bindings, rfl⟩ := claimExecutableBinding_frame h
    exact .of_eq rfl
  | complete h =>
    obtain ⟨bindings, rfl⟩ := completeExecutableBinding_frame h
    exact .of_eq rfl
  | rawPatch h =>
    obtain ⟨rawPrepared, rawClaims, rawConsumptions, rfl, -⟩ := h
    exact .of_eq rfl
  | fence | record | turns | reserve => exact .of_eq rfl

/-! ## Runs -/

/-- Nobody approves a request that has been refused. -/
def Faithful (env : Env F M) (db : Db) (ops : List (Op F M)) : Prop :=
  Meets (Db.step env) (fun db op ↦ ¬ op.overrules db) db ops

/-- **Requests move on along every run**, and keep their refusals if the run is faithful. -/
theorem requests_advance (env : Env F M) (db : Db) (ops : List (Op F M)) :
    RequestsAdvance (Faithful env db ops) db (db.after env ops) := by
  induction ops generalizing db with
  | nil => exact .of_eq rfl
  | cons op ops ih =>
    have hstep : RequestsAdvance (¬ op.overrules db) db (db.step env op) := by
      rcases Db.step_cases env db op with h | h
      · exact .of_eq (by rw [h])
      · exact (Op.effect h).advance
    have hfaithful : Faithful env db (op :: ops) →
        ¬ op.overrules db ∧ Faithful env (db.step env op) ops := id
    exact RequestsAdvance.trans
      (hstep.mono fun _ _ h ↦ h.mono fun hf ↦ (hfaithful hf).1)
      ((ih (db.step env op)).mono fun _ _ h ↦ h.mono fun hf ↦ (hfaithful hf).2)

theorem not_isExecutable_of_isRefused (h : r.state.isRefused = true) :
    r.isExecutable = false := by
  have happroved : r.state ≠ .approved := by
    intro hs
    rw [hs] at h
    cases h
  have hauto : r.state ≠ .autoApproved := by
    intro hs
    rw [hs] at h
    cases h
  rw [ApprovalRequest.isExecutable]
  split
  · rfl
  · simp [happroved]
  · simp [happroved, hauto]

/-- **A decision is final along every run of the store**: the version of a request goes up with
every change of its state, a decided request is never open again, and if no `transition_state`
approves a refused request, a refused request is never executable again. -/
theorem refused_stays_refused (env : Env F M) (db : Db) (ops : List (Op F M)) :
    ∀ r ∈ db.requests.rows, ∃ r' ∈ (db.after env ops).requests.rows,
      r'.approvalId = r.approvalId ∧ r.stateVersion ≤ r'.stateVersion ∧
      (r'.state ≠ r.state → r.stateVersion < r'.stateVersion) ∧
      (r.state.isTerminal = true → r'.state ≠ .created ∧ r'.state ≠ .pendingUser) ∧
      (Faithful env db ops → r.state.isRefused = true → r'.isExecutable = false) := by
  intro r hr
  obtain ⟨r', hr', hid, -, hadvance⟩ := requests_advance env db ops r hr trivial
  refine ⟨r', hr', hid, hadvance.version_le, hadvance.version_lt, fun hterminal ↦ ?_,
    fun hf hrefused ↦ not_isExecutable_of_isRefused (hadvance.refused hf hrefused)⟩
  have := hadvance.terminal hterminal
  constructor
  · intro hs
    rw [hs] at this
    cases this
  · intro hs
    rw [hs] at this
    cases this

/-- A request that is created and denied. -/
def denial : List (Op NumToken Unit) :=
  [.create (sampleRequest (.lit "A") (.lit "call")),
    .transitionState 1 (.lit "A") (sampleTransition .denied)]

/-- The denied request expires later on. -/
theorem refused_stays_refused_of_denial :
    ∃ r' ∈ ((Db.empty.after sampleEnv denial).after sampleEnv
        [.transitionState 2 (.lit "A") (sampleTransition .expired)]).requests.rows,
      r'.approvalId = .lit "A" ∧ r'.isExecutable = false := by
  have hmem : ∃ r ∈ (Db.empty.after sampleEnv denial).requests.rows,
      r.approvalId = .lit "A" ∧ r.state = .denied := by decide +kernel
  obtain ⟨r, hr, hid, hstate⟩ := hmem
  obtain ⟨r', hr', hid', -, -, -, hrefused⟩ := refused_stays_refused sampleEnv
    (Db.empty.after sampleEnv denial) [.transitionState 2 (.lit "A") (sampleTransition .expired)] r
      hr
  refine ⟨r', hr', hid'.trans hid, hrefused ⟨?_, trivial⟩ (by rw [hstate]; rfl)⟩
  rintro ⟨h | h, -⟩
  · cases h
  · cases h

/-- **A denied request becomes executable** when `transition_state` approves it. -/
theorem approved_after_denial : (∃ r ∈ (Db.empty.after sampleEnv denial).requests.rows,
      r.approvalId = .lit "A" ∧ r.state = .denied) ∧
    ∃ r ∈ ((Db.empty.after sampleEnv denial).after sampleEnv
        [.transitionState 2 (.lit "A") (sampleTransition .approved)]).requests.rows,
      r.approvalId = .lit "A" ∧ r.isExecutable = true := by
  decide +kernel

/-! ## Cancelling a request that waits -/

/-- A cancellation without a delivery, of a request that nobody claimed or reserved. -/
theorem terminalizePending_of_find? {H : Host} (db : Db) {c : Cancellation}
    (hr : db.requests.find? r.approvalId = some r) (hclaim : db.rawClaims.find? r.approvalId = none)
    (hfree : db.publicationReserved r.approvalId none none = false) (hdelivery : c.delivery = none)
    (readNs insertNs : Int) :
    terminalizePending H db readNs insertNs r.approvalId c =
      if ¬ c.identity.matchesRequest H r then .ok (⟨false, false⟩, db)
      else if r.state ≠ .pendingUser then .ok (⟨false, true⟩, db)
      else (denyPending H db readNs insertNs r c).map (⟨true, true⟩, ·) := by
  simp only [terminalizePending, hdelivery, normalizeDelivery, requireUnreserved, hfree, require,
    if_true, Db.requireRequest, hr, requireSome, Db.requireNoRawClaim, hclaim]
  rfl

/-- The compare-and-set of a cancellation, once the identity has matched. -/
theorem denyPending_of_matches {H : Host} {db : Db} {c : Cancellation}
    (hr : db.requests.find? r.approvalId = some r) (hpending : r.state = .pendingUser)
    (hdelivery : c.delivery = none) (hmatch : c.identity.matchesRequest H r)
    (readNs insertNs : Int) :
    denyPending H db readNs insertNs r c =
      if sqlLower (sqlTrim r.channel) = normalizedChannel H (some r.channel) then
        .ok { db with
          requests := db.requests.put (cancelled r readNs c.deciderId c.deciderRole c.reason) }
      else .error (.runtime (.lit "approval cancellation compare-and-set failed")) := by
  obtain ⟨htool, huser, hrequest, hrun, hsession, hchannel⟩ := hmatch
  have hfind :
    db.requests.find? (cancelled r readNs c.deciderId c.deciderRole c.reason).approvalId =
    some r := hr
  by_cases hsql : sqlLower (sqlTrim r.channel) = normalizedChannel H (some r.channel)
  · simp [denyPending, writeRequestTransition, hfind, Option.filter, transitionAdmits,
      CancellationCompare.admits, hpending, htool, huser, hrequest, hrun, hsession, ← hchannel,
      hsql, hdelivery, require, bind, Except.bind]
    rfl
  · simp [denyPending, writeRequestTransition, hfind, Option.filter, transitionAdmits,
      CancellationCompare.admits, hpending, htool, huser, hrequest, hrun, hsession, ← hchannel,
      hsql, require, bind, Except.bind]

/-- **A cancellation lands if SQLite reads the channel as Python does**, and only then: a request
that waits, which nobody claimed or reserved, is denied, and a second call finds it settled. -/
theorem cancellation_lands_iff (H : Host) (db : Db) (readNs insertNs : Int) (r : ApprovalRequest)
    (c : Cancellation) (hr : db.requests.find? r.approvalId = some r)
    (hpending : r.state = .pendingUser) (hclaim : db.rawClaims.find? r.approvalId = none)
    (hfree : db.publicationReserved r.approvalId none none = false)
    (hdelivery : c.delivery = none) :
    (¬ c.identity.matchesRequest H r →
      terminalizePending H db readNs insertNs r.approvalId c = .ok (⟨false, false⟩, db)) ∧
    (c.identity.matchesRequest H r →
      (sqlLower (sqlTrim r.channel) = normalizedChannel H (some r.channel) ↔
        ∃ db' r', terminalizePending H db readNs insertNs r.approvalId c = .ok (⟨true, true⟩, db') ∧
          db'.requests.find? r.approvalId = some r' ∧ r'.state = .denied ∧
          r'.stateVersion = r.stateVersion + 1 ∧ ∀ readNs' insertNs',
            terminalizePending H db' readNs' insertNs' r.approvalId c = .ok (⟨false, true⟩, db')) ∧
      (terminalizePending H db readNs insertNs r.approvalId c =
          .error (.runtime (.lit "approval cancellation compare-and-set failed")) ↔
        sqlLower (sqlTrim r.channel) ≠ normalizedChannel H (some r.channel))) := by
  rw [terminalizePending_of_find? db hr hclaim hfree hdelivery]
  refine ⟨fun hmatch ↦ if_pos hmatch, fun hmatch ↦ ?_⟩
  rw [if_neg (not_not.2 hmatch), if_neg (not_not.2 hpending),
    denyPending_of_matches hr hpending hdelivery hmatch]
  by_cases hsql : sqlLower (sqlTrim r.channel) = normalizedChannel H (some r.channel)
  · simp only [hsql, true_iff, ne_eq, not_true, iff_false]
    have hdenied :=
      Table.find?_put_self (r := cancelled r readNs c.deciderId c.deciderRole c.reason) hr
    refine ⟨⟨_, _, rfl, hdenied, rfl, rfl, fun readNs' insertNs' ↦ ?_⟩, by simp [Except.map]⟩
    refine (terminalizePending_of_find? { db with requests := _ } hdenied hclaim hfree hdelivery
      readNs' insertNs').trans ?_
    exact (if_neg (not_not.2 hmatch)).trans (if_pos (by simp [cancelled]))
  · simp [hsql, Except.map]

/-- A request of the channel that waits. -/
def waiting (channel : String) : ApprovalRequest :=
  { sampleRequest (.lit "A") (.lit "call") with channel := .lit channel, state := .pendingUser }

/-- The run of the sample takes it back. -/
def withdrawal (channel : String) : Cancellation :=
  ⟨⟨.lit "call", .lit "user", .lit "run", .lit "run", .lit "job", some (.lit channel)⟩, none, none,
    .lit "cancelled", none⟩

theorem cancellation_lands_on_web :
    let db := Db.empty.after sampleEnv [.create (waiting "web")]
    ∃ db' r', terminalizePending sampleEnv.toHost db 1 1 (.lit "A") (withdrawal "web") =
      .ok (⟨true, true⟩, db') ∧ db'.requests.find? (.lit "A") = some r' ∧ r'.state = .denied := by
  obtain ⟨db', r', h, hr', hdenied, -⟩ := ((cancellation_lands_iff sampleEnv.toHost
    (Db.empty.after sampleEnv [.create (waiting "web")]) 1 1 (waiting "web") (withdrawal "web")
    (by decide +kernel) rfl (by decide +kernel) (by decide +kernel) rfl).2 (by decide +kernel)).1.1
    (by decide +kernel)
  exact ⟨db', r', h, hr', hdenied⟩

/-- **A cancellation fails on a channel that ends with a tab**: Python strips it before it compares
the channels, SQLite does not. -/
theorem cancellation_fails_on_tab :
    let db := Db.empty.after sampleEnv [.create (waiting "web\t")]
    db.requests.find? (.lit "A") = some (waiting "web\t") ∧
      (withdrawal "web\t").identity.matchesRequest sampleEnv.toHost (waiting "web\t") ∧
      terminalizePending sampleEnv.toHost db 1 1 (.lit "A") (withdrawal "web\t") =
        .error (.runtime (.lit "approval cancellation compare-and-set failed")) := by
  refine ⟨by decide +kernel, by decide +kernel, eq_error_of_raised ?_⟩
  decide +kernel

end AgentGateway.ApprovalStore
