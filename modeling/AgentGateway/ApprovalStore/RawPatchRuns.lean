import AgentGateway.ApprovalStore.Operations

/-!
# A raw patch is consumed once

Along every run of the store the receipt of a raw patch stays what it was when it was stored, and
only the executor whose token is stored can keep its lease, release its claim or consume the
authorization; a lease that has run out hands the claim to another token.

What the store does not do is refuse a claim once there is a receipt.  Consuming an authorization
deletes the claim, so the next executor that presents the same approval finds none and gets a claim
of its own: `claim_after_consumption`.  The authorization is used once in those runs in which nobody
presents a consumed approval that would still pass `_validate_raw_patch_authorization_locked`.
-/

namespace AgentGateway.ApprovalStore

open Py

variable {F M : Type} [PyFloat F] {env : Env F M}

/-! ## Receipts -/

/-- The receipts of one database are in another. -/
def KeepsReceipts (db db' : Db) : Prop :=
  ∀ c ∈ db.rawConsumptions.rows, c ∈ db'.rawConsumptions.rows

theorem KeepsReceipts.of_eq {db db' : Db} (h : db'.rawConsumptions = db.rawConsumptions) :
    KeepsReceipts db db' :=
  fun _ hc ↦ h ▸ hc

theorem RawPatchUpdate.keepsReceipts {db db' : Db} (h : RawPatchUpdate db db') :
    KeepsReceipts db db' := by
  obtain ⟨rawPrepared, rawClaims, rawConsumptions, rfl, rfl | ⟨added, hins⟩⟩ := h
  · exact .of_eq rfl
  · intro c hc
    have hrows := (Indexed.rows_of_insert? hins).2
    rw [hrows]
    exact List.mem_append_left _ hc

theorem Effect.keepsReceipts {db db' : Db} {op : Op F M} (h : Effect env db op db') :
    KeepsReceipts db db' := by
  cases h with
  | decision h =>
    obtain ⟨requests, votes, outbox, clockHighWater, nextSequence, rfl, -⟩ := h
    exact .of_eq rfl
  | outbox h =>
    obtain ⟨clockHighWater, outbox, rfl, -⟩ := h
    exact .of_eq rfl
  | park _ h =>
    obtain ⟨requests, bindings, rfl⟩ := parkExecutableBinding_frame h
    exact .of_eq rfl
  | reissue h =>
    obtain ⟨requests, bindings, rootTurns, rfl⟩ := reissue_frame h
    exact .of_eq rfl
  | claim h =>
    obtain ⟨bindings, rfl⟩ := claimExecutableBinding_frame h
    exact .of_eq rfl
  | complete h =>
    obtain ⟨bindings, rfl⟩ := completeExecutableBinding_frame h
    exact .of_eq rfl
  | rawPatch h => exact h.keepsReceipts
  | fence | update | record | prepared | turns | reserve => exact .of_eq rfl

/-- **A receipt is there after every run.** -/
theorem receipts_kept (env : Env F M) (db : Db) (ops : List (Op F M)) :
    KeepsReceipts db (db.after env ops) := by
  induction ops generalizing db with
  | nil => exact .of_eq rfl
  | cons op ops ih =>
    have hstep : KeepsReceipts db (db.step env op) := by
      rcases Db.step_cases env db op with h | h
      · exact .of_eq (by rw [h])
      · exact (Op.effect h).keepsReceipts
    exact fun c hc ↦ ih (db.step env op) c (hstep c hc)

/-! ## Runs -/

/-- The authorization has been consumed. -/
def Db.consumed (db : Db) (approvalId : Str) : Prop :=
  ∃ c ∈ db.rawConsumptions.rows, c.approvalId = approvalId

/-- Does the operation present a consumed approval that would pass? -/
def Op.reclaims (db : Db) : Op F M → Prop
  | .claimRawPatch _ _ a => db.consumed a.approvalId ∧ validateRawPatch db a = .ok ()
  | _ => False

/-- **A raw patch authorization along every run**: at most one receipt is stored for an approval,
and it stays as it is; only the executor whose token is stored can keep its lease, release its claim
or consume the authorization; and in a run in which no consumed approval that would pass is
presented again, no claim of a consumed authorization succeeds. -/
theorem raw_patch_single_shot (env : Env F M) (db : Db) (ops : List (Op F M)) :
    (∀ c ∈ db.rawConsumptions.rows, ∀ c' ∈ (db.after env ops).rawConsumptions.rows,
      c'.approvalId = c.approvalId ↔ c' = c) ∧
    (∀ c ∈ db.rawConsumptions.rows, c ∈ (db.after env ops).rawConsumptions.rows) ∧
    (∀ now approvalId token lease reply,
      heartbeatRawPatch (db.after env ops) now approvalId token lease = .ok reply →
        (db.after env ops).holdsRawClaim approvalId token) ∧
    (∀ token a db', releaseRawPatch (db.after env ops) token a = .ok db' →
      (db.after env ops).holdsRawClaim a.approvalId token) ∧
    (∀ now token a receipt reply,
      consumeRawPatch env (db.after env ops) now token a receipt = .ok reply →
        (db.after env ops).holdsRawClaim a.approvalId token) ∧
    (Meets (Db.step env) (fun db op ↦ ¬ op.reclaims db) db ops →
      ∀ earlier now token a later, ops = earlier ++ .claimRawPatch now token a :: later →
        (db.after env earlier).consumed a.approvalId →
        ∀ reply, claimRawPatch (db.after env earlier) now token a ≠ .ok reply) := by
  refine ⟨fun c hc c' hc' ↦ ⟨fun hid ↦ ?_, fun h ↦ by rw [h]⟩, receipts_kept env db ops,
    fun _ _ _ _ _ h ↦ heldClaim_of_heartbeatRawPatch h,
    fun _ _ _ h ↦ heldClaim_of_releaseRawPatch h, fun _ _ _ _ _ h ↦ heldClaim_of_consumeRawPatch h,
    ?_⟩
  · exact Table.eq_of_key_eq hc' (receipts_kept env db ops c hc) hid
  · rintro hmeets earlier now token a later rfl hconsumed reply h
    have hclaim := (meets_append_iff.1 hmeets).2.1
    exact hclaim ⟨hconsumed, validateRawPatch_of_claimRawPatch h⟩

/-! ## A patch that can be applied twice -/

/-- Surroundings in which every digest is the same. -/
def patchEnv : Env NumToken Unit :=
  { sampleEnv with sha256 := fun _ ↦ List.replicate 64 (.scalar '0') }

/-- 64 digits behind a tag. -/
def zeros (tag : String) : Str := Str.lit tag ++ List.replicate 64 (.scalar '0')

/-- The request of a raw patch. -/
def patchRequest : ApprovalRequest :=
  { sampleRequest (.lit "A") (.lit "call") with
    change :=
      { identitySource := some (.lit "reviewed_change_binding")
        changeSetId := some (zeros "reviewed-change:v1:")
        changeHash := some (zeros "sha256:")
        baseVectorHash := some (.lit "base")
        reviewedChangeBindingDigest := some (.lit "binding")
        reviewReferenceJson := none
        executionSemanticsDigest := some (.lit "semantics") } }

/-- What an executor presents. -/
def patchArgs : RawPatchArgs where
  approvalId := .lit "A"
  approvalChainId := .lit "chain"
  authorizationMode := .human
  grantReference := none
  cacheReference := none
  userId := .lit "user"
  toolName := .lit "tool"
  argsHash := .lit "args"
  changeSetId := zeros "reviewed-change:v1:"
  changeHash := zeros "sha256:"
  baseVectorHash := .lit "base"
  reviewedChangeBindingDigest := .lit "binding"
  executionSemanticsDigest := .lit "semantics"
  preparedPayloadDigest := zeros "sha256:"

def patchReceipt : List UInt8 :=
  encodeUtf8
    (Json.asciiText (F := NumToken) (.dict [(.lit "receipt_digest", .str (zeros "sha256:"))]))

/-- A raw patch is approved, claimed and consumed. -/
def consumption : List (Op NumToken Unit) :=
  [.create patchRequest, .transitionState 1 (.lit "A") (sampleTransition .approved),
    .bindRawPatch 1 (.lit "A") (encodeUtf8 ['1']), .claimRawPatch 1 (.lit "t") patchArgs,
    .consumeRawPatch 2 (.lit "t") patchArgs patchReceipt]

/-- The receipt stays, and nobody presents the approval again. -/
theorem raw_patch_single_shot_of_consumption :
    ∃ c ∈ ((Db.empty.after patchEnv consumption).after patchEnv
        [.heartbeatRawPatch 3 (.lit "A") (.lit "t") (some 1)]).rawConsumptions.rows,
      c.approvalId = .lit "A" ∧ c.receipt = patchReceipt := by
  have hconsumed : ∃ c ∈ (Db.empty.after patchEnv consumption).rawConsumptions.rows,
      c.approvalId = .lit "A" ∧ c.receipt = patchReceipt := by decide +kernel
  obtain ⟨c, hc, hid, hreceipt⟩ := hconsumed
  obtain ⟨-, hkept, -⟩ := raw_patch_single_shot patchEnv (Db.empty.after patchEnv consumption)
    [.heartbeatRawPatch 3 (.lit "A") (.lit "t") (some 1)]
  exact ⟨c, hkept c hc, hid, hreceipt⟩

/-- **A consumed authorization is claimed again**, under a token of its own. -/
theorem claim_after_consumption :
    (∃ c ∈ (Db.empty.after patchEnv consumption).rawConsumptions.rows, c.approvalId = .lit "A") ∧
      ((claimRawPatch (Db.empty.after patchEnv consumption) 3 (.lit "u") patchArgs).map fun reply ↦
        reply.1.claimToken).toOption = some (.lit "u") := by
  decide +kernel

end AgentGateway.ApprovalStore
