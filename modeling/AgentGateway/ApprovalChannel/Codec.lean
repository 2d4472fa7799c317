import AgentGateway.Py.Calls
import AgentGateway.Py.Framing
import AgentGateway.Py.JsonRoundTrip

/-!
# Approval decisions and their frames

A decision of the approval channel is an object with fourteen fields, encoded as canonical JSON.
The checks of `__post_init__` are fields of `Authority` and `Decision`, so whatever there is of
either has passed them.

* `decodeDecision_of_encode`: the child decodes what the parent encodes.
* `eq_of_encode_eq`: two decisions of one authority with one encoding are the same decision.
-/

namespace AgentGateway.ApprovalChannel

open Py

inductive ChannelError where
  | state (message : String)
  | protocol (message : String)
  | timeout
  | transport (message : String)
  /-- a `ValueError`, or the `struct.error` of a frame that is too long -/
  | value (message : String)
deriving DecidableEq

/-- `AutonomousApprovalChannelProtocolError` -/
def ChannelError.isProtocol : ChannelError → Bool
  | .protocol _ => true
  | _ => false

/-! ## Decisions -/

/-- `_canonical_text` lets the text through. -/
def isCanonicalText (maxLength : Nat) (s : Str) : Bool :=
  s != [] && s == s.strip && s.length ≤ maxLength && s.all fun p ↦ 0x20 ≤ p.ord

/-- `_hex_text` lets the text through. -/
def isHexText (length : Nat) (s : Str) : Bool :=
  isCanonicalText length s && s.length == length &&
    s.all fun p ↦ p ∈ (.lit "0123456789abcdef" : Str)

/-- `AutonomousApprovalChannelAuthority` -/
structure Authority where
  launchNonce : Str
  taskId : Str
  controlRunId : Str
  sessionId : Str
  channelId : Str
  valid : (isHexText 32 launchNonce && isCanonicalText 512 taskId &&
    isCanonicalText 512 controlRunId && isCanonicalText 512 sessionId &&
    isHexText 64 channelId) = true
deriving DecidableEq

/-- `AutonomousApprovalDecision` -/
structure Decision where
  authority : Authority
  deliverySequence : Nat
  approvalId : Str
  toolCallId : Str
  nonce : Str
  approved : Bool
  decidedAtNs : Nat
  valid : (decide (1 ≤ deliverySequence) && isCanonicalText 512 approvalId &&
    isCanonicalText 512 toolCallId && isCanonicalText 512 nonce &&
    decide (1 ≤ decidedAtNs)) = true
deriving DecidableEq

def Decision.deliveryId (d : Decision) : Str × Str × Str := (d.approvalId, d.toolCallId, d.nonce)

variable {F : Type}

def Decision.frame (d : Decision) : Json F :=
  .dict [(.lit "kind", .str (.lit "APPROVAL_DECISION")), (.lit "version", .int 1),
    (.lit "launch_nonce", .str d.authority.launchNonce), (.lit "task_id", .str d.authority.taskId),
    (.lit "control_run_id", .str d.authority.controlRunId),
    (.lit "session_id", .str d.authority.sessionId),
    (.lit "channel_id", .str d.authority.channelId),
    (.lit "delivery_sequence", .int d.deliverySequence), (.lit "approval_id", .str d.approvalId),
    (.lit "tool_call_id", .str d.toolCallId), (.lit "nonce", .str d.nonce),
    (.lit "approved", .bool d.approved), (.lit "allow_tool_type", .bool false),
    (.lit "decided_at_ns", .int d.decidedAtNs)]

def decisionFields : List Str :=
  [.lit "kind", .lit "version", .lit "launch_nonce", .lit "task_id", .lit "control_run_id",
    .lit "session_id", .lit "channel_id", .lit "delivery_sequence", .lit "approval_id",
    .lit "tool_call_id", .lit "nonce", .lit "approved", .lit "allow_tool_type",
    .lit "decided_at_ns"]

theorem uniqueKeys_frame (d : Decision) : (d.frame : Json F).UniqueKeys := by
  have h : decisionFields.Nodup := by decide
  exact Json.uniqueKeys_dict_iff.2 ⟨h, by simp [Json.UniqueKeys, Json.fold]⟩

/-! ## Encoding -/

variable [PyFloat F]

def canonicalBody (value : Json F) : Except ChannelError (List UInt8) :=
  match dumps value with
  | none => .error (.protocol "autonomous approval frame is not canonical JSON")
  | some [] => .error (.protocol "autonomous approval frame is empty")
  | some body => .ok body

/-- The body of `_encode_decision`; the payload is its frame. -/
def encodeDecision (F : Type) [PyFloat F] (d : Decision) : Except ChannelError (List UInt8) := do
  let body ← canonicalBody (d.frame : Json F)
  if body.length < 2 ^ 32 then .ok body else .error (.value "'I' format requires a number")

/-! ## Decoding -/

/-- `_reject_duplicate_fields` and `_reject_non_json_constant`, with what `_decode_decision` makes
of any failure of `json.loads`. -/
def decisionHooks : LoadsHooks F ChannelError where
  invalid := .protocol "autonomous approval frame is malformed"
  objectPairsHook pairs :=
    if (pairs.map Prod.fst).Nodup then .ok (.dict pairs)
    else .error (.protocol "autonomous approval frame is malformed")
  parseConstant _ := .protocol "autonomous approval frame is malformed"

/-- The fields, the kind, the version and `allow_tool_type` are as they must be. -/
def closedContract : Json F → Bool
  | .dict kvs =>
    decide ((∀ k ∈ kvs.map Prod.fst, k ∈ decisionFields) ∧
      ∀ k ∈ decisionFields, k ∈ kvs.map Prod.fst) &&
    (match (Json.dict kvs).get? (.lit "kind") with
      | some (.str kind) => kind == .lit "APPROVAL_DECISION"
      | _ => false) &&
    (match (Json.dict kvs).get? (.lit "version") with
      | some (.int version) => version == 1
      | _ => false) &&
    (match (Json.dict kvs).get? (.lit "allow_tool_type") with
      | some (.bool allowed) => !allowed
      | _ => false)
  | _ => false

/-- `AutonomousApprovalChannelAuthority(…)`, unless it raises -/
def authorityOf? (value : Json F) : Option Authority :=
  match value.get? (.lit "launch_nonce"), value.get? (.lit "task_id"),
    value.get? (.lit "control_run_id"), value.get? (.lit "session_id"),
    value.get? (.lit "channel_id") with
  | some (.str launchNonce), some (.str taskId), some (.str controlRunId), some (.str sessionId),
    some (.str channelId) =>
    if h : _ then some ⟨launchNonce, taskId, controlRunId, sessionId, channelId, h⟩ else none
  | _, _, _, _, _ => none

/-- `AutonomousApprovalDecision(…)`, unless it raises -/
def decisionOf? (authority : Authority) (value : Json F) : Option Decision :=
  match value.get? (.lit "delivery_sequence"), value.get? (.lit "approval_id"),
    value.get? (.lit "tool_call_id"), value.get? (.lit "nonce"), value.get? (.lit "approved"),
    value.get? (.lit "decided_at_ns") with
  | some (.int (.ofNat sequence)), some (.str approvalId), some (.str toolCallId),
    some (.str nonce), some (.bool approved), some (.int (.ofNat decidedAt)) =>
    if h : _ then some ⟨authority, sequence, approvalId, toolCallId, nonce, approved, decidedAt, h⟩
    else none
  | _, _, _, _, _, _ => none

def decodeDecision (F : Type) [PyFloat F] (authority : Authority) (body : List UInt8) :
    Except ChannelError Decision :=
  match decodeUtf8 body with
  | none => .error (.protocol "autonomous approval frame is malformed")
  | some text => do
    let value : Json F ← loads decisionHooks text
    if !closedContract value then
      .error (.protocol "autonomous approval frame violates its closed contract")
    else do
      let canonical ← canonicalBody value
      if canonical ≠ body then
        .error (.protocol "autonomous approval frame is not canonically encoded")
      else
        match authorityOf? value with
        | none => .error (.protocol "autonomous approval frame fields are invalid")
        | some frameAuthority =>
          match decisionOf? frameAuthority value with
          | none => .error (.protocol "autonomous approval frame fields are invalid")
          | some decision =>
            if decision.authority ≠ authority then
              .error (.protocol "autonomous approval frame changed admitted authority")
            else .ok decision

/-! ## The round trip -/

omit [PyFloat F] in
theorem decisionHooks_keepsDistinct : KeepsDistinct (decisionHooks (F := F)) := by
  intro kvs hnd
  exact if_pos hnd

theorem encodeDecision_ok {d : Decision} {body : List UInt8} (h : encodeDecision F d = .ok body) :
    dumps (d.frame : Json F) = some body ∧ body ≠ [] ∧ body.length < 2 ^ 32 := by
  obtain ⟨body', hbody, h⟩ := bind_eq_ok_iff.1 h
  split at h
  next hlen =>
    cases h
    unfold canonicalBody at hbody
    split at hbody
    · cases hbody
    · cases hbody
    next hne heq =>
      cases hbody
      exact ⟨heq, hne, hlen⟩
  · cases h

theorem canonicalBody_sortKeys {v : Json F} {body : List UInt8} (h : dumps v = some body)
    (hne : body ≠ []) : canonicalBody v.sortKeys = .ok body := by
  have hs : dumps v.sortKeys = some body := by
    rw [dumps, Json.sortKeys_sortKeys]
    exact h
  cases body with
  | nil => exact absurd rfl hne
  | cons =>
    rw [canonicalBody, hs]

section Fields

variable (d : Decision)

omit [PyFloat F] in
theorem get?_frame_sortKeys (k : Str) :
    (d.frame : Json F).sortKeys.get? k = ((d.frame : Json F).get? k).map Json.sortKeys :=
  Json.get?_sortKeys (uniqueKeys_frame d) k

omit [PyFloat F] in
theorem closedContract_frame : closedContract (d.frame : Json F).sortKeys = true := by
  obtain ⟨kvs, hkvs, hperm⟩ : ∃ kvs, (d.frame : Json F).sortKeys = .dict kvs ∧
      (kvs.map Prod.fst).Perm decisionFields :=
    (Json.sortKeys_dict_perm _).imp fun _ h ↦ ⟨h.1, h.2.map Prod.fst⟩
  have hget := get?_frame_sortKeys (F := F) d
  rw [hkvs] at hget ⊢
  have hkeys : (∀ k ∈ kvs.map Prod.fst, k ∈ decisionFields) ∧
      ∀ k ∈ decisionFields, k ∈ kvs.map Prod.fst :=
    ⟨fun k hk ↦ hperm.mem_iff.1 hk, fun k hk ↦ hperm.mem_iff.2 hk⟩
  rw [closedContract, decide_eq_true hkeys, hget, hget, hget]
  rfl

omit [PyFloat F] in
theorem authorityOf?_frame : authorityOf? (d.frame : Json F).sortKeys = some d.authority := by
  simp only [authorityOf?, get?_frame_sortKeys]
  exact dif_pos d.authority.valid

omit [PyFloat F] in
theorem decisionOf?_frame :
    decisionOf? d.authority (d.frame : Json F).sortKeys = some d := by
  simp only [decisionOf?, get?_frame_sortKeys]
  exact dif_pos d.valid

/-- **The child decodes what the parent encodes.** -/
theorem decodeDecision_of_encode {d : Decision} {body : List UInt8}
    (h : encodeDecision F d = .ok body) : decodeDecision F d.authority body = .ok d := by
  obtain ⟨hd, hne, -⟩ := encodeDecision_ok h
  obtain ⟨text, htext, hloads⟩ := loads_dumps decisionHooks_keepsDistinct hd (uniqueKeys_frame d)
  have hcontract := closedContract_frame (F := F) d
  have hauthority := authorityOf?_frame (F := F) d
  have hdecision := decisionOf?_frame (F := F) d
  have hcanonical := canonicalBody_sortKeys hd hne
  generalize (d.frame : Json F).sortKeys = value at *
  rw [decodeDecision, htext]
  refine bind_eq_ok_iff.2 ⟨value, hloads, ?_⟩
  rw [hcontract, if_neg (by decide)]
  refine bind_eq_ok_iff.2 ⟨body, hcanonical, ?_⟩
  rw [if_neg (not_not.2 rfl), hauthority]
  dsimp only
  rw [hdecision]
  exact if_neg (not_not.2 rfl)

/-- Two decisions of one authority with one encoding are the same decision. -/
theorem eq_of_encode_eq {d d' : Decision} {body : List UInt8} (h : encodeDecision F d = .ok body)
    (h' : encodeDecision F d' = .ok body) (hauth : d.authority = d'.authority) : d = d' := by
  have hd := decodeDecision_of_encode h
  rw [hauth, decodeDecision_of_encode h'] at hd
  exact (Except.ok.inj hd).symm

end Fields

end AgentGateway.ApprovalChannel
