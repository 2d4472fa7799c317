import AgentGateway.SecretBoundary

/-!
# Replaying a session log as a transcript

`SessionContextBuilder` turns the entries of a durable session log back into the messages a
provider is sent.  Tool calls stand in assistant messages; their results are entries of their own,
which may come much later, out of order, twice, or not at all, while the provider wants every call
answered in the very next message.  The replay therefore keeps a *batch* for every assistant
message with calls, moves the result blocks it meets into the batch of their call, and answers
what is left over at the end.

* `entryToMessage` renders one entry.
* `Replay` is the state of the loop, `Replay.step` its body and `entriesToMessageGroups` the whole.
  A batch is kept in the group it completes, and `pendingCalls` names groups by their position,
  where the code shares the objects.
* `Approvals.track` follows which calls asked for an approval and which were parked.
-/

namespace AgentGateway
namespace ContextBuilder

open Py SecretBoundary

variable {F : Type}

/-! ## Messages -/

inductive Role where
  | user
  | assistant
deriving DecidableEq

structure Message (F : Type) where
  role : Role
  content : Json F
  model : Option (Json F)
  stopReason : Option (Json F)
  provider : Option (Json F)

/-- `{"role": "user", "content": content}` -/
def userMessage (content : Json F) : Message F := ⟨.user, content, none, none, none⟩

/-- `block.get("type") == t` -/
def typeIs (t : String) (block : Json F) : Bool :=
  match block.get? (Str.lit "type") with
  | some (.str s) => s = Str.lit t
  | _ => false

theorem typeIs_iff {t : String} {block : Json F} :
    typeIs t block = true ↔ block.get? (Str.lit "type") = some (.str (Str.lit t)) := by
  unfold typeIs
  split
  next s heq => rw [heq, decide_eq_true_iff, Option.some_inj, Json.str.injEq]
  next h => exact ⟨nofun, fun heq ↦ absurd heq (h _)⟩

/-- `event.get(key)` where only a true value counts -/
def truthyField (I : Interp F) (event : Event F) (key : String) : Option (Json F) :=
  (event.lookup (Str.lit key)).filter (Json.truthy I)

/-- `str(event.get(key) or default)` -/
def field (I : Interp F) (event : Event F) (key : String) (default : String) : Str :=
  strOr I event (Str.lit key) (Str.lit default)

/-! ## The text of a recap -/

def pick (source : Option (Json F)) (fields : List String) : Dict Str (Json F) :=
  match source with
  | some (.dict kvs) =>
    fields.filterMap fun name ↦ (kvs.lookup (Str.lit name)).map fun v ↦ (Str.lit name, v)
  | _ => []

/-- The lists of a recap that are shown again, with the fields of their items. -/
def recapLists : List (String × List String) :=
  [("artifacts", ["artifact_id", "skill", "contract_name", "ticker", "artifact_path"]),
    ("verdicts", ["skill_run_id", "skill", "ticker", "verdict_token", "confidence",
      "materiality_cushion", "one_line_summary"]),
    ("approvals", ["tool_name", "outcome", "decision_source", "allow_tool_type_applied"]),
    ("failures", ["failure_type", "detail"])]

def recapReplayProjection (event : Event F) : Dict Str (Json F) :=
  let projection : Dict Str (Json F) :=
    [(Str.lit "trigger", (event.lookup (Str.lit "trigger")).getD .null)]
  let projection := recapLists.foldl (fun projection (key, fields) ↦
    match event.lookup (Str.lit key) with
    | some (.list (item :: items)) =>
      projection.set (Str.lit key)
        (.list ((item :: items).map fun item ↦ .dict (pick (some item) fields)))
    | _ => projection) projection
  let projection := projection.set (Str.lit "tool_calls_summary")
    (.dict (pick (event.lookup (Str.lit "tool_calls_summary"))
      ["total_calls", "successes", "errors", "by_tool_name", "measurements"]))
  match pick (event.lookup (Str.lit "usage"))
      ["input_tokens", "output_tokens", "cache_read_tokens", "cache_creation_tokens", "cost",
        "turns", "model"] with
  | [] => projection
  | usage => projection.set (Str.lit "usage") (.dict usage)

/-! ## Rendering an entry -/

/-- The blocks of a settlement that are shown to the model. -/
def finalBlocks (I : Interp F) (event : Event F) : List (Json F) :=
  match event.lookup (Str.lit "final_tool_result_blocks") with
  | some (.list blocks) => blocks.filter fun block ↦
      match block with
      | .dict kvs => !((kvs.lookup (Str.lit "_event_only")).any (Json.truthy I))
      | _ => false
  | _ => []

/-- The result block of a `tool_call_complete` that carries no blocks of its own. -/
def completedBlock (I : Interp F) (event : Event F) (toolCallId : Str) : Json F :=
  let result (content : Json F) : Dict Str (Json F) :=
    [(Str.lit "type", .str (Str.lit "tool_result")), (Str.lit "tool_use_id", .str toolCallId),
      (Str.lit "content", .str (I.dumps content))]
  match event.lookup (Str.lit "error") with
  | some .null | none =>
    let block := result ((event.lookup (Str.lit "result")).getD .null)
    match event.lookup (Str.lit "is_error") with
    | some (.bool true) => .dict (block ++ [(Str.lit "is_error", .bool true)])
    | _ => .dict block
  | some error =>
    .dict (result (.dict [(Str.lit "error", error)]) ++ [(Str.lit "is_error", .bool true)])

/-- The text that stands for an interrupted tool call without blocks. -/
def interruptedText (I : Interp F) (event : Event F) : Str :=
  Str.lit "[Session log] Previous run interrupted tool `" ++
    field I event "tool_name" "unknown_tool" ++ Str.lit "`. " ++
    (match event.lookup (Str.lit "original_started_at") with
    | some .null | none => []
    | some startedAt => Str.lit "Original start time: " ++ startedAt.toStr I ++ Str.lit ". ") ++
    Str.lit "Risk: " ++ field I event "tool_risk" "side_effecting" ++ Str.lit "."

/-- The message of a completed or interrupted call. -/
def settlementMessage (I : Interp F) (eventType : Str) (event : Event F) : List (Message F) :=
  let blocks := finalBlocks I event
  if blocks ≠ [] then [userMessage (.list blocks)]
  else if eventType = Str.lit "tool_call_complete" then
    let toolCallId := field I event "tool_call_id" ""
    if toolCallId = [] then [] else [userMessage (.list [completedBlock I event toolCallId])]
  else [userMessage (.str (interruptedText I event))]

/-- The content of an assistant message. -/
def assistantContent (event : Event F) : Json F :=
  match event.lookup (Str.lit "content_blocks") with
  | some (.list blocks) => .list blocks
  | _ => (event.lookup (Str.lit "content")).getD (.str [])

/-- The draft of a final answer that a guard held back. -/
def draftBlocks (event : Event F) : Option (List (Json F)) :=
  match event.lookup (Str.lit "guard") with
  | some (.str guard) =>
    if guard = Str.lit "final_answer" then
      match event.lookup (Str.lit "draft_content_blocks") with
      | some (.list blocks) => some blocks
      | _ => none
    else none
  | _ => none

/-- `_entry_to_message`: no message, one, or the messages of a draft. -/
def entryToMessage (I : Interp F) (eventType : Str) (event : Event F) : List (Message F) :=
  let event := sanitizeToolEvent I unregistered event
  if eventType = Str.lit "user_message" then
    [userMessage ((event.lookup (Str.lit "content")).getD (.str []))]
  else if eventType = Str.lit "session_recap" then
    [userMessage (.str (Str.lit "## Previous turn recap\n\n" ++
      I.dumps (Json.dict (recapReplayProjection event)).sortKeys))]
  else if eventType = Str.lit "assistant_message" then
    [⟨.assistant, assistantContent event, truthyField I event "model",
      truthyField I event "stop_reason", truthyField I event "provider"⟩]
  else if eventType = Str.lit "runtime_guard" then
    match draftBlocks event with
    | some blocks =>
      [⟨.assistant, .list blocks, truthyField I event "draft_model",
        truthyField I event "draft_stop_reason", truthyField I event "draft_provider"⟩]
    | none => []
  else if eventType ∈ [Str.lit "tool_call_complete", Str.lit "tool_call_interrupted"] then
    settlementMessage I eventType event
  else if eventType = Str.lit "interrupted" then
    [userMessage (.str (Str.lit "[Session log] Previous run ended with interruption reason: " ++
      field I event "reason" "unknown" ++ Str.lit "."))]
  else []

/-! ## Approvals -/

/-- The approvals that are asked for in the current run, and the calls that were parked, each with
the id of its approval. -/
structure Approvals where
  asked : Dict Str Str
  parked : Dict Str Str

/-- What an event does to the approvals. -/
def Approvals.track (I : Interp F) (a : Approvals) (eventType : Str) (event : Event F) :
    Approvals :=
  if eventType = Str.lit "tool_approval_request" then
    let toolCallId := field I event "tool_call_id" ""
    ⟨a.asked.set toolCallId (field I event "approval_id" ""), a.parked⟩
  else if eventType = Str.lit "tool_approval_decided" then
    ⟨a.asked.pop (field I event "tool_call_id" ""), a.parked⟩
  else if eventType = Str.lit "stream_complete" then
    let parked :=
      match event.lookup (Str.lit "terminal_disposition") with
      | some (.str disposition) =>
        if disposition = Str.lit "awaiting_approval" then
          match truthyField I event "original_tool_call_id" with
          | some parkedId =>
            let parkedId := parkedId.toStr I
            a.parked.set parkedId
              (strOr I event (Str.lit "approval_id") ((a.asked.lookup parkedId).getD []))
          | none => a.parked.update a.asked
        else a.parked
      | _ => a.parked
    ⟨[], parked⟩
  else a

/-! ## The loop -/

/-- What the loop body may raise. -/
inductive ReplayError where
  /-- a block of an assistant message is not a mapping -/
  | attributeError
  /-- a `tool_use` block has no id -/
  | keyError
deriving DecidableEq

/-- `_ReplayToolBatch`, but for the messages it completes -/
structure ReplayToolBatch (F : Type) where
  resultBlocks : List (Json F)
  deferredExtras : List (Json F)

/-- A group of messages, with its batch if its message has tool calls. -/
structure Group (F : Type) where
  messages : List (Message F)
  batch : Option (ReplayToolBatch F)

namespace Group

def addResult (block : Json F) (g : Group F) : Group F :=
  { g with batch := g.batch.map fun b ↦ { b with resultBlocks := b.resultBlocks ++ [block] } }

def addExtra (block : Json F) (g : Group F) : Group F :=
  { g with batch := g.batch.map fun b ↦ { b with deferredExtras := b.deferredExtras ++ [block] } }

/-- The messages of the group in the end: a batch with results is answered by one user message. -/
def complete (g : Group F) : List (Message F) :=
  match g.batch with
  | some b =>
    if b.resultBlocks.isEmpty then g.messages
    else g.messages ++ [userMessage (.list (b.resultBlocks ++ b.deferredExtras))]
  | none => g.messages

end Group

/-- `str(block.get("tool_use_id") or "")` -/
def resultId (I : Interp F) (block : Json F) : Str :=
  match block with
  | .dict kvs => field I kvs "tool_use_id" ""
  | _ => []

/-- `[str(block["id"]) for block in content if block.get("type") == "tool_use"]` -/
def toolIds (I : Interp F) : List (Json F) → Except ReplayError (List Str)
  | [] => .ok []
  | .dict kvs :: blocks =>
    if typeIs "tool_use" (.dict kvs) then
      match kvs.lookup (Str.lit "id") with
      | some id => (id.toStr I :: ·) <$> toolIds I blocks
      | none => .error .keyError
    else toolIds I blocks
  | _ :: _ => .error .attributeError

/-- What is said of a result whose call is not replayed. -/
def terminalText (I : Interp F) (block : Json F) : Json F :=
  .dict [(Str.lit "type", .str (Str.lit "text")),
    (Str.lit "text", .str (Str.lit "[Session log] Terminal result for `" ++ resultId I block ++
      Str.lit "` (call outside replayed context): " ++ I.dumps block))]

/-- The block that answers a parked call. -/
def awaitingApprovalBlock (I : Interp F) (toolId approvalId : Str) : Json F :=
  .dict [(Str.lit "type", .str (Str.lit "tool_result")), (Str.lit "tool_use_id", .str toolId),
    (Str.lit "content",
      .str (I.dumps (.dict [(Str.lit "status", .str (Str.lit "awaiting_approval")),
      (Str.lit "approval_id", .str approvalId)])))]

/-- The block that answers a call nothing is known of. -/
def toolInterruptedBlock (I : Interp F) (toolId : Str) : Json F :=
  .dict [(Str.lit "type", .str (Str.lit "tool_result")), (Str.lit "tool_use_id", .str toolId),
    (Str.lit "is_error", .bool true),
    (Str.lit "content", .str (I.dumps (.dict [(Str.lit "error", .dict [
      (Str.lit "code", .str (Str.lit "tool_interrupted")),
      (Str.lit "message", .str (Str.lit
        "The run ended without a tool result; execution may not have completed."))])])))]

/-- The state of the loop of `_entries_to_message_groups`. -/
structure Replay (F : Type) where
  groups : List (Group F)
  /-- the calls without a result, each with the position of its group -/
  pendingCalls : Dict Str Nat
  approvals : Approvals

namespace Replay

def init : Replay F := ⟨[], [], ⟨[], []⟩⟩

/-- The result goes to the group of its call, which is no longer pending. -/
def answer (s : Replay F) (toolId : Str) (group : Nat) (block : Json F) : Replay F :=
  { s with groups := s.groups.modify group (Group.addResult block),
           pendingCalls := s.pendingCalls.pop toolId }

/-- One block of a settlement; blocks that no group takes go to the terminal context. -/
def settleBlock (I : Interp F) (eventBatch : Option Nat) :
    Replay F × List (Json F) → Json F → Replay F × List (Json F)
  | (s, context), block =>
    if typeIs "tool_result" block then
      match s.pendingCalls.lookup (resultId I block) with
      | some group => (s.answer (resultId I block) group block, context)
      | none => (s, context ++ [terminalText I block])
    else
      match eventBatch with
      | some group => ({ s with groups := s.groups.modify group (Group.addExtra block) }, context)
      | none => (s, context ++ [block])

/-- The blocks of a settlement. -/
def settle (I : Interp F) (s : Replay F) (event : Event F) (blocks : List (Json F)) : Replay F :=
  let eventBatch := s.pendingCalls.lookup (field I event "tool_call_id" "")
  let (s, context) := blocks.foldl (settleBlock I eventBatch) (s, [])
  if context.isEmpty then s
  else { s with groups := s.groups ++ [⟨[userMessage (.list context)], none⟩] }

/-- A message of any other entry.  An inline result answers its call in place. -/
def addMessage (I : Interp F) (s : Replay F) (m : Message F) : Except ReplayError (Replay F) :=
  match m.role, m.content with
  | .user, .list blocks =>
    .ok { s with
      groups := s.groups ++ [⟨[m], none⟩]
      pendingCalls := (blocks.filter (typeIs "tool_result")).foldl
        (fun pending block ↦ pending.pop (resultId I block)) s.pendingCalls }
  | .assistant, .list blocks => do
    let ids ← toolIds I blocks
    if ids.isEmpty then return { s with groups := s.groups ++ [⟨[m], none⟩] }
    else return { s with
      groups := s.groups ++ [⟨[m], some ⟨[], []⟩⟩]
      pendingCalls := ids.foldl (fun pending id ↦ pending.set id s.groups.length) s.pendingCalls }
  | _, _ => .ok { s with groups := s.groups ++ [⟨[m], none⟩] }

end Replay

/-- The blocks an entry settles calls with, if it is such an entry. -/
def settlementBlocks (I : Interp F) (event : Event F) : Option (List (Json F)) :=
  let eventType := field I event "type" ""
  if eventType ∈ [Str.lit "tool_call_complete", Str.lit "tool_call_interrupted"] then
    match entryToMessage I eventType event with
    | [⟨_, .list blocks, _, _, _⟩] => some blocks
    | _ => none
  else none

namespace Replay

/-- The body of the loop. -/
def step (I : Interp F) (s : Replay F) (event : Event F) : Except ReplayError (Replay F) :=
  let eventType := field I event "type" ""
  let s := { s with approvals := s.approvals.track I eventType event }
  match settlementBlocks I event with
  | some blocks => .ok (s.settle I event blocks)
  | none => (entryToMessage I eventType event).foldlM (addMessage I) s

/-- A pending call is answered by the block; any other call is left alone. -/
def answerIfPending (s : Replay F) (toolId : Str) (block : Json F) : Replay F :=
  match s.pendingCalls.lookup toolId with
  | some group => s.answer toolId group block
  | none => s

/-- The parked calls that have no result yet are shown as awaiting their approval. -/
def answerParked (I : Interp F) (s : Replay F) : Replay F :=
  s.approvals.parked.foldl (fun s p ↦ s.answerIfPending p.1 (awaitingApprovalBlock I p.1 p.2)) s

/-- All other pending calls are shown as interrupted. -/
def answerPending (I : Interp F) (s : Replay F) : List (Group F) :=
  s.pendingCalls.foldl (fun groups p ↦
    groups.modify p.2 (Group.addResult (toolInterruptedBlock I p.1))) s.groups

end Replay

def entriesToMessageGroups (I : Interp F) (log : List (Event F)) :
    Except ReplayError (List (List (Message F))) := do
  let s ← log.foldlM (Replay.step I) Replay.init
  return (s.answerParked I).answerPending I |>.map Group.complete

end ContextBuilder
end AgentGateway
