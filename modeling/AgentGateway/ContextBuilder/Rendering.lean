import AgentGateway.ContextBuilder.Replay
import AgentGateway.Py.Calls

/-!
# What a replayed transcript has to be

A provider accepts a transcript only if every assistant message with tool calls is followed at
once by a user message that answers each of the calls exactly once, and if no result stands
anywhere else.  `Transcript` is that shape, together with what each answer is, and `shown` says
what it has to be: the first settlement that follows the call in the log, or else that the call
awaits its approval, or else that it was interrupted.

* `DistinctCalls` and `Replayable` are conditions on the log, and `ReplaysValid` is what the replay
  is to achieve.
* `entryToMessage_of_settlementBlocks_eq_none` is all that is needed of the rendering: an entry
  that is not a settlement gives at most one message, with the calls the log has for the entry and
  without results.
-/

namespace AgentGateway
namespace ContextBuilder

open Py SecretBoundary List

variable {F : Type}

/-! ## What the log asks for -/

/-- The ids of the `tool_use` blocks among some blocks. -/
def toolUseIds (blocks : List (Json F)) : List Str :=
  (blocks.filter (typeIs "tool_use")).filterMap fun block ↦
    match block.get? (Str.lit "id") with
    | some (.str id) => some id
    | _ => none

namespace Message

/-- The calls of a message. -/
def toolUseIds (m : Message F) : List Str :=
  match m.role, m.content with
  | .assistant, .list blocks => ContextBuilder.toolUseIds blocks
  | _, _ => []

/-- The result blocks of a message. -/
def toolResults (m : Message F) : List (Json F) :=
  match m.content with
  | .list blocks => blocks.filter (typeIs "tool_result")
  | _ => []

end Message

/-- The blocks of an assistant message or of the draft of a final answer, as the log has them. -/
def assistantBlocks (I : Interp F) (event : Event F) : List (Json F) :=
  let eventType := field I event "type" ""
  if eventType = Str.lit "assistant_message" then
    match assistantContent event with
    | .list blocks => blocks
    | _ => []
  else if eventType = Str.lit "runtime_guard" then (draftBlocks event).getD []
  else []

/-- The blocks of a user message. -/
def userBlocks (I : Interp F) (event : Event F) : List (Json F) :=
  if field I event "type" "" = Str.lit "user_message" then
    match event.lookup (Str.lit "content") with
    | some (.list blocks) => blocks
    | _ => []
  else []

/-- The calls an entry makes. -/
def callIds (I : Interp F) (event : Event F) : List Str := toolUseIds (assistantBlocks I event)

/-- The result blocks an entry settles calls with. -/
def settlements (I : Interp F) (event : Event F) : List (Json F) :=
  ((settlementBlocks I event).getD []).filter (typeIs "tool_result")

/-- The first settlement of a call that follows the call. -/
def firstSettlement (I : Interp F) : List (Event F) → Str → Option (Json F)
  | [], _ => none
  | event :: log, id =>
    if id ∈ callIds I event then (log.flatMap (settlements I)).find? fun b ↦ resultId I b = id
    else firstSettlement I log id

/-- The calls that were parked, with their approvals. -/
def parkedApprovals (I : Interp F) (log : List (Event F)) : Dict Str Str :=
  (log.foldl (fun a event ↦ a.track I (field I event "type" "") event) ⟨[], []⟩ : Approvals).parked

/-- What the model is to be shown as the result of a call. -/
def shown (I : Interp F) (log : List (Event F)) (id : Str) : Json F :=
  match firstSettlement I log id with
  | some block => block
  | none =>
    match (parkedApprovals I log).lookup id with
    | some approvalId => awaitingApprovalBlock I id approvalId
    | none => toolInterruptedBlock I id

/-- **A transcript a provider accepts**: a message with calls is followed by a user message that
starts with one result for each of them and has no other result; no other message has a result. -/
inductive Transcript (I : Interp F) (shown : Str → Json F) : List (Message F) → Prop
  | nil : Transcript I shown []
  | plain {m : Message F} {rest : List (Message F)} (calls : m.toolUseIds = [])
      (results : m.toolResults = []) (tail : Transcript I shown rest) :
      Transcript I shown (m :: rest)
  | answered {m : Message F} {rest : List (Message F)} {results extras : List (Json F)}
      (calls : m.toolUseIds ≠ []) (nodup : m.toolUseIds.Nodup) (own : m.toolResults = [])
      (ids : (results.map (resultId I)).Perm m.toolUseIds)
      (blocks : ∀ b ∈ results, typeIs "tool_result" b = true ∧ b = shown (resultId I b))
      (others : ∀ b ∈ extras, typeIs "tool_result" b = false)
      (tail : Transcript I shown rest) :
      Transcript I shown (m :: userMessage (.list (results ++ extras)) :: rest)

/-- What the blocks of an assistant message have to be like: mappings, no results among them, and
every call with an id that redaction leaves alone. -/
structure BlocksOk (I : Interp F) (blocks : List (Json F)) : Prop where
  mapping : ∀ b ∈ blocks, ∃ kvs, b = .dict kvs
  noResult : ∀ b ∈ blocks, typeIs "tool_result" b = false
  ids : ∀ b ∈ blocks, typeIs "tool_use" b = true →
    ∃ id, b.get? (Str.lit "id") = some (.str id) ∧ redact I id = id

/-- A log whose calls have distinct strings as ids, and whose user messages carry no results. -/
structure DistinctCalls (I : Interp F) (log : List (Event F)) : Prop where
  ids : ∀ event ∈ log, ∀ b ∈ assistantBlocks I event, typeIs "tool_use" b = true →
    ∃ id, b.get? (Str.lit "id") = some (.str id)
  distinct : (log.flatMap (callIds I)).Nodup
  user : ∀ event ∈ log, ∀ b ∈ userBlocks I event, typeIs "tool_result" b = false

/-- A log that can be replayed: moreover the blocks of assistant messages are mappings and no
results, and redaction leaves the ids of the calls alone. -/
structure Replayable (I : Interp F) (log : List (Event F)) : Prop extends DistinctCalls I log where
  mapping : ∀ event ∈ log, ∀ b ∈ assistantBlocks I event, ∃ kvs, b = .dict kvs
  noResult : ∀ event ∈ log, ∀ b ∈ assistantBlocks I event, typeIs "tool_result" b = false
  kept : ∀ id ∈ log.flatMap (callIds I), redact I id = id

/-- **The log replays to a transcript a provider accepts**, and all its calls are there. -/
def ReplaysValid (I : Interp F) (log : List (Event F)) : Prop :=
  ∃ groups, entriesToMessageGroups I log = .ok groups ∧
    Transcript I (shown I log) groups.flatten ∧
    groups.flatten.flatMap Message.toolUseIds = log.flatMap (callIds I)

variable {b : Json F}

variable {event : Event F}

theorem Replayable.blocksOk {I : Interp F} {log : List (Event F)} (h : Replayable I log)
    (hevent : event ∈ log) : BlocksOk I (assistantBlocks I event) where
  mapping := h.mapping event hevent
  noResult := h.noResult event hevent
  ids b hb htype := by
    obtain ⟨id, hid⟩ := h.ids event hevent b hb htype
    exact ⟨id, hid, h.kept id (mem_flatMap.2
      ⟨event, hevent, mem_filterMap.2 ⟨b, mem_filter.2 ⟨hb, htype⟩, by rw [hid]⟩⟩)⟩

/-! ## Rendering

An entry that is not a settlement gives no message, or one message with the calls the log has for
the entry and without results. -/

section Rendering

variable {I : Interp F}

theorem toolUseIds_cons_of_call {id : Str} (htype : typeIs "tool_use" b = true)
    (hid : b.get? (Str.lit "id") = some (.str id)) (blocks : List (Json F)) :
    toolUseIds (b :: blocks) = id :: toolUseIds blocks := by
  simp [toolUseIds, htype, hid]

variable {blocks : List (Json F)}

theorem toolIds_of_blocksOk (h : BlocksOk I blocks) :
    toolIds I blocks = .ok (toolUseIds blocks) := by
  induction blocks with
  | nil => rfl
  | cons b blocks ih =>
    have htail : BlocksOk I blocks :=
      ⟨fun b hb ↦ h.mapping b (mem_cons_of_mem _ hb),
        fun b hb ↦ h.noResult b (mem_cons_of_mem _ hb),
        fun b hb ↦ h.ids b (mem_cons_of_mem _ hb)⟩
    obtain ⟨kvs, rfl⟩ := h.mapping b mem_cons_self
    unfold toolIds
    split
    next htype =>
      obtain ⟨id, hid, -⟩ := h.ids _ mem_cons_self htype
      rw [toolUseIds_cons_of_call htype hid]
      rw [Json.get?] at hid
      rw [hid, ih htail]
      rfl
    next htype =>
      rw [ih htail]
      simp [toolUseIds, htype]

theorem filter_toolResult_of_blocksOk (h : BlocksOk I blocks) :
    blocks.filter (typeIs "tool_result") = [] :=
  filter_eq_nil_iff.2 fun b hb ↦ by rw [h.noResult b hb]; exact Bool.false_ne_true

theorem typeIs_sanitizeBlock {t : String} (ht : Str.lit t ∈ projectedBlockTypes) (b : Json F) :
    typeIs t (sanitizeBlock I unregistered false b) = typeIs t b := by
  cases b with
  | dict => rw [Bool.eq_iff_iff, typeIs_iff, typeIs_iff, get?_type_sanitizeBlock ht, Json.get?]
  | null => rfl
  | bool => rfl
  | int => rfl
  | float => rfl
  | str => rfl
  | list => rfl
  | foreign => rfl

/-- Sanitization keeps the blocks of an assistant message in order, and their calls. -/
theorem BlocksOk.sanitize (h : BlocksOk I blocks) :
    BlocksOk I (blocks.map (sanitizeBlock I unregistered false)) ∧
      toolUseIds (blocks.map (sanitizeBlock I unregistered false)) = toolUseIds blocks := by
  have hid : ∀ b ∈ blocks, typeIs "tool_use" b = true →
    ∃ id, b.get? (Str.lit "id") = some (.str id) ∧
      redact I id = id ∧
      (sanitizeBlock I unregistered false b).get? (Str.lit "id") = some (.str id) := by
    intro b hb htype
    obtain ⟨kvs, rfl⟩ := h.mapping b hb
    obtain ⟨id, hid, hfix⟩ := h.ids _ hb htype
    exact ⟨id, hid, hfix, get?_id_sanitizeBlock hid hfix⟩
  refine ⟨⟨?_, ?_, ?_⟩, ?_⟩
  · intro b' hb'
    obtain ⟨b, hb, rfl⟩ := mem_map.1 hb'
    obtain ⟨kvs, rfl⟩ := h.mapping b hb
    exact sanitizeBlock_dict kvs
  · intro b' hb'
    obtain ⟨b, hb, rfl⟩ := mem_map.1 hb'
    rw [typeIs_sanitizeBlock (by decide), h.noResult b hb]
  · intro b' hb' htype
    obtain ⟨b, hb, rfl⟩ := mem_map.1 hb'
    rw [typeIs_sanitizeBlock (by decide)] at htype
    obtain ⟨id, -, hfix, hid'⟩ := hid b hb htype
    exact ⟨id, hid', hfix⟩
  · have htype : (typeIs "tool_use" ∘ sanitizeBlock I unregistered false) = typeIs (F := F)
      "tool_use" :=
      funext fun b ↦ typeIs_sanitizeBlock (by decide) b
    rw [toolUseIds, filter_map, htype, filterMap_map, toolUseIds]
    refine filterMap_congr fun b hb ↦ ?_
    obtain ⟨hb, hb'⟩ := mem_filter.1 hb
    obtain ⟨id, hid, -, hid'⟩ := hid b hb hb'
    rw [Function.comp_apply, hid, hid']

theorem assistantBlocks_of_other (h₁ : field I event "type" "" ≠ Str.lit "assistant_message")
    (h₂ : field I event "type" "" ≠ Str.lit "runtime_guard") : assistantBlocks I event = [] := by
  unfold assistantBlocks
  rw [if_neg h₁, if_neg h₂]

/-- What the loop relies on in a message: no results of its own, and the calls of its entry. -/
structure Renders (I : Interp F) (event : Event F) (m : Message F) : Prop where
  results : m.toolResults = []
  calls : m.toolUseIds = callIds I event
  ids : ∀ blocks, m.role = .assistant → m.content = .list blocks →
    toolIds I blocks = .ok (callIds I event)

/-- A text, or anything else that is not a list, has neither calls nor results. -/
theorem Renders.of_not_list {m : Message F} (hcalls : callIds I event = [])
    (hcontent : ∀ blocks, m.content ≠ .list blocks) : Renders I event m := by
  refine ⟨?_, ?_, fun blocks _ h ↦ absurd h (hcontent blocks)⟩
  · unfold Message.toolResults
    split
    next blocks h => exact absurd h (hcontent blocks)
    · rfl
  · unfold Message.toolUseIds
    rw [hcalls]
    split
    next blocks _ h => exact absurd h (hcontent blocks)
    · rfl

/-- An assistant message with the blocks of the entry. -/
theorem Renders.of_blocks (hok : BlocksOk I blocks)
    (hids : ContextBuilder.toolUseIds blocks = callIds I event)
    (model stopReason provider : Option (Json F)) :
    Renders I event ⟨.assistant, .list blocks, model, stopReason, provider⟩ := by
  refine ⟨filter_toolResult_of_blocksOk hok, hids, fun blocks' _ h ↦ ?_⟩
  cases h
  rw [toolIds_of_blocksOk hok, hids]

theorem callIds_of_user (h : field I event "type" "" = Str.lit "user_message") :
    callIds I event = [] := by
  rw [callIds, assistantBlocks_of_other (by rw [h]; decide) (by rw [h]; decide)]
  rfl

theorem renders_user_message (ht : field I event "type" "" = Str.lit "user_message")
    (huser : ∀ b ∈ userBlocks I event, typeIs "tool_result" b = false) :
    Renders I event (userMessage
      (((sanitizeToolEvent I unregistered event).lookup (Str.lit "content")).getD (.str []))) := by
  have hcontent : (sanitizeToolEvent I unregistered event).lookup (Str.lit "content") =
      (event.lookup (Str.lit "content")).map (sanitizeBlocksValue I unregistered) := by
    unfold sanitizeToolEvent
    rw [show strOr I event (Str.lit "type") [] = Str.lit "user_message" from ht]
    exact (lookup_sanitizeBlocksField_of_ne (by decide)).trans (lookup_sanitizeBlocksField ..)
  have hcalls := callIds_of_user ht
  rw [hcontent]
  unfold userBlocks at huser
  rw [if_pos ht] at huser
  cases hv : event.lookup (Str.lit "content") with
  | none => exact .of_not_list hcalls nofun
  | some v =>
    rw [hv] at huser
    cases v with
    | list =>
      refine ⟨?_, by rw [hcalls]; rfl, nofun⟩
      refine filter_eq_nil_iff.2 fun b' hb' ↦ ?_
      obtain ⟨b, hb, rfl⟩ := mem_map.1 hb'
      rw [typeIs_sanitizeBlock (by decide), huser b hb]
      exact Bool.false_ne_true
    | null => exact .of_not_list hcalls nofun
    | bool => exact .of_not_list hcalls nofun
    | int => exact .of_not_list hcalls nofun
    | float => exact .of_not_list hcalls nofun
    | str => exact .of_not_list hcalls nofun
    | dict => exact .of_not_list hcalls nofun
    | foreign => exact .of_not_list hcalls nofun

/-- What `sanitizeBlocksValue` makes a list of was a list. -/
theorem map_sanitizeBlocksValue_ne_list {v : Option (Json F)}
    (h : ∀ blocks, v ≠ some (.list blocks))
    (blocks : List (Json F)) :
    v.map (sanitizeBlocksValue I unregistered) ≠ some (.list blocks) := by
  cases v with
  | none => exact nofun
  | some v =>
    cases v with
    | list blocks => exact absurd rfl (h blocks)
    | _ => exact nofun

theorem renders_assistant_message (ht : field I event "type" "" = Str.lit "assistant_message")
    (hok : BlocksOk I (assistantBlocks I event)) (model stopReason provider : Option (Json F)) :
    Renders I event ⟨.assistant, assistantContent (sanitizeToolEvent I unregistered event), model,
      stopReason, provider⟩ := by
  have hcontent : (sanitizeToolEvent I unregistered event).lookup (Str.lit "content") =
      event.lookup (Str.lit "content") := by
    rw [sanitizeToolEvent_assistant_message ht, lookup_sanitizeBlocksField_of_ne (by decide)]
  have hblocks : (sanitizeToolEvent I unregistered event).lookup (Str.lit "content_blocks") =
      (event.lookup (Str.lit "content_blocks")).map (sanitizeBlocksValue I unregistered) := by
    rw [sanitizeToolEvent_assistant_message ht, lookup_sanitizeBlocksField]
  have hraw : assistantBlocks I event =
      match assistantContent event with
      | .list blocks => blocks
      | _ => [] := if_pos ht
  have hcalls : callIds I event = toolUseIds (assistantBlocks I event) := rfl
  by_cases hlist : ∃ blocks, event.lookup (Str.lit "content_blocks") = some (.list blocks)
  · obtain ⟨blocks, hlist⟩ := hlist
    rw [assistantContent, hlist] at hraw
    rw [hraw] at hok hcalls
    rw [assistantContent, hblocks, hlist]
    exact .of_blocks hok.sanitize.1 (hok.sanitize.2.trans hcalls.symm) ..
  · -- without a list of blocks the content is passed on as it is
    have hlist : ∀ blocks, event.lookup (Str.lit "content_blocks") ≠ some (.list blocks) :=
      fun blocks h ↦ hlist ⟨blocks, h⟩
    have hsame : assistantContent (sanitizeToolEvent I unregistered event) =
        assistantContent event := by
      unfold assistantContent
      rw [hblocks, hcontent]
      split
      next blocks h => exact absurd h (map_sanitizeBlocksValue_ne_list hlist blocks)
      · rfl
    rw [hsame]
    generalize assistantContent event = content at hraw
    cases content with
    | list =>
      rw [hraw] at hok hcalls
      exact .of_blocks hok hcalls.symm ..
    | _ =>
      rw [hraw] at hcalls
      exact .of_not_list hcalls nofun

theorem draftBlocks_sanitizeToolEvent (ht : field I event "type" "" = Str.lit "runtime_guard") :
    draftBlocks (sanitizeToolEvent I unregistered event) =
      (draftBlocks event).map (·.map (sanitizeBlock I unregistered false)) := by
  have hguard : (sanitizeToolEvent I unregistered event).lookup (Str.lit "guard") =
      event.lookup (Str.lit "guard") := by
    rw [sanitizeToolEvent_runtime_guard ht, lookup_sanitizeBlocksField_of_ne (by decide),
      lookup_sanitizeField_of_ne (by decide)]
  have hdraft : (sanitizeToolEvent I unregistered event).lookup (Str.lit "draft_content_blocks") =
      (event.lookup (Str.lit "draft_content_blocks")).map (sanitizeBlocksValue I unregistered) := by
    rw [sanitizeToolEvent_runtime_guard ht, lookup_sanitizeBlocksField,
      lookup_sanitizeField_of_ne (by decide)]
  unfold draftBlocks
  rw [hguard, hdraft]
  split
  · split
    · generalize event.lookup (Str.lit "draft_content_blocks") = v
      cases v with
      | none => rfl
      | some v => cases v <;> rfl
    · rfl
  · rfl

theorem renders_draft (ht : field I event "type" "" = Str.lit "runtime_guard")
    (hok : BlocksOk I (assistantBlocks I event))
    (hblocks : draftBlocks (sanitizeToolEvent I unregistered event) = some blocks)
    (model stopReason provider : Option (Json F)) :
    Renders I event ⟨.assistant, .list blocks, model, stopReason, provider⟩ := by
  rw [draftBlocks_sanitizeToolEvent ht, Option.map_eq_some_iff] at hblocks
  obtain ⟨raw, hraw, rfl⟩ := hblocks
  have hassistant : assistantBlocks I event = raw := by
    unfold assistantBlocks
    rw [ht, if_neg (by decide), if_pos rfl, hraw, Option.getD_some]
  rw [hassistant] at hok
  refine .of_blocks hok.sanitize.1 (hok.sanitize.2.trans ?_) ..
  rw [callIds, hassistant]

/-- **An entry that is not a settlement gives no message, or one with the calls of the entry and
without results.** -/
theorem entryToMessage_of_settlementBlocks_eq_none (hok : BlocksOk I (assistantBlocks I event))
    (huser : ∀ b ∈ userBlocks I event, typeIs "tool_result" b = false)
    (hnone : settlementBlocks I event = none) :
    (entryToMessage I (field I event "type" "") event = [] ∧ callIds I event = []) ∨
      ∃ m, entryToMessage I (field I event "type" "") event = [m] ∧ Renders I event m := by
  have hother (h₁ : field I event "type" "" ≠ Str.lit "assistant_message")
      (h₂ : field I event "type" "" ≠ Str.lit "runtime_guard") : callIds I event = [] := by
    rw [callIds, assistantBlocks_of_other h₁ h₂]
    rfl
  have hsettle := settlementBlocks.eq_1 I event
  rw [hnone] at hsettle
  generalize hrender : entryToMessage I (field I event "type" "") event = rendered at hsettle ⊢
  unfold entryToMessage at hrender
  dsimp only at hrender
  subst hrender
  split
  next ht => exact .inr ⟨_, rfl, renders_user_message ht huser⟩
  next h₃ =>
  split
  next ht =>
    exact .inr ⟨_, rfl, .of_not_list (hother (by rw [ht]; decide) (by rw [ht]; decide)) nofun⟩
  next h₄ =>
  split
  next ht => exact .inr ⟨_, rfl, renders_assistant_message ht hok _ _ _⟩
  next h₁ =>
  split
  next ht =>
    split
    next blocks hblocks => exact .inr ⟨_, rfl, renders_draft ht hok hblocks _ _ _⟩
    next hdraft =>
      refine .inl ⟨rfl, ?_⟩
      rw [draftBlocks_sanitizeToolEvent ht, Option.map_eq_none_iff] at hdraft
      unfold callIds assistantBlocks
      rw [if_neg h₁, if_pos ht, hdraft]
      rfl
  next h₂ =>
  have hcalls := hother h₁ h₂
  split
  next ht =>
    rw [if_pos ht, if_neg h₃, if_neg h₄, if_neg h₁, if_neg h₂, if_pos ht] at hsettle
    split at hsettle
    · cases hsettle
    next hne =>
    generalize hrender : settlementMessage I (field I event "type" "")
      (sanitizeToolEvent I unregistered event) = rendered at hne ⊢
    unfold settlementMessage at hrender
    dsimp only at hrender
    split at hrender
    · exact absurd hrender.symm (hne _ _ _ _ _)
    next =>
    split at hrender
    · split at hrender
      · exact .inl ⟨hrender.symm, hcalls⟩
      · exact absurd hrender.symm (hne _ _ _ _ _)
    · exact .inr ⟨_, hrender.symm, .of_not_list hcalls nofun⟩
  next =>
  split
  · exact .inr ⟨_, rfl, .of_not_list hcalls nofun⟩
  · exact .inl ⟨rfl, hcalls⟩

end Rendering

end ContextBuilder
end AgentGateway
