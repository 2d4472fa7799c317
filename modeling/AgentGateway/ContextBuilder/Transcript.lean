import AgentGateway.ContextBuilder.Rendering

/-!
# The replayed transcript answers every call

The loop of the replay has to keep in step with the history of every single call: whether it has
been made, is waiting for its result, or has been settled, and by which block.  `CallState` follows
that history through the log on its own, without the batches, and `Inv` ties the batches and the
pending calls of the loop to it.

* `foldl_track_absent`: the history of a call ends with the first settlement that follows it.
* `Inv.answer`, `Inv.addExtra`, `Inv.addPlain` and `Inv.addCalls` are the moves of the loop, and
  `foldlM_step_ok` is the loop; `inv_answerParked` and `inv_answerPending` are the two passes after
  it.
* `replay_answers_every_call` is the result for all logs.  `replay_of_unsuitable_logs` has three
  logs that show why each of its conditions is there.
-/

namespace AgentGateway
namespace ContextBuilder

open Py SecretBoundary List

variable {F : Type}

/-! ## The history of one call -/

/-- What has happened to a call so far. -/
inductive CallState (F : Type) where
  | absent
  | pending
  | settled (block : Json F)

/-- A result block settles the call it names, if that is pending. -/
def observe (I : Interp F) (id : Str) (c : CallState F) (block : Json F) : CallState F :=
  match c with
  | .pending => if resultId I block = id then .settled block else .pending
  | c => c

/-- What an entry does to a call. -/
def CallState.track (I : Interp F) (id : Str) (c : CallState F) (event : Event F) : CallState F :=
  if id ∈ callIds I event then .pending else (settlements I event).foldl (observe I id) c

variable {id : Str} {log : List (Event F)}

section History

variable {I : Interp F}

theorem foldl_observe_of_ne {c : CallState F} (h : c ≠ .pending) (bs : List (Json F)) :
    bs.foldl (observe I id) c = c := by
  induction bs with
  | nil => rfl
  | cons b bs ih =>
    have hb : observe I id c b = c := by
      unfold observe
      split
      · exact absurd rfl h
      · rfl
    rw [foldl_cons, hb, ih]

/-- **A pending call is settled by the first block that names it.** -/
theorem foldl_observe_pending (id : Str) (bs : List (Json F)) :
    bs.foldl (observe I id) .pending =
      match bs.find? fun b ↦ resultId I b = id with
      | some b => .settled b
      | none => .pending := by
  induction bs with
  | nil => rfl
  | cons b bs ih =>
    rw [foldl_cons, find?_cons]
    by_cases hb : resultId I b = id
    · rw [observe, if_pos hb, decide_eq_true hb]
      exact foldl_observe_of_ne (c := .settled b) nofun bs
    · rw [observe, if_neg hb, decide_eq_false hb]
      exact ih

theorem foldl_track_of_not_mem (h : id ∉ log.flatMap (callIds I)) (c : CallState F) :
    log.foldl (CallState.track I id) c = (log.flatMap (settlements I)).foldl (observe I id) c := by
  induction log generalizing c with
  | nil => rfl
  | cons event log ih =>
    rw [flatMap_cons, mem_append, not_or] at h
    rw [foldl_cons, ih h.2, flatMap_cons, foldl_append, CallState.track, if_neg h.1]

/-- **The history of a call of the log ends with its first settlement.** -/
theorem foldl_track_absent (hmem : id ∈ log.flatMap (callIds I))
    (hnd : (log.flatMap (callIds I)).Nodup) :
    log.foldl (CallState.track I id) .absent =
      match firstSettlement I log id with
      | some b => .settled b
      | none => .pending := by
  induction log with
  | nil => cases hmem
  | cons event log ih =>
    rw [foldl_cons, CallState.track]
    unfold firstSettlement
    by_cases hid : id ∈ callIds I event
    · have hrest := (nodup_append.1 hnd).2.2 id hid
      rw [if_pos hid, if_pos hid, foldl_track_of_not_mem fun h ↦ hrest id h rfl,
        foldl_observe_pending]
    · have habsent : (settlements I event).foldl (observe I id) .absent = .absent :=
        foldl_observe_of_ne (c := .absent) nofun _
      rw [if_neg hid, if_neg hid, habsent]
      exact ih ((mem_append.1 hmem).resolve_left hid) (nodup_append.1 hnd).2.1

end History

/-! ## The invariant of the loop -/

variable {x : Json F} {m : Message F}

section Invariant

/-- A batch of the calls `ids` of the group at position `j`. -/
structure BatchOk (I : Interp F) (view : Str → CallState F) (pendingCalls : Dict Str Nat) (j : Nat)
    (ids : List Str) (b : ReplayToolBatch F) : Prop where
  ne_nil : ids ≠ []
  nodup : ids.Nodup
  extras : ∀ x ∈ b.deferredExtras, typeIs "tool_result" x = false
  results : ∀ x ∈ b.resultBlocks, typeIs "tool_result" x = true ∧ resultId I x ∈ ids ∧
    view (resultId I x) = .settled x
  once : (b.resultBlocks.map (resultId I)).Nodup
  /-- every call waits for its result or has it -/
  calls : ∀ id ∈ ids, (view id = .pending ∧ pendingCalls.lookup id = some j) ∨
    ∃ x ∈ b.resultBlocks, resultId I x = id

/-- A group is one message without results of its own, and has a batch if it has calls. -/
structure GroupOk (I : Interp F) (view : Str → CallState F) (pendingCalls : Dict Str Nat) (j : Nat)
    (g : Group F) (m : Message F) : Prop where
  messages : g.messages = [m]
  results : m.toolResults = []
  batch : match g.batch with
    | some b => BatchOk I view pendingCalls j m.toolUseIds b
    | none => m.toolUseIds = []

/-- The group a pending call is noted with. -/
def HasCall (groups : List (Group F)) (j : Nat) (id : Str) : Prop :=
  ∃ g m, groups[j]? = some g ∧ g.messages = [m] ∧ id ∈ m.toolUseIds

variable {j : Nat}

theorem HasCall.modify {groups : List (Group F)} (h : HasCall groups j id) (i : Nat)
    {f : Group F → Group F} (hf : ∀ g, (f g).messages = g.messages) :
    HasCall (groups.modify i f) j id := by
  obtain ⟨g, m, hg, hm, hid⟩ := h
  refine ⟨if i = j then f g else g, m, ?_, ?_, hid⟩
  · rw [getElem?_modify, hg]
    rfl
  · split
    · rw [hf, hm]
    · exact hm

theorem HasCall.append {groups : List (Group F)} (h : HasCall groups j id) (g' : Group F) :
    HasCall (groups ++ [g']) j id := by
  obtain ⟨g, m, hg, hm, hid⟩ := h
  refine ⟨g, m, ?_, hm, hid⟩
  rw [List.getElem?_append_left (List.getElem?_eq_some_iff.1 hg).1, hg]

/-- The invariant, for a history of every call. -/
structure Inv (I : Interp F) (view : Str → CallState F) (s : Replay F) : Prop where
  keys : (s.pendingCalls.map Prod.fst).Nodup
  groups : ∀ j g, s.groups[j]? = some g → ∃ m, GroupOk I view s.pendingCalls j g m
  pending : ∀ id j, s.pendingCalls.lookup id = some j → view id = .pending ∧ HasCall s.groups j id
  noted : ∀ id, view id = .pending → ∃ j, s.pendingCalls.lookup id = some j

variable {I : Interp F} {view : Str → CallState F} {s : Replay F}

theorem inv_init (I : Interp F) : Inv I (fun _ ↦ .absent) Replay.init where
  keys := nodup_nil
  groups := nofun
  pending := nofun
  noted := nofun

variable {pendingCalls : Dict Str Nat} {ids : List Str} {b : ReplayToolBatch F}

/-- The calls of a batch are those whose history has begun. -/
theorem BatchOk.view_ne_absent (h : BatchOk I view pendingCalls j ids b) (hid : id ∈ ids) :
    view id ≠ .absent := by
  rcases h.calls id hid with ⟨hview, -⟩ | ⟨x, hx, rfl⟩
  · rw [hview]
    exact nofun
  · rw [(h.results x hx).2.2]
    exact nofun

/-- A batch does not depend on the history of calls that are not its own. -/
theorem BatchOk.congr {pendingCalls' : Dict Str Nat} {view' : Str → CallState F}
    (h : BatchOk I view pendingCalls j ids b)
    (hview : ∀ id ∈ ids, view' id = view id)
    (hpending : ∀ id ∈ ids, pendingCalls'.lookup id = pendingCalls.lookup id) :
    BatchOk I view' pendingCalls' j ids b where
  ne_nil := h.ne_nil
  nodup := h.nodup
  extras := h.extras
  results x hx := by
    obtain ⟨htype, hmem, hx'⟩ := h.results x hx
    exact ⟨htype, hmem, (hview _ hmem).trans hx'⟩
  once := h.once
  calls id hid := by
    rw [hview id hid, hpending id hid]
    exact h.calls id hid

/-- A pending call is a call of the group it is noted with, and of no other. -/
theorem BatchOk.eq_of_pending {j' : Nat} (h : BatchOk I view pendingCalls j' ids b) (hid : id ∈ ids)
    (hview : view id = .pending) (hpending : pendingCalls.lookup id = some j) : j = j' := by
  rcases h.calls id hid with ⟨-, hj'⟩ | ⟨x, hx, rfl⟩
  · exact Option.some.inj (hpending.symm.trans hj')
  · exact absurd (hview.symm.trans (h.results x hx).2.2) nofun

theorem observe_of_ne {b : Json F} (h : resultId I b ≠ id) (c : CallState F) :
    observe I id c b = c := by
  cases c with
  | pending => exact if_neg h
  | absent => rfl
  | settled => rfl

theorem observe_pending (b : Json F) : observe I (resultId I b) .pending b = .settled b :=
  if_pos rfl

/-- The batch that takes the result of one of its pending calls. -/
theorem BatchOk.addResult (h : BatchOk I view pendingCalls j ids b)
    (htype : typeIs "tool_result" x = true) (hid : resultId I x ∈ ids)
    (hview : view (resultId I x) = .pending) :
    BatchOk I (fun id ↦ observe I id (view id) x) (pendingCalls.pop (resultId I x)) j ids
      { b with resultBlocks := b.resultBlocks ++ [x] } where
  ne_nil := h.ne_nil
  nodup := h.nodup
  extras := h.extras
  results y hy := by
    rcases mem_append.1 hy with hy | hy
    · obtain ⟨hy₁, hy₂, hy₃⟩ := h.results y hy
      refine ⟨hy₁, hy₂, ?_⟩
      rw [hy₃]
      rfl
    · rw [mem_singleton.1 hy]
      refine ⟨htype, hid, ?_⟩
      rw [hview, observe_pending]
  once := by
    rw [map_append, map_singleton]
    refine h.once.append (nodup_singleton _) (disjoint_singleton.2 fun hmem ↦ ?_)
    obtain ⟨y, hy, heq⟩ := mem_map.1 hmem
    have hsettled := (h.results y hy).2.2
    rw [heq, hview] at hsettled
    exact nomatch hsettled
  calls id hid' := by
    by_cases hne : resultId I x = id
    · exact .inr ⟨x, mem_append_right _ (mem_singleton_self x), hne⟩
    · rw [observe_of_ne hne, Dict.lookup_pop, if_neg (Ne.symm hne)]
      exact (h.calls id hid').imp_right fun ⟨y, hy, hy'⟩ ↦ ⟨y, mem_append_left _ hy, hy'⟩

/-- **A result moves a pending call to the results of its batch.** -/
theorem Inv.answer (h : Inv I view s) (hj : s.pendingCalls.lookup (resultId I x) = some j)
    (htype : typeIs "tool_result" x = true) :
    Inv I (fun id ↦ observe I id (view id) x) (s.answer (resultId I x) j x) := by
  obtain ⟨hview, g₀, m₀, hg₀, hm₀, hid₀⟩ := h.pending _ _ hj
  refine ⟨Dict.nodup_keys_pop h.keys _, ?_, ?_, ?_⟩
  · intro j' g' hg'
    rw [Replay.answer, getElem?_modify] at hg'
    obtain ⟨g, hg, rfl⟩ := Option.map_eq_some_iff.1 hg'
    obtain ⟨m, hok⟩ := h.groups j' g hg
    refine ⟨m, ?_⟩
    have hbatch := hok.batch
    by_cases hjj : j = j'
    · subst hjj
      rw [if_pos rfl]
      rw [hg₀] at hg
      obtain rfl : g₀ = g := Option.some.inj hg
      obtain rfl : m₀ = m := singleton_inj.1 (hm₀.symm.trans hok.messages)
      refine ⟨hok.messages, hok.results, ?_⟩
      cases hb : g₀.batch with
      | none =>
        rw [hb] at hbatch
        rw [hbatch] at hid₀
        cases hid₀
      | some =>
        rw [hb] at hbatch
        rw [Group.addResult, hb]
        exact hbatch.addResult htype hid₀ hview
    · -- another group does not have the call
      rw [if_neg hjj]
      refine ⟨hok.messages, hok.results, ?_⟩
      cases hb : g.batch with
      | none =>
        rw [hb] at hbatch
        exact hbatch
      | some =>
        rw [hb] at hbatch
        have hne : ∀ id ∈ m.toolUseIds, resultId I x ≠ id := by
          rintro id hid rfl
          exact hjj (hbatch.eq_of_pending hid hview hj)
        refine hbatch.congr (fun id hid ↦ observe_of_ne (hne id hid) _) fun id hid ↦ ?_
        exact (Dict.lookup_pop _ _ _).trans (if_neg (hne id hid).symm)
  · intro id j' hj'
    rw [Replay.answer, Dict.lookup_pop] at hj'
    split at hj'
    · cases hj'
    next hne =>
      obtain ⟨hview', hcall⟩ := h.pending id j' hj'
      exact ⟨(observe_of_ne (Ne.symm hne) _).trans hview', hcall.modify j fun _ ↦ rfl⟩
  · intro id hid
    by_cases hne : resultId I x = id
    · subst hne
      rw [hview, observe_pending] at hid
      cases hid
    · rw [observe_of_ne hne] at hid
      rw [Replay.answer, Dict.lookup_pop, if_neg (Ne.symm hne)]
      exact h.noted id hid

/-- Another block goes to a batch. -/
theorem Inv.addExtra (h : Inv I view s) (htype : typeIs "tool_result" x = false) (j : Nat) :
    Inv I view { s with groups := s.groups.modify j (Group.addExtra x) } := by
  refine ⟨h.keys, ?_, fun id j' hj' ↦ ?_, h.noted⟩
  · intro j' g' hg'
    rw [getElem?_modify] at hg'
    obtain ⟨g, hg, rfl⟩ := Option.map_eq_some_iff.1 hg'
    obtain ⟨m, hok⟩ := h.groups j' g hg
    refine ⟨m, ?_⟩
    split
    · refine ⟨hok.messages, hok.results, ?_⟩
      have hbatch := hok.batch
      rw [Group.addExtra]
      cases hb : g.batch with
      | none =>
        rw [hb] at hbatch
        exact hbatch
      | some =>
        rw [hb] at hbatch
        exact ⟨hbatch.ne_nil, hbatch.nodup,
          forall_mem_append.2 ⟨hbatch.extras, forall_mem_singleton.2 htype⟩, hbatch.results,
          hbatch.once, hbatch.calls⟩
    · exact hok
  · obtain ⟨hview, hcall⟩ := h.pending id j' hj'
    exact ⟨hview, hcall.modify j fun _ ↦ rfl⟩

theorem getElem?_concat_eq_some {α : Type} {l : List α} {a b : α}
    (h : (l ++ [a])[j]? = some b) : l[j]? = some b ∨ j = l.length ∧ b = a := by
  rw [getElem?_append] at h
  split at h
  · exact .inl h
  next hj =>
    rw [getElem?_singleton] at h
    split at h
    · exact .inr ⟨by omega, (Option.some.inj h).symm⟩
    · cases h

/-- A message without calls and results is a group of its own. -/
theorem Inv.addPlain (h : Inv I view s) (hresults : m.toolResults = [])
    (hcalls : m.toolUseIds = []) :
    Inv I view { s with groups := s.groups ++ [⟨[m], none⟩] } := by
  refine ⟨h.keys, ?_, fun id j hj ↦ ?_, h.noted⟩
  · intro j g hg
    rcases getElem?_concat_eq_some hg with hg | ⟨rfl, rfl⟩
    · exact h.groups j g hg
    · exact ⟨m, rfl, hresults, hcalls⟩
  · obtain ⟨hview, hcall⟩ := h.pending id j hj
    exact ⟨hview, hcall.append _⟩

theorem nodup_keys_foldl_set {n : Nat} {d : Dict Str Nat} (h : (d.map Prod.fst).Nodup) :
    ((ids.foldl (fun pending id ↦ pending.set id n) d).map Prod.fst).Nodup := by
  induction ids generalizing d with
  | nil => exact h
  | cons id ids ih => exact ih (Dict.nodup_keys_set h id n)

/-- **A message with new calls opens a batch, and its calls are pending.** -/
theorem Inv.addCalls (h : Inv I view s) (hresults : m.toolResults = []) (hne : m.toolUseIds ≠ [])
    (hnd : m.toolUseIds.Nodup) (hnew : ∀ id ∈ m.toolUseIds, view id = .absent) :
    Inv I (fun id ↦ if id ∈ m.toolUseIds then .pending else view id)
      { s with
        groups := s.groups ++ [⟨[m], some ⟨[], []⟩⟩]
        pendingCalls := m.toolUseIds.foldl (fun pending id ↦ pending.set id s.groups.length)
          s.pendingCalls } := by
  refine ⟨nodup_keys_foldl_set h.keys, ?_, ?_, ?_⟩
  · intro j g hg
    rcases getElem?_concat_eq_some hg with hg | ⟨rfl, rfl⟩
    · obtain ⟨m', hok⟩ := h.groups j g hg
      refine ⟨m', hok.messages, hok.results, ?_⟩
      have hbatch := hok.batch
      cases hb : g.batch with
      | none =>
        rw [hb] at hbatch
        exact hbatch
      | some =>
        rw [hb] at hbatch
        have hold : ∀ id ∈ m'.toolUseIds, id ∉ m.toolUseIds := fun id hid hmem ↦
          hbatch.view_ne_absent hid (hnew id hmem)
        refine hbatch.congr (fun id hid ↦ if_neg (hold id hid)) fun id hid ↦ ?_
        exact (Dict.lookup_foldl_set ..).trans (if_neg (hold id hid))
    · refine ⟨m, rfl, hresults, hne, hnd, nofun, nofun, nodup_nil, fun id hid ↦ .inl ?_⟩
      exact ⟨if_pos hid, (Dict.lookup_foldl_set ..).trans (if_pos hid)⟩
  · intro id j hj
    rw [Dict.lookup_foldl_set] at hj
    split at hj
    next hid =>
      obtain rfl := Option.some.inj hj
      refine ⟨if_pos hid, ⟨[m], some ⟨[], []⟩⟩, m, ?_, rfl, hid⟩
      exact getElem?_concat_length
    next hid =>
      obtain ⟨hview, hcall⟩ := h.pending id j hj
      exact ⟨(if_neg hid).trans hview, hcall.append _⟩
  · intro id hview
    rw [Dict.lookup_foldl_set]
    split
    · exact ⟨_, rfl⟩
    next hid => exact h.noted id ((if_neg hid).symm.trans hview)

end Invariant

/-! ## The loop -/

section Loop

variable {I : Interp F} {view : Str → CallState F} {s : Replay F}

/-- The calls of the messages that are there. -/
def Group.calls (g : Group F) : List Str := g.messages.flatMap Message.toolUseIds

def Replay.calls (s : Replay F) : List Str := s.groups.flatMap Group.calls

theorem flatMap_calls_modify {f : Group F → Group F} (hf : ∀ g, (f g).messages = g.messages)
    (groups : List (Group F)) (j : Nat) :
    (groups.modify j f).flatMap Group.calls = groups.flatMap Group.calls := by
  have hcalls (g : Group F) : (f g).calls = g.calls := by rw [Group.calls, hf, Group.calls]
  induction groups generalizing j with
  | nil => rw [modify_nil]
  | cons g groups ih =>
    cases j with
    | zero => rw [modify_zero_cons, flatMap_cons, hcalls, flatMap_cons]
    | succ => rw [modify_succ_cons, flatMap_cons, ih, flatMap_cons]

/-- A block that settles nothing changes no history. -/
theorem Inv.observe_eq (h : Inv I view s) (hnone : s.pendingCalls.lookup (resultId I x) = none)
    (id : Str) :
    observe I id (view id) x = view id := by
  by_cases hid : resultId I x = id
  · subst hid
    unfold observe
    split
    next hview =>
      obtain ⟨j, hj⟩ := h.noted _ hview
      rw [hnone] at hj
      cases hj
    · rfl
  · exact observe_of_ne hid _

/-- What the blocks of a settlement leave behind. -/
structure Settled (I : Interp F) (view : Str → CallState F) (s s' : Replay F)
    (context : List (Json F)) : Prop where
  inv : Inv I view s'
  calls : s'.calls = s.calls
  approvals : s'.approvals = s.approvals
  context : ∀ x ∈ context, typeIs "tool_result" x = false

theorem settled_settleBlock {s₀ : Replay F} {context : List (Json F)}
    (h : Settled I view s₀ s context) (eventBatch : Option Nat) (x : Json F) :
    Settled I (fun id ↦ ([x].filter (typeIs "tool_result")).foldl (observe I id) (view id)) s₀
      (Replay.settleBlock I eventBatch (s, context) x).1
      (Replay.settleBlock I eventBatch (s, context) x).2 := by
  have hconcat {y : Json F} (hy : typeIs "tool_result" y = false) :
      ∀ z ∈ context ++ [y], typeIs "tool_result" z = false :=
    forall_mem_append.2 ⟨h.context, forall_mem_singleton.2 hy⟩
  unfold Replay.settleBlock
  dsimp only
  split
  next htype =>
    rw [filter_cons_of_pos htype, filter_nil]
    split
    next j hj =>
      refine ⟨h.inv.answer hj htype, ?_, h.approvals, h.context⟩
      exact (flatMap_calls_modify (f := Group.addResult x) (fun _ ↦ rfl) _ _).trans h.calls
    next hnone =>
      have hview : (fun id ↦ [x].foldl (observe I id) (view id)) = view :=
        funext fun id ↦ h.inv.observe_eq hnone id
      rw [hview]
      exact ⟨h.inv, h.calls, h.approvals, hconcat rfl⟩
  next htype =>
    have htype : typeIs "tool_result" x = false := Bool.eq_false_iff.2 htype
    rw [filter_cons_of_neg (by rw [htype]; exact Bool.false_ne_true), filter_nil]
    split
    next j =>
      refine ⟨h.inv.addExtra htype j, ?_, h.approvals, h.context⟩
      exact (flatMap_calls_modify (f := Group.addExtra x) (fun _ ↦ rfl) _ _).trans h.calls
    · exact ⟨h.inv, h.calls, h.approvals, hconcat htype⟩

theorem settled_foldl_settleBlock {s₀ : Replay F} (eventBatch : Option Nat) (blocks : List (Json F))
    (acc : Replay F × List (Json F)) (h : Settled I view s₀ acc.1 acc.2) :
    Settled I (fun id ↦ (blocks.filter (typeIs "tool_result")).foldl (observe I id) (view id)) s₀
      (blocks.foldl (Replay.settleBlock I eventBatch) acc).1
      (blocks.foldl (Replay.settleBlock I eventBatch) acc).2 := by
  induction blocks generalizing view acc with
  | nil => exact h
  | cons x blocks ih =>
    have hstep := ih _ (settled_settleBlock h eventBatch x)
    have hview : (fun id ↦ ((x :: blocks).filter (typeIs "tool_result")).foldl (observe I id)
        (view id)) = fun id ↦ (blocks.filter (typeIs "tool_result")).foldl (observe I id)
          (([x].filter (typeIs "tool_result")).foldl (observe I id) (view id)) := by
      funext id
      rw [← foldl_append, ← filter_append, singleton_append]
    rw [hview]
    exact hstep

/-- **A settlement** moves results to their calls and says the rest in a message of its own. -/
theorem settled_settle (h : Inv I view s) (event : Event F) (blocks : List (Json F)) :
    Inv I (fun id ↦ (blocks.filter (typeIs "tool_result")).foldl (observe I id) (view id))
        (s.settle I event blocks) ∧
      (s.settle I event blocks).calls = s.calls ∧
      (s.settle I event blocks).approvals = s.approvals := by
  have hs := settled_foldl_settleBlock (s.pendingCalls.lookup (field I event "tool_call_id" ""))
    blocks (s, []) ⟨h, rfl, rfl, nofun⟩
  unfold Replay.settle
  dsimp only
  split
  · exact ⟨hs.inv, hs.calls, hs.approvals⟩
  · refine ⟨hs.inv.addPlain ?_ rfl, ?_, hs.approvals⟩
    · refine filter_eq_nil_iff.2 fun x hx ↦ ?_
      rw [hs.context x hx]
      exact Bool.false_ne_true
    · refine Eq.trans ?_ hs.calls
      rw [Replay.calls, flatMap_append, Replay.calls]
      exact append_nil _

theorem Inv.withApprovals (h : Inv I view s) (a : Approvals) :
    Inv I view { s with approvals := a } :=
  ⟨h.keys, h.groups, h.pending, h.noted⟩

theorem calls_concat (s : Replay F) (m : Message F) (b : Option (ReplayToolBatch F)) :
    (s.groups ++ [(⟨[m], b⟩ : Group F)]).flatMap Group.calls = s.calls ++ m.toolUseIds := by
  rw [flatMap_append, flatMap_singleton, Group.calls, flatMap_singleton, Replay.calls]

/-- What the loop is after an entry with the calls `ids`. -/
structure Advanced (I : Interp F) (view : Str → CallState F) (ids : List Str) (a : Approvals)
    (s s' : Replay F) : Prop where
  inv : Inv I view s'
  calls : s'.calls = s.calls ++ ids
  approvals : s'.approvals = a

theorem addMessage_ok (h : Inv I view s) {event : Event F} (hm : Renders I event m)
    (hnd : (callIds I event).Nodup) (hnew : ∀ id ∈ callIds I event, view id = .absent) :
    ∃ s', s.addMessage I m = .ok s' ∧
      Advanced I (fun id ↦ if id ∈ callIds I event then .pending else view id) (callIds I event)
        s.approvals s s' := by
  have hplain (hnil : callIds I event = []) :
      Advanced I (fun id ↦ if id ∈ callIds I event then .pending else view id) (callIds I event)
        s.approvals s { s with groups := s.groups ++ [⟨[m], none⟩] } := by
    have hview : (fun id ↦ if id ∈ callIds I event then .pending else view id) = view :=
      funext fun id ↦ if_neg (by rw [hnil]; exact not_mem_nil)
    rw [hview]
    refine ⟨h.addPlain hm.results (hm.calls.trans hnil), ?_, rfl⟩
    rw [← hm.calls]
    exact calls_concat s m none
  unfold Replay.addMessage
  split
  next blocks hrole hcontent =>
    have hresults : blocks.filter (typeIs "tool_result") = [] := by
      have hresults := hm.results
      rw [Message.toolResults, hcontent] at hresults
      exact hresults
    have hnil : callIds I event = [] := by
      rw [← hm.calls, Message.toolUseIds, hrole]
    rw [hresults]
    exact ⟨_, rfl, hplain hnil⟩
  next blocks hrole hcontent =>
    rw [hm.ids blocks hrole hcontent]
    by_cases hnil : (callIds I event).isEmpty = true
    · exact ⟨_, if_pos hnil, hplain (List.isEmpty_iff.1 hnil)⟩
    · refine ⟨_, if_neg hnil, ?_, ?_, rfl⟩
      · rw [List.isEmpty_iff] at hnil
        rw [← hm.calls] at hnd hnew hnil ⊢
        exact h.addCalls hm.results hnil hnd hnew
      · rw [← hm.calls]
        exact calls_concat s m _
  next hne₁ hne₂ =>
    have hnil : callIds I event = [] := by
      rw [← hm.calls]
      unfold Message.toolUseIds
      split
      next hrole hcontent => exact (hne₂ _ hrole hcontent).elim
      · rfl
    exact ⟨_, rfl, hplain hnil⟩

/-- **The loop body.** -/
theorem step_ok (h : Inv I view s) {event : Event F} (hok : BlocksOk I (assistantBlocks I event))
    (huser : ∀ b ∈ userBlocks I event, typeIs "tool_result" b = false)
    (hnd : (callIds I event).Nodup) (hnew : ∀ id ∈ callIds I event, view id = .absent) :
    ∃ s', s.step I event = .ok s' ∧
      Advanced I (fun id ↦ (view id).track I id event) (callIds I event)
        (s.approvals.track I (field I event "type" "") event) s s' := by
  unfold Replay.step
  dsimp only
  have h' := h.withApprovals (s.approvals.track I (field I event "type" "") event)
  split
  next blocks hblocks =>
    have hnil : callIds I event = [] := by
      unfold settlementBlocks at hblocks
      dsimp only at hblocks
      split at hblocks
      next ht =>
        have hne : ∀ t ∈ [Str.lit "tool_call_complete", Str.lit "tool_call_interrupted"],
            t ≠ Str.lit "assistant_message" ∧ t ≠ Str.lit "runtime_guard" := by decide
        rw [callIds, assistantBlocks_of_other (hne _ ht).1 (hne _ ht).2]
        rfl
      · cases hblocks
    have hview : (fun id ↦ (view id).track I id event) =
        fun id ↦ (blocks.filter (typeIs "tool_result")).foldl (observe I id) (view id) := by
      funext id
      rw [CallState.track, hnil, if_neg not_mem_nil, settlements, hblocks, Option.getD_some]
    obtain ⟨hinv, hcalls, happrovals⟩ := settled_settle h' event blocks
    rw [hview, hnil]
    refine ⟨_, rfl, hinv, ?_, happrovals⟩
    rw [hcalls, append_nil]
    rfl
  next hnone =>
    have hview : (fun id ↦ (view id).track I id event) =
        fun id ↦ if id ∈ callIds I event then .pending else view id := by
      funext id
      rw [CallState.track, settlements, hnone]
      rfl
    rw [hview]
    rcases entryToMessage_of_settlementBlocks_eq_none hok huser hnone with ⟨hnil, hcalls⟩ |
      ⟨m, hm, hr⟩
    · rw [hnil]
      refine ⟨_, rfl, ?_, ?_, rfl⟩
      · rw [hcalls]
        simpa using h'
      · rw [hcalls, append_nil]
        rfl
    · rw [hm]
      obtain ⟨s', hs', ha⟩ := addMessage_ok h' hr hnd hnew
      exact ⟨s', by rw [foldlM_cons, hs']; rfl, ha.inv, ha.calls, ha.approvals⟩

/-- **The whole loop**: every call of the log has its history in the batches. -/
theorem foldlM_step_ok (log : List (Event F)) (h : Inv I view s)
    (hok : ∀ event ∈ log, BlocksOk I (assistantBlocks I event))
    (huser : ∀ event ∈ log, ∀ b ∈ userBlocks I event, typeIs "tool_result" b = false)
    (hnd : (log.flatMap (callIds I)).Nodup)
    (hnew : ∀ id ∈ log.flatMap (callIds I), view id = .absent) :
    ∃ s', log.foldlM (Replay.step I) s = .ok s' ∧
      Advanced I (fun id ↦ log.foldl (CallState.track I id) (view id)) (log.flatMap (callIds I))
        (log.foldl (fun a event ↦ a.track I (field I event "type" "") event) s.approvals) s s' := by
  induction log generalizing view s with
  | nil => exact ⟨s, rfl, h, (append_nil _).symm, rfl⟩
  | cons event log ih =>
    obtain ⟨hnd₁, hnd₂, hdisj⟩ := nodup_append.1 hnd
    obtain ⟨s₁, hs₁, ha₁⟩ := step_ok h (hok event mem_cons_self)
      (huser event mem_cons_self) hnd₁ fun id hid ↦ hnew id (mem_append_left _ hid)
    obtain ⟨s₂, hs₂, ha₂⟩ := ih ha₁.inv (fun e he ↦ hok e (mem_cons_of_mem _ he))
      (fun e he ↦ huser e (mem_cons_of_mem _ he)) hnd₂ fun id hid ↦ by
        rw [CallState.track, if_neg fun hid' ↦ hdisj id hid' id hid rfl,
          hnew id (mem_append_right _ hid)]
        exact foldl_observe_of_ne (c := .absent) nofun _
    refine ⟨s₂, by rw [foldlM_cons, hs₁]; exact hs₂, ha₂.inv, ?_, ?_⟩
    · rw [ha₂.calls, ha₁.calls, flatMap_cons, append_assoc]
    · rw [ha₂.approvals, ha₁.approvals, foldl_cons]

end Loop

/-! ## The end of the log -/

variable {sh : Str → Json F}

section End

variable {I : Interp F} {view : Str → CallState F} {s : Replay F}

theorem resultId_of_lookup {kvs : Dict Str (Json F)}
    (h : kvs.lookup (Str.lit "tool_use_id") = some (.str id)) : resultId I (.dict kvs) = id := by
  rw [resultId, field, strOr, h]
  cases id with
  | nil => rfl
  | cons => rfl

@[simp] theorem resultId_awaitingApprovalBlock (id a : Str) :
    resultId I (awaitingApprovalBlock I id a) = id :=
  resultId_of_lookup rfl

@[simp] theorem resultId_toolInterruptedBlock (id : Str) :
    resultId I (toolInterruptedBlock I id) = id :=
  resultId_of_lookup rfl

theorem Inv.answerIfPending (h : Inv I view s) (htype : typeIs "tool_result" x = true) :
    Inv I (fun id ↦ observe I id (view id) x) (s.answerIfPending (resultId I x) x) ∧
      (s.answerIfPending (resultId I x) x).calls = s.calls := by
  unfold Replay.answerIfPending
  split
  next j hj =>
    exact ⟨h.answer hj htype, flatMap_calls_modify (f := Group.addResult x) (fun _ ↦ rfl) _ _⟩
  next hnone =>
    have hview : (fun id ↦ observe I id (view id) x) = view := funext (h.observe_eq hnone)
    rw [hview]
    exact ⟨h, rfl⟩

/-- The parked calls. -/
theorem inv_answerParked (h : Inv I view s) :
    Inv I (fun id ↦ (s.approvals.parked.map fun p ↦ awaitingApprovalBlock I p.1 p.2).foldl
        (observe I id) (view id)) (s.answerParked I) ∧ (s.answerParked I).calls = s.calls := by
  unfold Replay.answerParked
  generalize s.approvals.parked = parked
  induction parked generalizing view s with
  | nil => exact ⟨h, rfl⟩
  | cons p parked ih =>
    have hstep := h.answerIfPending (x := awaitingApprovalBlock I p.1 p.2) rfl
    rw [resultId_awaitingApprovalBlock] at hstep
    obtain ⟨hinv, hcalls⟩ := ih hstep.1
    exact ⟨hinv, hcalls.trans hstep.2⟩

/-- The calls that are left. -/
theorem inv_answerPending (h : Inv I view s) :
    Inv I (fun id ↦ (s.pendingCalls.map fun p ↦ toolInterruptedBlock I p.1).foldl (observe I id)
        (view id)) { s with groups := s.answerPending I, pendingCalls := [] } ∧
      (s.answerPending I).flatMap Group.calls = s.calls := by
  obtain ⟨groups, pendingCalls, approvals⟩ := s
  induction pendingCalls generalizing view groups with
  | nil => exact ⟨h, rfl⟩
  | cons p pendingCalls ih =>
    obtain ⟨toolId, j⟩ := p
    have hid := resultId_toolInterruptedBlock (I := I) toolId
    have hlookup : ((toolId, j) :: pendingCalls).lookup toolId = some j := by
      rw [lookup_cons, beq_self_eq_true]
    have hstep :=
      h.answer (x := toolInterruptedBlock I toolId) (j := j) (by rw [hid]; exact hlookup) rfl
    rw [hid, Replay.answer] at hstep
    rw [Dict.pop_cons (p := (toolId, j)) h.keys] at hstep
    obtain ⟨hinv, hcalls⟩ := ih _ hstep
    exact ⟨hinv, hcalls.trans (flatMap_calls_modify (f := Group.addResult _) (fun _ ↦ rfl) _ _)⟩

theorem find?_awaitingApprovalBlock (parked : Dict Str Str) (id : Str) :
    (parked.map fun p ↦ awaitingApprovalBlock I p.1 p.2).find? (fun b ↦ resultId I b = id) =
      (parked.lookup id).map (awaitingApprovalBlock I id) := by
  induction parked with
  | nil => rfl
  | cons p parked ih =>
    obtain ⟨toolId, approvalId⟩ := p
    rw [map_cons, find?_cons, lookup_cons, resultId_awaitingApprovalBlock]
    by_cases hid : toolId = id
    · rw [decide_eq_true hid, beq_iff_eq.2 hid.symm, hid]
      rfl
    · rw [decide_eq_false hid, beq_eq_false_iff_ne.2 (Ne.symm hid)]
      exact ih

/-- **The block a call ends up with is the one it is to be shown with.** -/
theorem eq_shown_of_settled (hnd : (log.flatMap (callIds I)).Nodup)
    (hid : id ∈ log.flatMap (callIds I)) (pendingIds : List Str)
    (hx : (pendingIds.map (toolInterruptedBlock I)).foldl (observe I id)
      (((parkedApprovals I log).map fun p ↦ awaitingApprovalBlock I p.1 p.2).foldl (observe I id)
        (log.foldl (CallState.track I id) .absent)) = .settled x) : x = shown I log id := by
  rw [foldl_track_absent hid hnd] at hx
  unfold shown
  cases hfirst : firstSettlement I log id with
  | some b =>
    rw [hfirst] at hx
    rw [foldl_observe_of_ne (c := .settled b) nofun, foldl_observe_of_ne (c := .settled b) nofun]
      at hx
    exact (CallState.settled.inj hx).symm
  | none =>
    rw [hfirst] at hx
    rw [foldl_observe_pending, find?_awaitingApprovalBlock] at hx
    cases hparked : (parkedApprovals I log).lookup id with
    | some =>
      rw [hparked] at hx
      dsimp only [Option.map_some] at hx ⊢
      rw [foldl_observe_of_ne (c := .settled _) nofun] at hx
      exact (CallState.settled.inj hx).symm
    | none =>
      rw [hparked] at hx
      dsimp only [Option.map_none] at hx ⊢
      rw [foldl_observe_pending] at hx
      split at hx
      next b hb =>
        obtain ⟨toolId, -, rfl⟩ := mem_map.1 (mem_of_find?_eq_some hb)
        have hid' := find?_some hb
        rw [resultId_toolInterruptedBlock, decide_eq_true_iff] at hid'
        rw [← CallState.settled.inj hx, hid']
      · cases hx

/-- A group without pending calls is a piece of a transcript. -/
theorem GroupOk.transcript {view : Str → CallState F} {j : Nat} {g : Group F}
    (h : GroupOk I view [] j g m) (hsh : ∀ id ∈ m.toolUseIds, ∀ x, view id = .settled x → x = sh id)
    {rest : List (Message F)} (hrest : Transcript I sh rest) :
    Transcript I sh (g.complete ++ rest) := by
  have hbatch := h.batch
  unfold Group.complete
  cases hb : g.batch with
  | none =>
    rw [hb] at hbatch
    rw [h.messages]
    exact .plain hbatch h.results hrest
  | some b =>
    rw [hb] at hbatch
    have hall : ∀ id ∈ m.toolUseIds, ∃ x ∈ b.resultBlocks, resultId I x = id := fun id hid ↦
      (hbatch.calls id hid).resolve_left fun hpending ↦ nomatch hpending.2
    have hne : ¬ b.resultBlocks.isEmpty = true := by
      obtain ⟨id, hid⟩ := exists_mem_of_ne_nil _ hbatch.ne_nil
      obtain ⟨x, hx, -⟩ := hall id hid
      rw [List.isEmpty_iff]
      exact List.ne_nil_of_mem hx
    have hperm : (b.resultBlocks.map (resultId I)).Perm m.toolUseIds := by
      refine (perm_ext_iff_of_nodup hbatch.once hbatch.nodup).2 fun id ↦
        ⟨fun hid ↦ ?_, fun hid ↦ ?_⟩
      · obtain ⟨x, hx, rfl⟩ := mem_map.1 hid
        exact (hbatch.results x hx).2.1
      · exact mem_map.2 (hall id hid)
    dsimp only
    rw [if_neg hne, h.messages]
    refine .answered hbatch.ne_nil hbatch.nodup h.results hperm (fun x hx ↦ ?_) hbatch.extras hrest
    obtain ⟨htype, hmem, hview⟩ := hbatch.results x hx
    exact ⟨htype, hsh _ hmem x hview⟩

end End

/-! ## All logs -/

section Main

variable {I : Interp F}

theorem transcript_flatten (groups : List (Group F))
    (h : ∀ g ∈ groups, ∀ rest, Transcript I sh rest → Transcript I sh (g.complete ++ rest)) :
    Transcript I sh (groups.map Group.complete).flatten := by
  induction groups with
  | nil => exact .nil
  | cons g groups ih =>
    exact h g mem_cons_self _ (ih fun g hg ↦ h g (mem_cons_of_mem _ hg))

theorem toolUseIds_complete (g : Group F) : g.complete.flatMap Message.toolUseIds = g.calls := by
  unfold Group.complete Group.calls
  split
  · split
    · rfl
    · rw [flatMap_append]
      exact append_nil _
  · rfl

theorem toolUseIds_flatten_complete (groups : List (Group F)) :
    (groups.map Group.complete).flatten.flatMap Message.toolUseIds = groups.flatMap
      Group.calls := by
  induction groups with
  | nil => rfl
  | cons g groups ih =>
    rw [map_cons, flatten_cons, flatMap_append, toolUseIds_complete, ih,
      flatMap_cons]

/-- **The replay answers every call.**  For every log whose calls have distinct strings as ids,
whose user messages carry no results, whose assistant messages consist of mappings other than
results, and whose ids redaction leaves alone, the replay returns, and its messages are a
transcript: every message with calls is followed at once by a user message that starts with exactly
one result for each of them and has no other result, no result stands anywhere else, and each
result is the first settlement after its call, or else the note that the call awaits its approval,
or else the note that it was interrupted.  The calls of the transcript are those of the log. -/
theorem replay_answers_every_call (I : Interp F) (log : List (Event F)) (h : Replayable I log) :
    ReplaysValid I log := by
  obtain ⟨s, hs, ha⟩ := foldlM_step_ok log (inv_init I) (fun _ he ↦ h.blocksOk he) h.user h.distinct
    fun _ _ ↦ rfl
  have hparked : s.approvals.parked = parkedApprovals I log := by rw [ha.approvals]; rfl
  obtain ⟨hinv₁, hcalls₁⟩ := inv_answerParked ha.inv
  obtain ⟨hinv₂, hcalls₂⟩ := inv_answerPending hinv₁
  have hcalls : ((s.answerParked I).answerPending I).flatMap Group.calls =
      log.flatMap (callIds I) := by
    rw [hcalls₂, hcalls₁, ha.calls]
    rfl
  refine ⟨_, by rw [entriesToMessageGroups, hs]; rfl, ?_, ?_⟩
  · refine transcript_flatten _ fun g hg rest hrest ↦ ?_
    obtain ⟨j, hj⟩ := mem_iff_getElem?.1 hg
    obtain ⟨m, hok⟩ := hinv₂.groups j g hj
    refine hok.transcript (fun id hid x hx ↦ ?_) hrest
    have hmem : id ∈ log.flatMap (callIds I) := by
      rw [← hcalls]
      refine mem_flatMap.2 ⟨g, hg, ?_⟩
      rw [Group.calls, hok.messages, flatMap_singleton]
      exact hid
    rw [hparked] at hx
    refine eq_shown_of_settled h.distinct hmem ((s.answerParked I).pendingCalls.map Prod.fst) ?_
    rw [map_map]
    exact hx
  · rw [toolUseIds_flatten_complete, hcalls]

end Main

section Sample

/-- An interpreter for logs in ASCII without floats. -/
def sampleInterp : Interp NumToken :=
  ⟨⟨fun _ ↦ false, fun _ ↦ false⟩, fun _ ↦ false, fun _ ↦ [], fun _ ↦ []⟩

/-- A dictionary of strings. -/
def textItems (items : List (String × String)) : Dict Str (Json NumToken) :=
  items.map fun p ↦ (Str.lit p.1, .str (Str.lit p.2))

def assistantEvent (blocks : List (Json NumToken)) : Event NumToken :=
  textItems [("type", "assistant_message")] ++ [(Str.lit "content_blocks", .list blocks)]

def toolUse (id : String) : Json NumToken := .dict (textItems [("type", "tool_use"), ("id", id)])

/-- Two calls, of which one is parked and the other settled after the run has ended. -/
def sampleLog : List (Event NumToken) :=
  [assistantEvent [toolUse "call_1", toolUse "call_2"],
    textItems [("type", "tool_approval_request"), ("tool_call_id", "call_1"), ("approval_id", "a")],
    textItems [("type", "stream_complete"), ("terminal_disposition", "awaiting_approval")],
    textItems [("type", "tool_call_complete"), ("tool_call_id", "call_2"), ("result", "done")]]

theorem forall_mem_sampleLog {P : Json NumToken → Prop} (h₁ : P (toolUse "call_1"))
    (h₂ : P (toolUse "call_2")) :
    ∀ event ∈ sampleLog, ∀ b ∈ assistantBlocks sampleInterp event, P b := by
  intro event hevent b hb
  simp only [sampleLog, mem_cons, not_mem_nil, or_false] at hevent
  rcases hevent with rfl | rfl | rfl | rfl
  · rcases mem_cons.1 hb with rfl | hb
    · exact h₁
    · rw [mem_singleton.1 hb]
      exact h₂
  all_goals exact absurd hb not_mem_nil

theorem replayable_sampleLog : Replayable sampleInterp sampleLog where
  ids := forall_mem_sampleLog (fun _ ↦ ⟨_, rfl⟩) fun _ ↦ ⟨_, rfl⟩
  distinct := by decide +kernel
  user event hevent b hb := by
    simp only [sampleLog, mem_cons, not_mem_nil, or_false] at hevent
    rcases hevent with rfl | rfl | rfl | rfl
    all_goals exact absurd hb not_mem_nil
  mapping := forall_mem_sampleLog ⟨_, rfl⟩ ⟨_, rfl⟩
  noResult := forall_mem_sampleLog rfl rfl
  kept := by decide +kernel

theorem replay_answers_every_call_sample :
    Replayable sampleInterp sampleLog ∧ ReplaysValid sampleInterp sampleLog :=
  ⟨replayable_sampleLog, replay_answers_every_call sampleInterp sampleLog replayable_sampleLog⟩

end Sample

/-! ## Logs that cannot be replayed -/

section Unsuitable

/-- A result inside an assistant message. -/
def strayResultLog : List (Event NumToken) :=
  [assistantEvent [.dict (textItems [("type", "tool_result"), ("tool_use_id", "call_1")])]]

/-- A block that is not a mapping. -/
def textBlockLog : List (Event NumToken) := [assistantEvent [.str (Str.lit "text")]]

/-- Two calls whose ids look like credentials, so that redaction makes them equal. -/
def credentialIdLog : List (Event NumToken) :=
  [assistantEvent [toolUse "sk-aaaaaaaaaaaaaaaaaaaaaaaa", toolUse "sk-bbbbbbbbbbbbbbbbbbbbbbbb"]]

/-- What a transcript cannot do without: assistant messages have no results, and distinct calls. -/
def assistantsSound (r : Except ReplayError (List (List (Message F)))) : Bool :=
  match r with
  | .ok groups => groups.flatten.all fun m ↦
      m.role = .user || (m.toolResults.isEmpty && decide m.toolUseIds.Nodup)
  | .error _ => false

theorem Transcript.assistants {I : Interp F} {messages : List (Message F)}
    (h : Transcript I sh messages) :
    ∀ m ∈ messages, m.role = .user ∨ (m.toolResults = [] ∧ m.toolUseIds.Nodup) := by
  induction h with
  | nil => exact nofun
  | plain calls results _ ih =>
    intro m hm
    rcases mem_cons.1 hm with rfl | hm
    · exact .inr ⟨results, calls ▸ nodup_nil⟩
    · exact ih m hm
  | answered _ nodup own _ _ _ _ ih =>
    intro m hm
    rcases mem_cons.1 hm with rfl | hm
    · exact .inr ⟨own, nodup⟩
    · rcases mem_cons.1 hm with rfl | hm
      · exact .inl rfl
      · exact ih m hm

theorem assistantsSound_of_replaysValid {I : Interp F} (h : ReplaysValid I log) :
    assistantsSound (entriesToMessageGroups I log) = true := by
  obtain ⟨groups, heq, htranscript, -⟩ := h
  rw [heq, assistantsSound, all_eq_true]
  intro m hm
  rcases htranscript.assistants m hm with hrole | ⟨hresults, hnodup⟩
  · simp [hrole]
  · simp [hresults, hnodup]

theorem distinctCalls_singleton {blocks : List (Json NumToken)}
    (hids : ∀ b ∈ blocks, typeIs "tool_use" b = true →
      ∃ id, b.get? (Str.lit "id") = some (.str id))
    (hnodup : (toolUseIds blocks).Nodup) : DistinctCalls sampleInterp [assistantEvent blocks] where
  ids event hevent b hb := by
    rw [mem_singleton.1 hevent] at hb
    exact hids b hb
  distinct := by
    rw [flatMap_singleton]
    exact hnodup
  user event hevent b hb := by
    rw [mem_singleton.1 hevent] at hb
    cases hb

/-- **Distinct ids are not enough.**  A result inside an assistant message is replayed where it
stands, a block that is not a mapping makes the replay raise, and two ids that look like
credentials are redacted to the same text. -/
theorem replay_of_unsuitable_logs :
    (DistinctCalls sampleInterp strayResultLog ∧ ¬ ReplaysValid sampleInterp strayResultLog) ∧
      (DistinctCalls sampleInterp textBlockLog ∧ ¬ ReplaysValid sampleInterp textBlockLog) ∧
      (DistinctCalls sampleInterp credentialIdLog ∧
        ¬ ReplaysValid sampleInterp credentialIdLog) := by
  have hunsound {log : List (Event NumToken)}
      (h : assistantsSound (entriesToMessageGroups sampleInterp log) = false) :
      ¬ ReplaysValid sampleInterp log := fun hvalid ↦
    Bool.false_ne_true (h.symm.trans (assistantsSound_of_replaysValid hvalid))
  refine ⟨⟨distinctCalls_singleton ?_ (by decide), hunsound (by decide +kernel)⟩,
    ⟨distinctCalls_singleton ?_ (by decide), hunsound (by decide +kernel)⟩,
    ⟨distinctCalls_singleton ?_ (by decide +kernel), hunsound (by decide +kernel)⟩⟩
  · intro b hb htype
    rw [mem_singleton.1 hb] at htype
    exact absurd htype (by decide)
  · intro b hb htype
    rw [mem_singleton.1 hb] at htype
    exact absurd htype (by decide)
  · intro b hb _
    rcases mem_cons.1 hb with rfl | hb
    · exact ⟨_, rfl⟩
    · rw [mem_singleton.1 hb]
      exact ⟨_, rfl⟩

end Unsuitable

end ContextBuilder
end AgentGateway
