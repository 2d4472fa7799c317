import AgentGateway.Py.Calls
import AgentGateway.Py.Values

/-!
# The batch frames of a code cell

A cell submits several pieces of work in one frame: `workpool` starts a child agent for each item,
`judge_batch` a judgment for each state.  Both give every element a key and collect the outcomes in
a dictionary under it.  `Reply.of` is that dictionary, with the jobs started on the way; when every
element and every job has its own entry the reply is `Accounted`.

`workpool` refuses a frame with a repeated key.  `judge_batch` does not, so a later state takes the
entry of an earlier one, whose job keeps running.  And a dispatch that raises ends the loop of
`workpool` while its reply is still sent.
-/

open Py List

namespace AgentGateway.CellBatches

variable {F T : Type}

/-- What a reply says of one element; `task` is the job the entry is about. -/
structure Row (T : Type) where
  task : Option T
  status : Str
  error : Option Str
deriving DecidableEq

/-- A reply, and every job that was started for it. -/
structure Reply (T : Type) where
  entries : Dict Str (Row T)
  started : List T
deriving DecidableEq

/-- The reply after the rows were assigned one by one. -/
def Reply.of (rows : Dict Str (Row T)) : Reply T := ⟨Dict.update [] rows, rows.filterMap (·.2.task)⟩

/-- One entry for each element, under its key, and each job started is the job of one entry. -/
def Reply.Accounted [DecidableEq T] (r : Reply T) (keys : List Str) : Prop :=
  r.entries.map Prod.fst = keys ∧ ∀ t ∈ r.started, r.entries.countP (·.2.task == some t) = 1

/-! ## The frames -/

/-- `f"item_{idx}"` -/
def positional (idx : Nat) : Str := Str.lit s!"item_{idx}"

/-- `items_seq`; the frame's `items` are `null` if it has none. -/
def itemsSeq (I : Interp F) : Json F → Except Str (List (Str × Json F))
  | .null => .error (Str.lit "workpool needs items")
  | .dict kvs => .ok (kvs.map fun p ↦ (p.1, asItem p.2))
  | .list xs => .ok (xs.mapIdx fun idx item ↦ (itemKey idx item, asItem item))
  | _ => .error (Str.lit "workpool items must be a list or dict")
where
  asItem : Json F → Json F
    | .dict kvs => .dict kvs
    | v => .dict [(Str.lit "objective", .str (v.toStr I))]
  itemKey (idx : Nat) : Json F → Str
    | .dict kvs => ["key", "item_key", "id", "name"].foldr (strOr I kvs <| Str.lit ·)
      (positional idx)
    | _ => positional idx

/-- The loop of `_run_workpool_controller`.  A call that raises is `none`; it ends the loop. -/
def dispatchItems (call : Nat → Json F → Option (Except Str (Option T))) :
    Nat → List (Str × Json F) → Dict Str (Row T)
  | _, [] => []
  | i, (key, item) :: rest =>
    match call i item with
    | none => []
    | some (.ok cid) => (key, ⟨cid, Str.lit "running", none⟩) :: dispatchItems call (i + 1) rest
    | some (.error e) =>
      (key, ⟨none, Str.lit "refused", some e⟩) :: dispatchItems call (i + 1) rest

/-- `_workpool`; `ready` are the checks after the keys. -/
def workpool (I : Interp F) (ready : Except Str Unit)
    (call : Nat → Json F → Option (Except Str (Option T))) (items : Json F) :
    Except Str (Reply T) := do
  let seq ← itemsSeq I items
  require (seq ≠ []) (Str.lit "workpool items cannot be empty")
  require (seq.map Prod.fst).Nodup (Str.lit "duplicate item key in workpool items")
  ready
  return Reply.of (dispatchItems call 0 seq)

/-- `states_seq` -/
def statesSeq (I : Interp F) : Json F → Except Str (List (Str × Json F))
  | .null => .error (Str.lit "judge_batch needs states")
  | .dict kvs => .ok kvs
  | .list xs => .ok (xs.mapIdx keyed)
  | _ => .error (Str.lit "judge_batch states must be a dict or list")
where
  keyed (idx : Nat) : Json F → Str × Json F
    | .list [a, b] => (a.toStr I, b)
    | .dict kvs =>
      match kvs.lookup (Str.lit "key") with
      | some k =>
        (k.toStr I, ((kvs.lookup (Str.lit "state")).filter (Json.truthy I)).getD (.dict kvs))
      | none => (positional idx, .dict kvs)
    | item => (positional idx, item)

/-- The loop of `_judge_batch`: one judgment after the other is started. -/
def launchStates (call : Nat → Json F → Except Str T) :
    Nat → List (Str × Json F) → Except Str (Dict Str T)
  | _, [] => .ok []
  | i, (key, st) :: rest => do
    let t ← call i st
    (launchStates call (i + 1) rest).map ((key, t) :: ·)

/-- `_judge_batch`; `known` and `ready` are the checks before and after the states.  If it waits,
`registry` is what the task registry then holds, a state and an error. -/
def judgeBatch (I : Interp F) (known ready : Except Str Unit) (call : Nat → Json F → Except Str T)
    (wait : Option (T → Option (Str × Option Str))) (states : Json F) : Except Str (Reply T) := do
  known
  let seq ← statesSeq I states
  require (seq ≠ []) (Str.lit "judge_batch states cannot be empty")
  ready
  let jobs ← launchStates call 0 seq
  return Reply.of (jobs.map fun p ↦ (p.1, row p.2))
where
  row (t : T) : Row T :=
    match wait with
    | none => ⟨some t, Str.lit "running", none⟩
    | some registry =>
      let (status, error) := (registry t).getD (Str.lit "unknown", none)
      ⟨some t, status, error⟩

/-! ## When every element is accounted for -/

/-- **A reply accounts for its elements exactly if every key got its row and no key repeats.** -/
theorem Reply.accounted_of_iff [DecidableEq T] {rows : Dict Str (Row T)} {keys : List Str}
    (hkeys : rows.map Prod.fst <+: keys) (hjobs : (Reply.of rows).started.Nodup) :
    (Reply.of rows).Accounted keys ↔ keys.Nodup ∧ rows.map Prod.fst = keys := by
  constructor
  · rintro ⟨h, -⟩
    have hnd : keys.Nodup := h ▸ Dict.nodup_keys_update (d := []) nodup_nil rows
    rw [Reply.of, Dict.update_nil (hnd.sublist hkeys.sublist)] at h
    exact ⟨hnd, h⟩
  · rintro ⟨hnd, rfl⟩
    rw [Accounted, Reply.of, Dict.update_nil hnd]
    refine ⟨rfl, fun t ht ↦ ?_⟩
    rw [← count_filterMap]
    exact count_eq_one_of_mem hjobs ht

theorem keys_launchStates {call : Nat → Json F → Except Str T} {i : Nat} {seq : List (Str × Json F)}
    {jobs : Dict Str T} (h : launchStates call i seq = .ok jobs) :
    jobs.map Prod.fst = seq.map Prod.fst := by
  induction seq generalizing i jobs with
  | nil =>
    cases h
    rfl
  | cons p seq ih =>
    obtain ⟨t, -, h⟩ := bind_eq_ok_iff.1 h
    obtain ⟨rest, hrest, rfl⟩ := map_eq_ok_iff.1 h
    rw [map_cons, map_cons, ih hrest]

theorem keys_dispatchItems (call : Nat → Json F → Option (Except Str (Option T))) (i : Nat)
    (seq : List (Str × Json F)) :
    (dispatchItems call i seq).map Prod.fst <+: seq.map Prod.fst ∧
      ((dispatchItems call i seq).map Prod.fst = seq.map Prod.fst ↔
        ∀ p ∈ seq.zipIdx i, call p.2 p.1.2 ≠ none) := by
  induction seq generalizing i with
  | nil => simp [dispatchItems]
  | cons p seq ih =>
    obtain ⟨hpre, hiff⟩ := ih (i + 1)
    match h : call i p.2 with
    | none => simp [dispatchItems, h]
    | some (.ok cid) => simp_all [dispatchItems]
    | some (.error e) => simp_all [dispatchItems]

/-- **Which accepted frames account for every element:** a `workpool` none of whose dispatches
raised, and a `judge_batch` that made distinct keys of its states. -/
theorem batches_accounted_iff [DecidableEq T] (I : Interp F) {r : Reply T}
    (hjobs : r.started.Nodup) :
    (∀ ready call items seq, itemsSeq I items = .ok seq → workpool I ready call items = .ok r →
      (r.Accounted (seq.map Prod.fst) ↔ ∀ p ∈ seq.zipIdx, call p.2 p.1.2 ≠ none)) ∧
    ∀ known ready launch wait states seq, statesSeq I states = .ok seq →
      judgeBatch I known ready launch wait states = .ok r →
        (r.Accounted (seq.map Prod.fst) ↔ (seq.map Prod.fst).Nodup) := by
  constructor
  · intro ready call items seq hseq h
    obtain ⟨_, hseq', h⟩ := bind_eq_ok_iff.1 h
    cases hseq.symm.trans hseq'
    obtain ⟨-, -, h⟩ := bind_eq_ok_iff.1 h
    obtain ⟨_, hnd, h⟩ := bind_eq_ok_iff.1 h
    obtain ⟨-, -, h⟩ := bind_eq_ok_iff.1 h
    cases h
    rw [Reply.accounted_of_iff (keys_dispatchItems call 0 seq).1 hjobs,
      (keys_dispatchItems call 0 seq).2]
    exact and_iff_right (require_eq_ok_iff.1 hnd)
  · intro known ready launch wait states seq hseq h
    obtain ⟨-, -, h⟩ := bind_eq_ok_iff.1 h
    obtain ⟨_, hseq', h⟩ := bind_eq_ok_iff.1 h
    cases hseq.symm.trans hseq'
    obtain ⟨-, -, h⟩ := bind_eq_ok_iff.1 h
    obtain ⟨-, -, h⟩ := bind_eq_ok_iff.1 h
    obtain ⟨jobs, hlaunch, h⟩ := bind_eq_ok_iff.1 h
    cases h
    have hkeys : (jobs.map fun p ↦ (p.1, judgeBatch.row wait p.2)).map Prod.fst =
        seq.map Prod.fst := by
      rw [map_map]
      exact keys_launchStates hlaunch
    rw [Reply.accounted_of_iff (hkeys ▸ prefix_rfl) hjobs]
    exact and_iff_left hkeys

/-- An interpreter for frames of texts. -/
def texts : Interp Unit := ⟨⟨fun _ ↦ false, fun _ ↦ false⟩, fun _ ↦ false, fun _ ↦ [], fun _ ↦ []⟩

/-- A state with a key of its own, and one without. -/
def twoStates (key : String) : Json Unit :=
  .list [.dict [(Str.lit "key", .str (Str.lit key))], .str (Str.lit "loose")]

/-- The reply to `twoStates`, whose judgments are the jobs `0` and `1`. -/
def judged (key : String) : Except Str (Reply Nat) :=
  judgeBatch texts (.ok ()) (.ok ()) (fun i _ ↦ .ok i) none (twoStates key)

/-- Two keys, two entries. -/
theorem batches_accounted_two : ∃ r seq, judged "a" = .ok r ∧
    statesSeq texts (twoStates "a") = .ok seq ∧ r.Accounted (seq.map Prod.fst) := by
  refine ⟨_, _, rfl, rfl, ((batches_accounted_iff texts ?_).2
    (.ok ()) (.ok ()) (fun i _ ↦ .ok i) none (twoStates "a") _ rfl rfl).2 ?_⟩
  · decide +kernel
  · decide +kernel

/-- A key that looks like a positional one: the entry is the second job's, the first has none. -/
theorem positional_key_loses_judgment : ∃ r, judged "item_1" = .ok r ∧
    r.entries.map (·.2.task) = [some 1] ∧ r.started = [0, 1] ∧
      ¬ r.Accounted [Str.lit "item_1", Str.lit "item_1"] :=
  ⟨_, rfl, rfl, rfl, fun h ↦ absurd (h.2 0 mem_cons_self) (by decide +kernel)⟩

end AgentGateway.CellBatches
