import AgentGateway.Py.Runs
import AgentGateway.Py.Text

/-!
# A checklist with two writers

The model and an analyst change one checklist.  A change of the model is refused if the analyst has
edited the checklist after the revision the model last saw.  That revision is kept in memory
(`modelSeenRevision`), and it is raised whenever the checklist or the edit is handed to the model
(`System.shown`).

It is raised in one more place: a state that is loaded from the journal takes the revision it finds
there for seen.  An edit made before a restart is then as good as shown, and the model overrides it
(`edit_overridden_after_restart`).  Nothing else lets a change through (`model_change_after_shown`).
-/

namespace AgentGateway.Checklist

open Py

variable {φ ο ε : Type}

structure TodoChecklist (φ : Type) where
  revision : Nat
  phases : φ
  analystRevision : Nat
  analystChange : Option Str
deriving DecidableEq

inductive TodoError where
  | staleRevision
  /-- Any other code. -/
  | refused (code : Str)
deriving DecidableEq

/-- What becomes of the phases, which is left open, and the code of the error where one is raised.
-/
structure Host (φ ο ε : Type) where
  empty : φ
  /-- The phases of an operation, settled. -/
  applyOp : φ → ο → Except Str φ
  /-- The phases of an edit, parsed and settled. -/
  parsePhases : φ → ε → Except Str φ
  describeChange : φ → φ → Str

/-- A `todo` operation. -/
inductive ModelOp (ο : Type) where
  | unknown
  | view
  | change (op : ο)

def ModelOp.isView : ModelOp ο → Bool
  | .view => true
  | _ => false

section Model

variable (H : Host φ ο ε)

/-- `apply_model_op` -/
def applyModelOp (c : TodoChecklist φ) (baseRevision : Nat) :
    ModelOp ο → Except TodoError (TodoChecklist φ)
  | .unknown => .error (.refused (.lit "invalid_op"))
  | .view => .ok c
  | .change op =>
    if c.analystRevision ≠ 0 ∧ c.analystRevision > baseRevision then .error .staleRevision
    else
      match H.applyOp c.phases op with
      | .ok phases => .ok { c with revision := c.revision + 1, phases := phases }
      | .error code => .error (.refused code)

/-- `apply_analyst_edit` -/
def applyAnalystEdit (c : TodoChecklist φ) (expectedRevision : Nat) (edit : ε) :
    Except TodoError (TodoChecklist φ) :=
  if expectedRevision ≠ c.revision then .error .staleRevision
  else
    match H.parsePhases c.phases edit with
    | .ok phases =>
      .ok ⟨c.revision + 1, phases, c.revision + 1, some (H.describeChange c.phases phases)⟩
    | .error code => .error (.refused code)

/-- `fold_todo_snapshots`, of the snapshots of one session -/
def foldTodoSnapshots (events : List (TodoChecklist φ)) : TodoChecklist φ :=
  let latest := events.foldl (fun latest event ↦
    match latest with
    | none => some event
    | some l => if event.revision ≥ l.revision then some event else some l) none
  latest.getD ⟨0, H.empty, 0, none⟩

structure TodoSessionState (φ : Type) where
  checklist : TodoChecklist φ
  loaded : Bool
  modelSeenRevision : Nat
  remindersSent : Nat
  movedSinceReminder : Bool
  /-- The checklist the note is rendered from. -/
  pendingAnalystNote : Option (TodoChecklist φ)

def TodoSessionState.new : TodoSessionState φ :=
  ⟨⟨0, H.empty, 0, none⟩, false, 0, 0, true, none⟩

/-- `load`, with what it appends to the journal -/
def TodoSessionState.load (s : TodoSessionState φ) (journal : List (TodoChecklist φ)) :
    TodoSessionState φ × List (TodoChecklist φ) :=
  if s.loaded then (s, [])
  else
    let folded := foldTodoSnapshots H journal
    if s.checklist.revision > folded.revision then ({ s with loaded := true }, [s.checklist])
    else
      ({ s with checklist := folded, modelSeenRevision := folded.revision, loaded := true }, [])

/-- `apply_model` -/
def TodoSessionState.applyModel (s : TodoSessionState φ) (op : ModelOp ο) :
    Except TodoError (TodoChecklist φ) × TodoSessionState φ :=
  match applyModelOp H s.checklist s.modelSeenRevision op with
  | .error .staleRevision =>
    (.error .staleRevision, { s with modelSeenRevision := s.checklist.revision })
  | .error e => (.error e, s)
  | .ok updated =>
    (.ok updated, { s with
      checklist := updated, modelSeenRevision := updated.revision
      movedSinceReminder := s.movedSinceReminder || !op.isView })

/-- `apply_analyst` -/
def TodoSessionState.applyAnalyst (s : TodoSessionState φ) (expectedRevision : Nat) (edit : ε) :
    Except TodoError (TodoChecklist φ) × TodoSessionState φ :=
  match applyAnalystEdit H s.checklist expectedRevision edit with
  | .error e => (.error e, s)
  | .ok updated =>
    (.ok updated, { s with
      checklist := updated, movedSinceReminder := true, pendingAnalystNote := some updated })

/-- `take_analyst_note` -/
def TodoSessionState.takeAnalystNote (s : TodoSessionState φ) : TodoSessionState φ :=
  match s.pendingAnalystNote with
  | none => s
  | some _ => { s with pendingAnalystNote := none, modelSeenRevision := s.checklist.revision }

/-- `mark_projected` -/
def TodoSessionState.markProjected (s : TodoSessionState φ) : TodoSessionState φ :=
  { s with modelSeenRevision := s.checklist.revision }

/-- `next_reminder` -/
def TodoSessionState.nextReminder (s : TodoSessionState φ) : TodoSessionState φ :=
  { s.markProjected with remindersSent := s.remindersSent + 1, movedSinceReminder := false }

end Model

/-! ## Sessions -/

structure System (φ : Type) where
  state : TodoSessionState φ
  journal : List (TodoChecklist φ)
  /-- Has the checklist or the edit been handed to the model since the analyst's latest edit?  The
program does not keep this. -/
  shown : Bool

inductive Act (ο ε : Type) where
  /-- The process starts again, with a new state over the same journal. -/
  | restart
  | load
  | analyst (expectedRevision : Nat) (edit : ε)
  | model (op : ModelOp ο)
  | takeNote
  | reminder
  | projected

variable (H : Host φ ο ε)

def System.start : System φ := ⟨.new H, [], true⟩

/-- A change that is accepted is journaled. -/
def System.step (s : System φ) : Act ο ε → System φ
  | .restart => { s with state := .new H }
  | .load =>
    let (state, entries) := s.state.load H s.journal
    { s with state := state, journal := s.journal ++ entries }
  | .analyst expectedRevision edit =>
    match s.state.applyAnalyst H expectedRevision edit with
    | (.ok c, state) => ⟨state, s.journal ++ [c], false⟩
    | (.error _, state) => { s with state := state }
  | .model op =>
    match s.state.applyModel H op with
    | (.ok c, state) => ⟨state, if op.isView then s.journal else s.journal ++ [c], true⟩
    | (.error e, state) => { s with state := state, shown := s.shown || e == .staleRevision }
  | .takeNote =>
    { s with state := s.state.takeAnalystNote, shown := s.shown ||
      s.state.pendingAnalystNote.isSome }
  | .reminder => { s with state := s.state.nextReminder, shown := true }
  | .projected => { s with state := s.state.markProjected, shown := true }

/-- The state is not replaced, by a new one or by the journal's, while an edit has not been shown.
-/
def System.Keeps (s : System φ) : Act ο ε → Prop
  | .restart => s.shown = true
  | .load => s.state.loaded = true ∨ s.shown = true ∨
      (foldTodoSnapshots H s.journal).revision < s.state.checklist.revision
  | _ => True

/-- An edit that has not been shown is newer than what the model has seen. -/
structure Inv (s : System φ) : Prop where
  seen : s.state.modelSeenRevision ≤ s.state.checklist.revision
  unseen : s.shown = false → s.state.modelSeenRevision < s.state.checklist.analystRevision

variable {H} {s : System φ}

theorem Inv.step (h : Inv s) (a : Act ο ε) (ha : s.Keeps H a) : Inv (s.step H a) := by
  cases a with
  | restart => exact ⟨Nat.le_refl 0, fun hs ↦ absurd (ha.symm.trans hs) (by simp)⟩
  | load =>
    simp only [System.step, TodoSessionState.load]
    split_ifs with hloaded hnewer
    · exact ⟨h.seen, h.unseen⟩
    · exact ⟨h.seen, h.unseen⟩
    · refine ⟨Nat.le_refl _, fun hs ↦ ?_⟩
      rcases ha with ha | ha | ha
      · exact absurd ha hloaded
      · exact absurd (ha.symm.trans hs) (by simp)
      · exact absurd ha hnewer
  | analyst expectedRevision edit =>
    simp only [System.step, TodoSessionState.applyAnalyst, applyAnalystEdit]
    split_ifs
    · exact h
    · cases H.parsePhases s.state.checklist.phases edit with
      | error => exact h
      | ok => exact ⟨Nat.le_succ_of_le h.seen, fun _ ↦ Nat.lt_succ_of_le h.seen⟩
  | model op =>
    simp only [System.step, TodoSessionState.applyModel]
    cases applyModelOp H s.state.checklist s.state.modelSeenRevision op with
    | ok => exact ⟨Nat.le_refl _, nofun⟩
    | error e =>
      cases e with
      | staleRevision => exact ⟨Nat.le_refl _, fun hs ↦ by simp at hs⟩
      | refused => exact ⟨h.seen, fun hs ↦ h.unseen (by simpa using hs)⟩
  | takeNote =>
    simp only [System.step, TodoSessionState.takeAnalystNote]
    cases s.state.pendingAnalystNote with
    | none => exact ⟨h.seen, fun hs ↦ h.unseen (by simpa using hs)⟩
    | some => exact ⟨Nat.le_refl _, fun hs ↦ by simp at hs⟩
  | reminder | projected => exact ⟨Nat.le_refl _, nofun⟩

/-- **A change of the model is accepted only after the analyst's latest edit has been shown to it**,
in every session in which the state is not replaced before.  What is rejected changes nothing. -/
theorem model_change_after_shown {acts : List (Act ο ε)}
    (hkeeps : Meets (System.step H) (System.Keeps H) (.start H) acts) :
    let s := runs (System.step H) (.start H) acts
    (∀ op c, (s.state.applyModel H (.change op)).1 = .ok c → s.shown = true) ∧
    (∀ op e, (s.state.applyModel H op).1 = .error e →
      (s.state.applyModel H op).2.checklist = s.state.checklist) ∧
    ∀ revision edit e, (s.state.applyAnalyst H revision edit).1 = .error e →
      (s.state.applyAnalyst H revision edit).2.checklist = s.state.checklist := by
  intro s
  have hstart : Inv (System.start H) := ⟨Nat.le_refl 0, nofun⟩
  have hinv : Inv s := runs_of_meets (P := Inv) (fun _ a ha h ↦ h.step a ha) hkeeps hstart
  refine ⟨fun op c h ↦ ?_, fun op e h ↦ ?_, fun revision edit e h ↦ ?_⟩
  · by_contra hshown
    have hunseen := hinv.unseen (by simpa using hshown)
    rw [TodoSessionState.applyModel, applyModelOp, if_pos (by omega)] at h
    cases h
  · rw [TodoSessionState.applyModel] at h ⊢
    cases hop : applyModelOp H s.state.checklist s.state.modelSeenRevision op with
    | ok => simp [hop] at h
    | error e => cases e <;> rfl
  · rw [TodoSessionState.applyAnalyst] at h ⊢
    cases hedit : applyAnalystEdit H s.state.checklist revision edit with
    | ok => simp [hedit] at h
    | error => rfl

section Sample

/-- Phases are numbers, and every change puts one in the place of another. -/
def numbers : Host Nat Nat Nat :=
    ⟨0, fun _ n ↦ .ok n, fun _ n ↦ .ok n, fun _ _ ↦ .lit "reordered items"⟩

/-- The model is shown the edit by a note. -/
theorem model_change_after_shown_note :
    let acts := [.load, .model (.change 1), .analyst 1 2, .takeNote]
    let s := runs (System.step numbers) (.start numbers) acts
    (s.state.applyModel numbers (.change 3)).1 = .ok ⟨3, 3, 2, some (.lit "reordered items")⟩ ∧
      s.shown = true := by
  intro acts s
  have hkeeps : Meets (System.step numbers) (System.Keeps numbers) (.start numbers) acts :=
    ⟨.inr (.inl rfl), trivial, trivial, trivial, trivial⟩
  have hok :
    (s.state.applyModel numbers (.change 3)).1 = .ok ⟨3, 3, 2, some (.lit "reordered items")⟩ :=
    rfl
  exact ⟨hok, (model_change_after_shown hkeeps).1 3 _ hok⟩

/-- **An edit made before a restart is overridden.** -/
theorem edit_overridden_after_restart :
    let acts := [.load, .model (.change 1), .analyst 1 2, .restart, .load]
    let s := runs (System.step numbers) (.start numbers) acts
    s.shown = false ∧ s.state.checklist.phases = 2 ∧
      (s.state.applyModel numbers (.change 3)).1 =
        .ok ⟨3, 3, 2, some (.lit "reordered items")⟩ := ⟨rfl, rfl, rfl⟩

end Sample

end AgentGateway.Checklist
