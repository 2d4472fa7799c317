import AgentGateway.EventChannel.Protocol

/-!
# Undisturbed runs

`Step` leaves open who moves next, how many bytes a socket call gets through, and what goes wrong.
Here nothing goes wrong, every socket call gets as far as it can, and a list of turns says who
moves: an endpoint goes on with its operation, or starts a new one.  What a list of turns leads to
can be computed (`runTurns`), and it is a state the two endpoints can get into
(`reachable_of_runTurns`).
-/

namespace AgentGateway.EventChannel

open Py

variable {F : Type} [PyFloat F]

/-- Who moves, and how. -/
inductive Turn (F : Type) where
  /-- the child goes on -/
  | child
  /-- the parent goes on -/
  | parent
  | callChild (call : ChildCall F)
  | callParent (call : ParentCall)
  /-- the parent acknowledges the stream it has exposed -/
  | acknowledge

variable (id : ChannelId) (sha256 : List UInt8 → Hex64)

/-- How many bytes a reader gets at most. -/
def available (p : Pipe) : Nat := min (room p.held) p.inFlight.length

/-- The child's next move. -/
def childTurn (s : Sys F) : Option (Sys F) :=
  match s.child.active with
  | none => none
  | some (epoch, .sending next) =>
    if s.toParent.unsent = [] then
      some (s.childResume id epoch (childSent id sha256 s.child.fields next))
    else if s.toParent.ended then none
    else some { s with toParent := s.toParent.push s.toParent.unsent.length }
  | some (epoch, .shuttingDown) => some (s.childShutdown epoch)
  | some (epoch, .returning result) => some (s.childReturn epoch result)
  | some (epoch, pc) =>
    if 0 < available s.toChild then some (s.childPull id sha256 epoch pc (available s.toChild))
    else if s.toChild.held = [] ∧ s.toChild.ended = true ∧ s.toChild.inFlight = [] then
      some (s.childEof id epoch pc)
    else none

/-- The parent's next move. -/
def parentTurn (s : Sys F) : Option (Sys F) :=
  match s.parent.active with
  | none => none
  | some (epoch, .reading call next) =>
    if 0 < available s.toParent then
      some (s.parentPull id sha256 epoch call next (available s.toParent))
    else if s.toParent.held = [] ∧ s.toParent.ended = true ∧ s.toParent.inFlight = [] then
      some (s.parentEof sha256 epoch call next)
    else none
  | some (epoch, .sendingAck) =>
    if s.toChild.unsent = [] then some (s.parentSent epoch)
    else if s.toChild.ended then none
    else some { s with toChild := s.toChild.push s.toChild.unsent.length }
  | some (epoch, .shuttingDown) => some (s.parentShutdown epoch)
  | some (epoch, .returning result) => some (s.parentReturn epoch result)

/-- A new call on the parent. -/
def callParent (s : Sys F) (call : ParentCall) : Option (Sys F) :=
  if s.parent.active.isNone ∧ s.parent.endpoint.closed = false ∧
      s.parent.endpoint.failed = false then
    some (s.parentStart id call)
  else none

/-- One turn, if there is a move of that kind. -/
def takeTurn (s : Sys F) : Turn F → Option (Sys F)
  | .child => childTurn id sha256 s
  | .parent => parentTurn id sha256 s
  | .callChild call =>
    if s.child.active.isNone ∧ s.child.endpoint.closed = false ∧
        s.child.endpoint.failed = false then
      some (s.childStart id call)
    else none
  | .callParent call => callParent id s call
  | .acknowledge => s.parent.exposed.bind fun st ↦ callParent id s (.acknowledge st)

/-- One turn after the other. -/
def runTurns (turns : List (Turn F)) (s : Sys F) : Option (Sys F) :=
  turns.foldlM (takeTurn id sha256) s

variable {id : ChannelId} {sha256 : List UInt8 → Hex64} {s t : Sys F}

theorem step_of_childTurn (h : childTurn id sha256 s = some t) : Step id sha256 s t := by
  unfold childTurn at h
  split at h
  · cases h
  next epoch next hpc =>
    split at h
    next hout =>
      cases h
      exact .childSent epoch next hpc hout
    next hout =>
      split at h
      · cases h
      next hopen =>
        cases h
        exact .childPush epoch next _ hpc (List.length_pos_iff.2 hout) le_rfl
          (Bool.not_eq_true _ ▸ hopen)
  next epoch hpc =>
    cases h
    exact .childShutdown epoch hpc
  next epoch result hpc =>
    cases h
    exact .childReturn epoch result hpc
  next epoch pc hsend hshut hret hpc =>
    have hreads : pc.reads = true := by
      cases pc with
      | sending next => exact absurd rfl (hsend next)
      | shuttingDown => exact absurd rfl hshut
      | returning result => exact absurd rfl (hret result)
      | _ => rfl
    split at h
    next hpos =>
      cases h
      exact .childPull epoch pc _ hpc hreads hpos (Nat.min_le_left _ _) (Nat.min_le_right _ _)
    · split at h
      next heof =>
        cases h
        exact .childEof epoch pc hpc hreads ⟨heof.1, Or.inl heof.2⟩
      · cases h

theorem step_of_parentTurn (h : parentTurn id sha256 s = some t) : Step id sha256 s t := by
  unfold parentTurn at h
  split at h
  · cases h
  next epoch call next hpc =>
    split at h
    next hpos =>
      cases h
      exact .parentPull epoch call next _ hpc hpos (Nat.min_le_left _ _)
        (Nat.min_le_right _ _)
    · split at h
      next heof =>
        cases h
        exact .parentEof epoch call next hpc ⟨heof.1, Or.inl heof.2⟩
      · cases h
  next epoch hpc =>
    split at h
    next hout =>
      cases h
      exact .parentSent epoch hpc hout
    next hout =>
      split at h
      · cases h
      next hopen =>
        cases h
        exact .parentPush epoch _ hpc (List.length_pos_iff.2 hout) le_rfl
          (Bool.not_eq_true _ ▸ hopen)
  next epoch hpc =>
    cases h
    exact .parentShutdown epoch hpc
  next epoch result hpc =>
    cases h
    exact .parentReturn epoch result hpc

theorem step_of_callParent {call : ParentCall} (h : callParent id s call = some t) :
    Step id sha256 s t := by
  unfold callParent at h
  split at h
  next hidle =>
    cases h
    exact .parentCall call (Option.isNone_iff_eq_none.1 hidle.1) hidle.2.1 hidle.2.2
  · cases h

theorem step_of_takeTurn {turn : Turn F} (h : takeTurn id sha256 s turn = some t) :
    Step id sha256 s t := by
  cases turn with
  | child => exact step_of_childTurn h
  | parent => exact step_of_parentTurn h
  | callChild call =>
    unfold takeTurn at h
    dsimp only at h
    split at h
    next hidle =>
      cases h
      exact .childCall call (Option.isNone_iff_eq_none.1 hidle.1) hidle.2.1 hidle.2.2
    · cases h
  | callParent => exact step_of_callParent h
  | acknowledge =>
    obtain ⟨st, -, hcall⟩ := Option.bind_eq_some_iff.1 h
    exact step_of_callParent hcall

/-- **A list of turns leads to a reachable state.** -/
theorem reachable_of_runTurns {turns : List (Turn F)} (h : runTurns id sha256 turns s = some t)
    (hs : Reachable id sha256 s) : Reachable id sha256 t := by
  induction turns generalizing s with
  | nil =>
    cases h
    exact hs
  | cons turn turns ih =>
    obtain ⟨s', hturn, hrest⟩ := Option.bind_eq_some_iff.1 h
    exact ih hrest (hs.tail (step_of_takeTurn hturn))

end AgentGateway.EventChannel
