import AgentGateway.EventChannel.Receiving
import AgentGateway.EventChannel.Schedule

/-!
# Agreement of the two endpoints

What the parent has received is a function of the frames it has read, which are the first of the
frames the child has handed to `sendall`: its receive fields are those of a parent that was given
the events among them (`ParentInv.receive`).  Everything else follows from the shape of what the
child sends: an `END` is its last frame, so a parent that has read one has read everything, and
the acknowledgement the child waits for is only sent by a parent that has exposed the stream.

* `received_records_prefix`: at any time the parent has the records of the first events.
* `endpoints_agree`: what an acknowledgement and the states of the parent say of the stream.
-/

namespace AgentGateway.EventChannel

open Py List

variable {F : Type} [PyFloat F]

/-! ## Calls that raise -/

/-- The outcomes of the calls on an endpoint: after one that raised none returns. -/
structure LogOk {α : Type} (e : Endpoint) (active : Option α) : Prop where
  sorted : e.log.Pairwise fun earlier later ↦ earlier = true ∨ later = false
  gone : false ∈ e.log → e.failed = true ∨ e.closed = true
  clean : active.isSome = true → e.failed = false → false ∉ e.log

namespace LogOk

variable {α β : Type} {e : Endpoint} {active : Option α}

theorem initial : LogOk Endpoint.new (none : Option α) :=
  ⟨List.Pairwise.nil, nofun, nofun⟩

section

variable (h : LogOk e active)

include h

/-- A call starts. -/
theorem start (hopen : e.closed = false) (hok : e.failed = false)
    (active' : Option β) : LogOk e active' := by
  refine ⟨h.sorted, h.gone, fun _ _ hmem ↦ ?_⟩
  rcases h.gone hmem with hg | hg
  · rw [hok] at hg
    cases hg
  · rw [hopen] at hg
    cases hg

/-- A call goes on. -/
theorem resume (hact : active.isSome = true) (active' : Option β) :
    LogOk e active' := ⟨h.sorted, h.gone, fun _ ↦ h.clean hact⟩

theorem shut : LogOk e.shut active :=
  ⟨h.sorted, fun _ ↦ Or.inr rfl, h.clean⟩

theorem abort (active' : Option β) : LogOk e.abort active' :=
  ⟨h.sorted, fun _ ↦ Or.inl rfl, nofun⟩

/-- A call returns. -/
theorem returns (hact : active.isSome = true) (hok : e.failed = false) :
    LogOk (e.logged true) (none : Option β) := by
  refine ⟨?_, fun hmem ↦ ?_, nofun⟩
  · refine pairwise_append.2 ⟨h.sorted, pairwise_singleton _ _, fun a ha b hb ↦ ?_⟩
    cases a with
    | true => exact Or.inl rfl
    | false => exact absurd ha (h.clean hact hok)
  · rcases mem_append.1 hmem with hmem | hmem
    · exact h.gone hmem
    · cases mem_singleton.1 hmem

/-- A call raises on an endpoint that is gone for good. -/
theorem raises (hgone : e.failed = true ∨ e.closed = true) {active' : Option β}
    (hact : active'.isSome = true → e.failed = true) :
    LogOk (e.logged false) active' := by
  refine ⟨?_, fun _ ↦ hgone, fun ha hok ↦ ?_⟩
  · refine pairwise_append.2 ⟨h.sorted, pairwise_singleton _ _, fun a ha b hb ↦ ?_⟩
    exact Or.inr (mem_singleton.1 hb)
  · have hfail := hact ha
    rw [show (e.logged false).failed = e.failed from rfl, hfail] at hok
    cases hok

end

end LogOk

/-! ## The system -/

/-- The child has read an acknowledgement. -/
def hasAck : Option (Nat × ChildPc F) → Bool
  | some (_, .readingTrailing _) => true
  | some (_, .returning (some _)) => true
  | _ => false

/-- What the child knows of the frames it has read. -/
structure AckInv (c : Child F) (read : List (List UInt8)) : Prop where
  read_ne_nil : hasAck c.active = true ∨ c.acknowledgement.isSome = true → read ≠ []
  completed : ∀ epoch ack, c.active = some (epoch, .returning (some ack)) →
    c.fields.status = .completed

variable {c : Child F}

/-- An operation that has not read an acknowledgement asks nothing of the frames. -/
theorem AckInv.of_not_hasAck {c' : Child F} {read : List (List UInt8)} (h : AckInv c read)
    (hact : hasAck c'.active = false) (hack : c'.acknowledgement = c.acknowledgement) :
    AckInv c' read := by
  refine ⟨fun ha ↦ ?_, fun epoch ack ha ↦ ?_⟩
  · rw [hact, hack] at ha
    rcases ha with ha | ha
    · cases ha
    · exact h.read_ne_nil (Or.inr ha)
  · rw [ha] at hact
    cases hact

/-- What is true of the two endpoints and the streams between them. -/
structure Inv (id : ChannelId) (sha256 : List UInt8 → Hex64) (s : Sys F) : Prop where
  toParent : s.toParent.Ok
  toChild : s.toChild.Ok
  written : s.toParent.written = s.child.sent.map (Sent.body id)
  child : ChildInv id s.child s.toParent.unsent
  childLog : LogOk s.child.endpoint s.child.active
  ack : AckInv s.child s.toChild.read
  parent : ∃ got rest, s.child.sent = got ++ rest ∧ s.toParent.read = got.map (Sent.body id) ∧
    ParentInv id sha256 s.parent got
  parentLog : LogOk s.parent.endpoint s.parent.active
  eof : s.parent.sawEof = true → s.parent.endpoint.failed = true ∨
    s.toParent.ended = true ∧ s.toParent.inFlight = [] ∧ s.toParent.held = []
  acked : s.toChild.written ≠ [] → s.parent.exposed.isSome = true ∧
    (isAcking s.parent.active = true ∨ s.parent.fields.status = .acknowledged ∨
      s.parent.fields.status = .failed)

namespace Inv

variable {id : ChannelId} {sha256 : List UInt8 → Hex64} {s : Sys F}

theorem initial : Inv (F := F) id sha256 Sys.initial where
  toParent := Pipe.ok_empty
  toChild := Pipe.ok_empty
  written := rfl
  child :=
    { sentOk := nofun
      shape := Or.inl nofun
      seqs := rfl
      busy := nofun
      unsent_nil := fun _ _ ↦ rfl
      count := fun _ ↦ ⟨rfl, rfl⟩
      plain := nofun
      terminal := nofun }
  childLog := LogOk.initial
  ack := ⟨fun ha ↦ (by rcases ha with ha | ha <;> cases ha), nofun⟩
  parent := ⟨[], [], rfl, rfl, ParentInv.initial⟩
  parentLog := LogOk.initial
  eof he := by cases he
  acked hw := absurd rfl hw

variable {toChild : Pipe}

/-- **A move of the child leaves the parent alone**, as long as it only adds frames and bytes, and
no bytes after it has closed its direction. -/
theorem child_step (h : Inv id sha256 s) {toParent : Pipe}
    (hsent : ∃ more, c.sent = s.child.sent ++ more) (hread : toParent.read = s.toParent.read)
    (hheld : toParent.held = s.toParent.held) (hended : s.toParent.ended = true →
      toParent.ended = true ∧ toParent.inFlight = s.toParent.inFlight)
    (hacks : toChild.written = s.toChild.written) (hok : toParent.Ok) (hok' : toChild.Ok)
    (hwritten : toParent.written = c.sent.map (Sent.body id))
    (hchild : ChildInv id c toParent.unsent) (hlog : LogOk c.endpoint c.active)
    (hack : AckInv c toChild.read) : Inv id sha256 ⟨c, s.parent, toParent, toChild⟩ where
  toParent := hok
  toChild := hok'
  written := hwritten
  child := hchild
  childLog := hlog
  ack := hack
  parent := by
    obtain ⟨got, rest, hs, hr, hp⟩ := h.parent
    obtain ⟨more, hmore⟩ := hsent
    exact ⟨got, rest ++ more, by rw [hmore, hs, append_assoc], hread.trans hr, hp⟩
  parentLog := h.parentLog
  eof he := by
    refine (h.eof he).imp_right fun ⟨hend, hflight, hh⟩ ↦ ?_
    obtain ⟨hend', hflight'⟩ := hended hend
    exact ⟨hend', hflight'.trans hflight, hheld.trans hh⟩
  acked hw := h.acked (by rw [← hacks]; exact hw)

/-! ### Moves of the child -/

section

variable (h : Inv id sha256 s)

include h

/-- The child sends nothing, and at most ends its direction. -/
theorem child_local {toParent : Pipe} (hpipe : toParent = s.toParent ∨ toParent = s.toParent.close)
    (hsent : c.sent = s.child.sent) (hchild : ChildInv id c s.toParent.unsent)
    (hlog : LogOk c.endpoint c.active) (hack : AckInv c s.toChild.read) :
    Inv id sha256 { s with child := c, toParent := toParent } := by
  have hmore : ∃ more, c.sent = s.child.sent ++ more := ⟨[], by rw [hsent, append_nil]⟩
  have hwritten : s.toParent.written = c.sent.map (Sent.body id) := by rw [hsent, h.written]
  rcases hpipe with rfl | rfl
  · exact h.child_step hmore rfl rfl (fun he ↦ ⟨he, rfl⟩) rfl h.toParent h.toChild hwritten hchild
      hlog hack
  · exact h.child_step hmore rfl rfl (fun _ ↦ ⟨rfl, rfl⟩) rfl h.toParent.close h.toChild hwritten
      hchild hlog hack

theorem childRaise : Inv id sha256 s.childRaise :=
  h.child_local (.inr rfl) rfl (h.child.raise _)
    ((h.childLog.abort (none : Option Unit)).raises (Or.inl rfl) nofun)
    (h.ack.of_not_hasAck rfl rfl)

/-- The child's code ran to its next socket call. -/
theorem childResume (epoch : Nat)
    (hlog : ∀ active : Option (Nat × ChildPc F), LogOk s.child.endpoint active)
    {r : Except ChannelError (ChildFields × ChildMove F)}
    (hgoto : ∀ fields pc, r = .ok (fields, .goto pc) →
      ChildInv id { s.child with fields := fields, active := some (epoch, pc) }
        s.toParent.unsent ∧
      AckInv { s.child with fields := fields, active := some (epoch, pc) } s.toChild.read)
    (hsend : ∀ fields x next, r = .ok (fields, .send x next) →
      s.toParent.unsent = [] ∧ (x.body id).length < 2 ^ 32 ∧
      ChildInv id { s.child with fields := fields, active := some (epoch, .sending next)
                                 sent := s.child.sent ++ [x] } (frame (x.body id))) :
    Inv id sha256 (s.childResume id epoch r) := by
  rcases r with e | ⟨fields, move⟩
  · exact h.childRaise
  · cases move with
    | goto pc =>
      obtain ⟨hc, hack⟩ := hgoto fields pc rfl
      exact h.child_local (.inl rfl) rfl hc (hlog _) hack
    | send x next =>
      obtain ⟨hnil, hlen, hc⟩ := hsend fields x next rfl
      refine h.child_step ⟨[x], rfl⟩ rfl rfl (fun he ↦ ⟨he, rfl⟩) rfl (h.toParent.begin hnil hlen)
        h.toChild ?_ hc (hlog _) (h.ack.of_not_hasAck rfl rfl)
      rw [map_append, ← h.written]
      rfl

/-- Only the endpoint's flags and the end of the child's direction change. -/
theorem child_endpoint {endpoint : Endpoint} {toParent : Pipe}
    (hpipe : toParent = s.toParent ∨ toParent = s.toParent.close)
    (hlog : LogOk endpoint s.child.active) :
    Inv id sha256 { s with child := { s.child with endpoint := endpoint }, toParent := toParent } :=
  h.child_local hpipe rfl (h.child.congr_endpoint _ _) hlog ⟨h.ack.read_ne_nil, h.ack.completed⟩

/-- Bytes arrive at the child. -/
theorem child_reads (hok : toChild.Ok) (hw : toChild.written = s.toChild.written)
    (hr : s.toChild.read ≠ [] → toChild.read ≠ []) : Inv id sha256 { s with toChild := toChild } :=
  h.child_step ⟨[], (append_nil _).symm⟩ rfl rfl (fun he ↦ ⟨he, rfl⟩) hw h.toParent hok
    h.written h.child h.childLog ⟨fun ha ↦ hr (h.ack.read_ne_nil ha), h.ack.completed⟩

end

variable {epoch : Nat} {pc : ChildPc F}

section

variable (h : Inv id sha256 s)

include h

/-- What the child may rely on while it reads. -/
theorem child_reading (ha : s.child.active = some (epoch, pc)) (hreads : pc.reads = true) :
    s.toParent.unsent = [] ∧ s.child.fields.status ≠ .failed ∧
      s.child.fields.nextSeq = s.child.fields.eventCount ∧
      s.child.fields.eventCount = (eventsOf s.child.sent).length := by
  have hlive := h.child.busy (by rw [ha]; rfl)
  have hcount := h.child.count hlive
  rw [ha] at hcount
  cases pc with
  | readingAck => exact ⟨h.child.unsent_nil hlive (by rw [ha]; rfl), hlive, hcount⟩
  | readingTrailing => exact ⟨h.child.unsent_nil hlive (by rw [ha]; rfl), hlive, hcount⟩
  | sending => cases hreads
  | shuttingDown => cases hreads
  | returning => cases hreads

theorem childPull (k : Nat) (ha : s.child.active = some (epoch, pc)) (hreads : pc.reads = true) :
    Inv id sha256 (s.childPull id sha256 epoch pc k) := by
  have hpull : Inv id sha256 { s with toChild := s.toChild.pull k } :=
    h.child_reads (h.toChild.pull k) rfl fun hr ↦ hr
  rw [Sys.childPull]
  split
  · exact hpull
  · split
    · exact hpull.childRaise
    · split
      · exact hpull
      next body hbody =>
        have hfinish := hpull.child_reads (hpull.toChild.finish hbody) rfl
          (fun _ ↦ append_ne_nil_of_right_ne_nil _ (cons_ne_nil body []))
        split
        · obtain ⟨hnil, hlive, hcount⟩ := h.child_reading ha hreads
          refine hfinish.childResume epoch
            (fun active ↦ h.childLog.resume (by rw [ha]; rfl) active) ?_ ?_
          · intro fields pc' hr
            obtain ⟨ack, -, hr⟩ := map_eq_ok_iff.1 hr
            cases hr
            refine ⟨h.child.goto hnil _ _ epoch hlive hcount nofun nofun, fun _ ↦ ?_, nofun⟩
            exact append_ne_nil_of_right_ne_nil _ (cons_ne_nil body [])
          · intro fields x next hr
            obtain ⟨ack, -, hr⟩ := map_eq_ok_iff.1 hr
            cases hr
        · exact hfinish.childRaise

theorem childCall (call : ChildCall F) (hidle : s.child.active = none)
    (hopen : s.child.endpoint.closed = false) (hok : s.child.endpoint.failed = false) :
    Inv id sha256 (s.childStart id call) := by
  refine h.childResume _ (fun active ↦ h.childLog.start hopen hok active) ?_ ?_
  · intro fields pc hr
    obtain ⟨a, -, hr⟩ := map_eq_ok_iff.1 hr
    cases hr
  · intro fields x next hr
    obtain ⟨a, hcall, hr⟩ := map_eq_ok_iff.1 hr
    cases hr
    obtain ⟨hc, hnil, hlen, -⟩ := h.child.call hidle hcall s.child.endpoint.operationEpoch
    exact ⟨hnil, hlen, hc⟩

omit h in
/-- After a `sendall` that is not followed by another, no acknowledgement was read yet. -/
theorem hasAck_of_childSent {c fields : ChildFields} {next : ChildNext F}
    (h : childSent id sha256 c next = .ok (fields, .goto pc)) (epoch : Nat) :
    hasAck (some (epoch, pc)) = false := by
  cases next with
  | hello => cases h; rfl
  | event => cases h; rfl
  | capture => cases h; rfl
  | finding => cases h
  | terminal =>
    obtain ⟨w, -, h⟩ := bind_eq_ok_iff.1 h
    cases h
  | finish => cases h; rfl

theorem childSent {next : ChildNext F} (ha : s.child.active = some (epoch, .sending next))
    (hout : s.toParent.unsent = []) :
    Inv id sha256 (s.childResume id epoch
      (EventChannel.childSent id sha256 s.child.fields next)) := by
  refine h.childResume epoch (fun active ↦ h.childLog.resume (by rw [ha]; rfl) active) ?_ ?_
  · intro fields pc hr
    rcases h.child.sent ha hout hr with ⟨pc', hmove, hc⟩ | ⟨x, next', hmove, -⟩
    · cases hmove
      exact ⟨hc, h.ack.of_not_hasAck (hasAck_of_childSent hr epoch) rfl⟩
    · cases hmove
  · intro fields x next' hr
    rcases h.child.sent ha hout hr with ⟨pc', hmove, -⟩ | ⟨x', next'', hmove, hlen, -, hc⟩
    · cases hmove
    · cases hmove
      exact ⟨hout, hlen, hc⟩

theorem childShutdown (ha : s.child.active = some (epoch, .shuttingDown)) :
    Inv id sha256 (s.childShutdown epoch) := by
  have hlive := h.child.busy (by rw [ha]; rfl)
  have hnil := h.child.unsent_nil hlive (by rw [ha]; rfl)
  have hcount := h.child.count hlive
  rw [ha] at hcount
  exact h.child_local (.inr rfl) rfl (h.child.goto hnil _ _ epoch nofun hcount nofun nofun)
    (h.childLog.resume (by rw [ha]; rfl) _) (h.ack.of_not_hasAck rfl rfl)

theorem childEof (ha : s.child.active = some (epoch, pc)) (hreads : pc.reads = true) :
    Inv id sha256 (s.childEof id epoch pc) := by
  obtain ⟨hnil, hlive, hcount⟩ := h.child_reading ha hreads
  refine (h.child_endpoint (.inl rfl) h.childLog.shut).childResume epoch
    (fun active ↦ h.childLog.shut.resume (by rw [ha]; rfl) active) ?_ ?_
  · intro fields pc' hr
    cases pc with
    | readingTrailing =>
      cases hr
      refine ⟨(h.child.congr_endpoint _ _).goto hnil _ _ epoch nofun hcount nofun nofun,
        fun _ ↦ ?_, fun _ _ _ ↦ rfl⟩
      exact h.ack.read_ne_nil (Or.inl (by rw [ha]; rfl))
    | _ => cases hr
  · intro fields x next hr
    cases pc <;> cases hr

theorem childReturn {result : Option Acknowledgement}
    (ha : s.child.active = some (epoch, .returning result)) :
    Inv id sha256 (s.childReturn epoch result) := by
  have hres : result.isSome = true → s.child.fields.status = .completed := by
    intro hsome
    obtain ⟨ack, rfl⟩ := Option.isSome_iff_exists.1 hsome
    exact h.ack.completed epoch ack ha
  rw [Sys.childReturn]
  split
  next hintact =>
    rw [Endpoint.intact, Bool.and_eq_true, Bool.not_eq_true'] at hintact
    refine h.child_local (.inl rfl) rfl (h.child.leave ha hres _ _)
      (h.childLog.returns (by rw [ha]; rfl) hintact.1) ⟨fun hack ↦ ?_, nofun⟩
    rcases hack with hack | hack
    · cases hack
    · cases result with
      | some => exact h.ack.read_ne_nil (Or.inl (by rw [ha]; rfl))
      | none => exact h.ack.read_ne_nil (Or.inr hack)
  · exact h.child_local (.inr rfl) rfl (h.child.leave ha hres _ _)
      ((h.childLog.abort (none : Option Unit)).raises (Or.inl rfl) nofun)
      (h.ack.of_not_hasAck rfl rfl)

end

/-! ### Moves of the parent -/

section

variable (h : Inv id sha256 s)

include h

/-- **A move of the parent leaves the child alone**, as long as it only takes bytes out of the
child's direction. -/
theorem parent_step {p : Parent F} {toParent : Pipe} (hw : toParent.written = s.toParent.written)
    (hu : toParent.unsent = s.toParent.unsent) (hread : toChild.read = s.toChild.read)
    (hok : toParent.Ok) (hok' : toChild.Ok) (hparent : ∃ got rest, s.child.sent = got ++ rest ∧
      toParent.read = got.map (Sent.body id) ∧ ParentInv id sha256 p got)
    (hlog : LogOk p.endpoint p.active) (heof : p.sawEof = true → p.endpoint.failed = true ∨
      toParent.ended = true ∧ toParent.inFlight = [] ∧ toParent.held = [])
    (hacked : toChild.written ≠ [] → p.exposed.isSome = true ∧
      (isAcking p.active = true ∨ p.fields.status = .acknowledged ∨ p.fields.status = .failed)) :
    Inv id sha256 ⟨s.child, p, toParent, toChild⟩ where
  toParent := hok
  toChild := hok'
  written := hw.trans h.written
  child := by
    rw [hu]
    exact h.child
  childLog := h.childLog
  ack := by
    rw [hread]
    exact h.ack
  parent := hparent
  parentLog := hlog
  eof := heof
  acked := hacked

/-- The parent sends nothing, and at most ends its direction. -/
theorem parent_local {p : Parent F} (hpipe : toChild = s.toChild ∨ toChild = s.toChild.close)
    (hparent : ∀ got, ParentInv id sha256 s.parent got → ParentInv id sha256 p got)
    (hlog : LogOk p.endpoint p.active) (heof : p.sawEof = true → p.endpoint.failed = true ∨
      s.toParent.ended = true ∧ s.toParent.inFlight = [] ∧ s.toParent.held = [])
    (hacked : s.toChild.written ≠ [] → p.exposed.isSome = true ∧
      (isAcking p.active = true ∨ p.fields.status = .acknowledged ∨ p.fields.status = .failed)) :
    Inv id sha256 { s with parent := p, toChild := toChild } := by
  obtain ⟨got, rest, hs, hr, hp⟩ := h.parent
  have hp' := hparent got hp
  rcases hpipe with rfl | rfl
  · exact h.parent_step rfl rfl rfl h.toParent h.toChild ⟨got, rest, hs, hr, hp'⟩ hlog heof hacked
  · exact h.parent_step rfl rfl rfl h.toParent h.toChild.close ⟨got, rest, hs, hr, hp'⟩ hlog heof
      hacked

theorem parentRaise : Inv id sha256 s.parentRaise :=
  h.parent_local (.inr rfl) (fun _ hp ↦ .of_failed rfl rfl fun st he ↦ (hp.exposed st he).2)
    ((h.parentLog.abort (none : Option Unit)).raises (Or.inl rfl) nofun)
    (fun _ ↦ Or.inl rfl) fun hw ↦ ⟨(h.acked hw).1, Or.inr (Or.inr rfl)⟩

/-- Only the endpoint's flags and the end of the parent's direction change. -/
theorem parent_endpoint {endpoint : Endpoint}
    (hpipe : toChild = s.toChild ∨ toChild = s.toChild.close)
    (hf : s.parent.endpoint.failed = true → endpoint.failed = true)
    (hlog : LogOk endpoint s.parent.active) :
    Inv id sha256
      { s with parent := { s.parent with endpoint := endpoint }, toChild := toChild } := by
  refine h.parent_local hpipe (fun _ hp ↦ hp.congr_endpoint _ fun hok ↦ ?_) hlog
    (fun he ↦ (h.eof he).imp_left hf) h.acked
  rw [← Bool.not_eq_true] at hok ⊢
  exact fun hfail ↦ hok (hf hfail)

/-- A parent that reads has not acknowledged anything. -/
theorem written_eq_nil (hact : isAcking s.parent.active = false)
    (hst : s.parent.fields.status ≠ .acknowledged ∧ s.parent.fields.status ≠ .failed) :
    s.toChild.written = [] := by
  by_contra hw
  rcases (h.acked hw).2 with ha | ha | ha
  · rw [hact] at ha
    cases ha
  · exact hst.1 ha
  · exact hst.2 ha

variable {next : ParentRead} {call : Receiving}

/-- What the parent may rely on while it reads. -/
theorem parent_reading (ha : s.parent.active = some (epoch, .reading call next)) :
    s.toChild.written = [] := by
  obtain ⟨got, rest, -, -, hp⟩ := h.parent
  refine h.written_eq_nil (by rw [ha]; rfl) ?_
  rw [hp.reading ha]
  cases next <;> exact ⟨nofun, nofun⟩

theorem parentPull (k : Nat) (ha : s.parent.active = some (epoch, .reading call next)) (hk : 0 < k)
    (hle : k ≤ s.toParent.inFlight.length) :
    Inv id sha256 (s.parentPull id sha256 epoch call next k) := by
  have hnil := h.parent_reading ha
  -- a stream that has ended for the parent has no bytes left to read
  have hnoeof : s.parent.sawEof = true → s.parent.endpoint.failed = true := by
    intro he
    rcases h.eof he with hf | ⟨-, hflight, -⟩
    · exact hf
    · rw [hflight, length_nil] at hle
      omega
  have hpull : Inv id sha256 { s with toParent := s.toParent.pull k } :=
    h.parent_step rfl rfl rfl (h.toParent.pull k) h.toChild h.parent h.parentLog
      (fun he ↦ Or.inl (hnoeof he)) h.acked
  rw [Sys.parentPull]
  split
  · exact hpull
  · split
    · exact hpull.parentRaise
    · split
      · exact hpull
      next body hbody =>
        obtain ⟨got, rest, hs, hr, hp⟩ := h.parent
        obtain ⟨-, more, hnext⟩ := hpull.toParent.next_frame hbody
        -- the frame is the first of those the parent has not read
        have hrest : rest.map (Sent.body id) = body :: more := by
          have hw : s.toParent.written = s.toParent.read ++ body :: more := hnext
          rw [h.written, hs, map_append, hr] at hw
          exact append_cancel_left hw
        obtain ⟨x, rest', rfl, hx, -⟩ := map_eq_cons_iff.1 hrest
        have hxok : SentOk id x := h.child.sentOk x (by simp [hs])
        have hread : (s.toParent.pull k).read ++ [body] = (got ++ [x]).map (Sent.body id) := by
          rw [map_append, map_singleton, hx, ← hr]
          rfl
        cases hf : parentFrame F id sha256 s.parent.fields call ⟨body, frame body⟩ next with
        | error =>
          dsimp only
          rw [hf]
          refine Inv.parent_step h rfl rfl rfl (hpull.toParent.finish hbody) h.toChild.close
            ⟨got ++ [x], rest', by rw [hs, append_assoc]; rfl, hread,
              ParentInv.of_failed rfl rfl fun st he ↦ ?_⟩
            ((h.parentLog.abort (none : Option Unit)).raises (Or.inl rfl) nofun)
            (fun _ ↦ Or.inl rfl) fun hw ↦ absurd hnil hw
          rw [show _ = _ from (hp.of_reading ha).2] at he
          cases he
        | ok =>
          dsimp only
          rw [hf]
          subst hx
          exact Inv.parent_step h rfl rfl rfl (hpull.toParent.finish hbody) h.toChild
            ⟨got ++ [x], rest', by rw [hs, append_assoc]; rfl, hread, hp.frame ha hxok hf⟩
            (h.parentLog.resume (by rw [ha]; rfl) _) (fun he ↦ Or.inl (hnoeof he))
            fun hw ↦ absurd hnil hw

theorem parentEof (ha : s.parent.active = some (epoch, .reading call next))
    (heof : eofReadable s.toParent s.parent.endpoint.failed) :
    Inv id sha256 (s.parentEof sha256 epoch call next) := by
  have hnil := h.parent_reading ha
  rw [Sys.parentEof]
  cases hf : EventChannel.parentEof F sha256 s.parent.fields call next with
  | error =>
    exact h.parent_local (.inr rfl)
      (fun _ hp ↦ .of_failed rfl rfl fun st he ↦ (hp.exposed st he).2)
      ((h.parentLog.abort (none : Option Unit)).raises (Or.inl rfl) nofun)
      (fun _ ↦ Or.inl rfl) fun hw ↦ absurd hnil hw
  | ok =>
    refine h.parent_local (.inl rfl) (fun _ hp ↦ hp.eof ha hf)
      (h.parentLog.resume (by rw [ha]; rfl) _) (fun _ ↦ ?_) fun hw ↦ absurd hnil hw
    obtain ⟨hheld, ⟨hend, hflight⟩ | hfail⟩ := heof
    · exact Or.inr ⟨hend, hflight, hheld⟩
    · exact Or.inl hfail

theorem parentCall (call : ParentCall) (hidle : s.parent.active = none)
    (hopen : s.parent.endpoint.closed = false) (hok : s.parent.endpoint.failed = false) :
    Inv id sha256 (s.parentStart id call) := by
  obtain ⟨got, rest, hs, hr, hp⟩ := h.parent
  have hact : isAcking s.parent.active = false := by rw [hidle]; rfl
  rw [Sys.parentStart]
  cases hcall : EventChannel.parentCall F id s.parent.fields call with
  | error => exact h.parentRaise
  | ok out =>
    obtain ⟨fields, out⟩ := out
    rcases hp.call hidle hok hcall s.parent.endpoint.operationEpoch with
      ⟨pc, rfl, hst, hp'⟩ | ⟨body, rfl, hlen, hexp, hst, hp'⟩
    · have hnil := h.written_eq_nil hact hst
      exact h.parent_step rfl rfl rfl h.toParent h.toChild ⟨got, rest, hs, hr, hp'⟩
        (h.parentLog.start hopen hok _) h.eof fun hw ↦ absurd hnil hw
    · have hnil := h.written_eq_nil hact (by rw [hst]; decide)
      have hunsent : s.toChild.unsent = [] := by
        have hbytes := h.toChild.bytes
        rw [hnil, frames_nil] at hbytes
        simp only [append_eq_nil_iff] at hbytes
        exact hbytes.2.2.2
      exact h.parent_step rfl rfl rfl h.toParent (h.toChild.begin hunsent hlen)
        ⟨got, rest, hs, hr, hp'⟩ (h.parentLog.start hopen hok _) h.eof fun _ ↦ ⟨hexp, Or.inl rfl⟩

theorem parentSent (ha : s.parent.active = some (epoch, .sendingAck)) :
    Inv id sha256 (s.parentSent epoch) :=
  h.parent_local (.inl rfl) (fun _ hp ↦ hp.acks (hp.active _ _ ha)
      (fun hok ↦ (hp.exposed_of_acking ha (by rw [ha]; rfl) hok).2) rfl)
    (h.parentLog.resume (by rw [ha]; rfl) _) h.eof fun hw ↦ ⟨(h.acked hw).1, Or.inl rfl⟩

theorem parentShutdown (ha : s.parent.active = some (epoch, .shuttingDown)) :
    Inv id sha256 (s.parentShutdown epoch) :=
  h.parent_local (.inr rfl) (fun _ hp ↦ hp.shutdown ha _ fun hok ↦ hok)
    (h.parentLog.shut.resume (by rw [ha]; rfl) _) h.eof
    fun hw ↦ ⟨(h.acked hw).1, Or.inr (Or.inl rfl)⟩

theorem parentReturn {result : ParentResult F}
    (ha : s.parent.active = some (epoch, .returning result)) :
    Inv id sha256 (s.parentReturn epoch result) := by
  have hacked : s.toChild.written ≠ [] → s.parent.exposed.isSome = true ∧
      (s.parent.fields.status = .acknowledged ∨ s.parent.fields.status = .failed) := by
    intro hw
    obtain ⟨hexp, hst⟩ := h.acked hw
    rw [ha] at hst
    exact ⟨hexp, hst.resolve_left nofun⟩
  rw [Sys.parentReturn]
  split
  next hintact =>
    rw [Endpoint.intact, Bool.and_eq_true, Bool.not_eq_true'] at hintact
    refine h.parent_local (.inl rfl) (fun _ hp ↦ hp.leave ha _ fun hok ↦ hok)
      (h.parentLog.returns (by rw [ha]; rfl) hintact.1) h.eof fun hw ↦ ?_
    obtain ⟨hexp, hst⟩ := hacked hw
    refine ⟨?_, Or.inr hst⟩
    cases result with
    | stream => rfl
    | _ => exact hexp
  · exact h.parent_local (.inr rfl) (fun _ hp ↦ hp.leave_aborted _ rfl)
      ((h.parentLog.abort (none : Option Unit)).raises (Or.inl rfl) nofun)
      (fun _ ↦ Or.inl rfl) fun hw ↦ ⟨(hacked hw).1, Or.inr (hacked hw).2⟩

end

end Inv

/-! ## Every run -/

/-- **One move keeps the invariant.** -/
theorem inv_step (id : ChannelId) (sha256 : List UInt8 → Hex64) :
    Invariant (Step (F := F) id sha256) (Inv id sha256) := by
  intro s t hstep h
  cases hstep with
  | childCall call hidle hopen hok => exact h.childCall call hidle hopen hok
  | childRefused hidle hgone =>
    exact h.child_endpoint (.inl rfl)
      (h.childLog.raises hgone.symm fun ha ↦ by rw [hidle] at ha; cases ha)
  | childConcurrent =>
    exact h.child_endpoint (.inr rfl)
      ((h.childLog.abort s.child.active).raises (Or.inl rfl) fun _ ↦ rfl)
  | childPush epoch next k hpc hk hle hopen =>
    refine h.child_step ⟨[], (append_nil _).symm⟩ rfl rfl (fun he ↦ ?_) rfl (h.toParent.push k)
      h.toChild h.written ?_ h.childLog h.ack
    · rw [hopen] at he
      cases he
    · exact ⟨h.child.sentOk, h.child.shape, h.child.seqs, h.child.busy,
        fun _ hs ↦ (by rw [hpc] at hs; cases hs), h.child.count, h.child.plain, h.child.terminal⟩
  | childSent epoch next hpc hout => exact h.childSent hpc hout
  | childShutdown epoch hpc => exact h.childShutdown hpc
  | childPull epoch pc k hpc hreads => exact h.childPull k hpc hreads
  | childEof epoch pc hpc hreads => exact h.childEof hpc hreads
  | childError => exact h.childRaise
  | childReturn epoch result hpc => exact h.childReturn hpc
  | childInterrupt => exact h.child_endpoint (.inr rfl) (h.childLog.abort _)
  | childClose => exact h.child_endpoint (.inr rfl) h.childLog.shut
  | parentCall call hidle hopen hok => exact h.parentCall call hidle hopen hok
  | parentRefused hidle hgone =>
    exact h.parent_endpoint (.inl rfl) (fun hf ↦ hf)
      (h.parentLog.raises hgone.symm fun ha ↦ by rw [hidle] at ha; cases ha)
  | parentConcurrent =>
    exact h.parent_endpoint (.inr rfl) (fun _ ↦ rfl)
      ((h.parentLog.abort s.parent.active).raises (Or.inl rfl) fun _ ↦ rfl)
  | parentPush epoch k =>
    exact h.parent_step rfl rfl rfl h.toParent (h.toChild.push k) h.parent h.parentLog h.eof h.acked
  | parentSent epoch hpc => exact h.parentSent hpc
  | parentShutdown epoch hpc => exact h.parentShutdown hpc
  | parentPull epoch call next k hpc hk hroom hle => exact h.parentPull k hpc hk hle
  | parentEof epoch call next hpc heof => exact h.parentEof hpc heof
  | parentError => exact h.parentRaise
  | parentReturn epoch result hpc => exact h.parentReturn hpc
  | parentInterrupt => exact h.parent_endpoint (.inr rfl) (fun _ ↦ rfl) (h.parentLog.abort _)
  | parentClose => exact h.parent_endpoint (.inr rfl) (fun hf ↦ hf) h.parentLog.shut

/-- A stream holds the events among these frames, one record each, in order and numbered from
zero; the last of them is terminal and no other is. -/
structure StreamOf (id : ChannelId) (sent : List (Sent F)) (st : ReceivedStream) : Prop where
  records : st.records = (eventsOf sent).map (SentEvent.record id)
  seqs : st.records.map AutonomousEventRecord.seq = List.range st.records.length
  terminal : ∃ init last, eventsOf sent = init ++ [last] ∧ last.isTerminal = true ∧
    ∀ e ∈ init, e.isTerminal = false

/-- A parent that has read an `END` has read everything, and the stream it puts together is
complete. -/
theorem streamOf_endRead {id : ChannelId} {sha256 : List UInt8 → Hex64} {unsent : List UInt8}
    (hc : ChildInv id c unsent) {got rest : List (Sent F)} (hs : c.sent = got ++ rest)
    {r : ReceiveState} (hend : EndRead sha256 r got) :
    StreamOf id c.sent (finalStream sha256 (receiveOf id (eventsOf got))) := by
  obtain ⟨init, b, rfl, -⟩ := hend
  obtain ⟨rfl, hfin⟩ := hc.shape.eq_of_finish (by rw [hs, append_assoc]; rfl)
  rw [append_nil] at hs
  rw [← hs]
  have hrec := receiveOf_records id (eventsOf c.sent)
  refine ⟨hrec, ?_, ?_⟩
  · have hlen : (receiveOf id (eventsOf c.sent)).records.length = (eventsOf c.sent).length := by
      rw [hrec, length_map]
    change (receiveOf id (eventsOf c.sent)).records.map AutonomousEventRecord.seq =
      List.range (receiveOf id (eventsOf c.sent)).records.length
    rw [hlen, hrec, map_map, ← hc.seqs]
    rfl
  · obtain ⟨front, e, b', hsent, hplain, hterm⟩ := hfin
    refine ⟨eventsOf front, e, ?_, hterm, ?_⟩
    · rw [hsent, eventsOf_append]
      rfl
    · intro e' he'
      obtain ⟨x, hx, hxe⟩ := mem_filterMap.1 he'
      cases x with
      | event =>
        cases hxe
        exact hplain _ hx
      | _ => cases hxe

/-- **What the parent has received is the beginning of what the child has sent**, at any time until
it fails: a record for each of the first events, in order. -/
theorem received_records_prefix (id : ChannelId) (sha256 : List UInt8 → Hex64) (s : Sys F)
    (h : Reachable id sha256 s) (hlive : s.parent.fields.status ≠ .failed) :
    s.parent.fields.receive.records <+: (eventsOf s.child.sent).map (SentEvent.record id) := by
  obtain ⟨got, rest, hs, -, hp⟩ := ((inv_step id sha256).of_run h Inv.initial).parent
  have hevents : eventsOf s.child.sent = eventsOf got ++ eventsOf rest := by
    rw [hs]
    exact filterMap_append
  rw [hp.receive hlive, receiveOf_records, hevents, map_append]
  exact prefix_append _ _

/-- **The two endpoints agree in every state they can get into.**  If `complete` has returned an
acknowledgement, a receiving call of the parent has returned a stream that holds exactly the events
the child sent.  If the parent's state is `received` or `acknowledged`, the last frame it has read
is an `END` that states the count and the digest of its records, and it has seen the end of the
stream after it; unless it was aborted meanwhile, that was the end the child had made.  And on
either endpoint no call returns after one that raised. -/
theorem endpoints_agree (id : ChannelId) (sha256 : List UInt8 → Hex64) (s : Sys F)
    (h : Reachable id sha256 s) : (s.child.acknowledgement.isSome = true →
      ∃ st, s.parent.exposed = some st ∧ StreamOf id s.child.sent st) ∧
    (s.parent.fields.status = .received ∨ s.parent.fields.status = .acknowledged →
      ∃ body v, s.toParent.read.getLast? = some body ∧
        decodeCanonicalJsonObject (F := F) body = .ok v ∧
        v.get? (.lit "kind") = some (.str (.lit "END")) ∧
        v.get? (.lit "event_count") = some (.int s.parent.fields.receive.records.length) ∧
        v.get? (.lit "event_digest") = some (.str (eventDigest sha256
          (s.parent.fields.receive.records.map AutonomousEventRecord.frameBytes).flatten)) ∧
        s.parent.sawEof = true ∧ (s.parent.endpoint.failed = true ∨
          s.toParent.ended = true ∧ s.toParent.inFlight = [] ∧ s.toParent.held = [])) ∧
    s.child.endpoint.log.Pairwise (fun earlier later ↦ earlier = true ∨ later = false) ∧
    s.parent.endpoint.log.Pairwise (fun earlier later ↦ earlier = true ∨ later = false) := by
  have hinv := (inv_step id sha256).of_run h Inv.initial
  obtain ⟨got, rest, hs, hr, hp⟩ := hinv.parent
  refine ⟨fun hack ↦ ?_, fun hst ↦ ?_, hinv.childLog.sorted, hinv.parentLog.sorted⟩
  · -- the acknowledgement was read, so it was written, so the stream had been exposed
    have hread := hinv.ack.read_ne_nil (Or.inr hack)
    obtain ⟨more, hw, -⟩ := hinv.toChild.read_prefix
    have hwritten : s.toChild.written ≠ [] := by
      rw [hw]
      exact append_ne_nil_of_left_ne_nil hread _
    obtain ⟨st, hst⟩ := Option.isSome_iff_exists.1 (hinv.acked hwritten).1
    obtain ⟨-, hend, rfl⟩ := hp.exposed st hst
    exact ⟨_, hst, streamOf_endRead hinv.child hs hend⟩
  · have hlive : s.parent.fields.status ≠ .failed ∧ s.parent.fields.status.isFinal = true := by
      rcases hst with hst | hst <;> rw [hst] <;> decide
    have hrec := hp.receive hlive.1
    obtain ⟨hend, heof⟩ := hp.final hlive.2
    obtain ⟨init, b, hgot, v, hv, hkind, hcount, hdigest⟩ := hend
    refine ⟨b, v, ?_, hv, hkind, ?_, ?_, heof, hinv.eof heof⟩
    · rw [hr, hgot, map_append]
      exact getLast?_concat
    · rw [hrec]
      exact hcount
    · rw [hrec, ← receiveOf_digestInput]
      exact hdigest

/-- An event with nothing but a type. -/
def bareEvent (type : String) : Event NumToken :=
  ⟨.dict [(.lit "type", .str (.lit type))], by simp⟩

/-- The child sends one event, the parent receives it and acknowledges, and the child reads the
acknowledgement. -/
def undisturbedTurns : List (Turn NumToken) :=
  [.callChild .start, .child, .child, .child,
    .callChild (.complete (bareEvent "stream_complete")), .child, .child, .child, .child, .child,
    .callParent .receive] ++ List.replicate 8 .parent ++
  [.acknowledge, .parent, .parent, .parent, .parent, .child, .child, .child, .child]

theorem received_records_prefix_sample : ∃ s : Sys NumToken,
    s.parent.fields.receive.records.length = 1 ∧ s.parent.fields.receive.records <+:
      (eventsOf s.child.sent).map (SentEvent.record zeroChannelId) := by
  have hrun : (runTurns zeroChannelId (fun _ ↦ zeroChannelId) (undisturbedTurns.take 17)
      Sys.initial).any (fun s ↦ decide (s.parent.fields.receive.records.length = 1 ∧
        s.parent.fields.status ≠ .failed)) = true := by decide +kernel
  obtain ⟨s, hs, hone⟩ := (Option.any_eq_true _ _).1 hrun
  have hreach := reachable_of_runTurns hs .refl
  obtain ⟨hlength, hlive⟩ := of_decide_eq_true hone
  exact ⟨s, hlength, received_records_prefix _ _ s hreach hlive⟩

/-- `endpoints_agree` in a run that ends with an acknowledgement. -/
theorem endpoints_agree_undisturbed :
    ∃ s : Sys NumToken, Reachable zeroChannelId (fun _ ↦ zeroChannelId) s ∧
      s.child.acknowledgement.isSome = true ∧ s.parent.fields.status = .acknowledged ∧
      ∃ st, s.parent.exposed = some st ∧ StreamOf zeroChannelId s.child.sent st := by
  have hrun : ((runTurns zeroChannelId (fun _ ↦ zeroChannelId) undisturbedTurns Sys.initial).map
      fun s ↦ (s.child.acknowledgement.isSome, s.parent.fields.status)) =
      some (true, .acknowledged) := by decide +kernel
  obtain ⟨s, hs, heq⟩ := Option.map_eq_some_iff.1 hrun
  have hreach := reachable_of_runTurns hs .refl
  have hack : s.child.acknowledgement.isSome = true := congrArg Prod.fst heq
  exact ⟨s, hreach, hack, congrArg Prod.snd heq, (endpoints_agree _ _ s hreach).1 hack⟩

end AgentGateway.EventChannel
