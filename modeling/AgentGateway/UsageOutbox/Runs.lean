import AgentGateway.UsageOutbox.Store

/-!
# The usage outbox along every run

What one call does to a row is said once (`Moved`): it keeps what was enqueued, leaves a row that
has ended alone, counts a lease as an attempt, and starts sending only under the token it has drawn
(`step_moves`).  Everything else follows by running calls one after another.

An event is known by its identifier and its digest.  A batch that repeats a known event with the
same digest is accepted, and the row that is there stays as it is: what is stored are the bytes that
were enqueued first.  The digest does not tell apart all payloads that differ in their bytes, since
it is taken of the normalized body, so a payload may be accepted whose own bytes are stored nowhere
(`second_rendering_not_stored`).
-/

namespace AgentGateway.UsageOutbox

open Py List

variable {F : Type} [PyFloat F] {E : Env F}

/-! ## Enqueueing -/

variable {payloads : List (Json F)} {es : List Evidence}

theorem prepareBatch_forall₂ {seen : Dict Str Str} (h : prepareBatch E payloads seen = .ok es) :
    List.Forall₂ (fun p e ↦ prepare E p = .ok e) payloads es := by
  induction payloads generalizing seen es with
  | nil =>
    cases h
    exact .nil
  | cons p rest ih =>
    simp only [prepareBatch, bind_eq_ok_iff] at h
    obtain ⟨e, he, -, -, es', hrest, h⟩ := h
    cases h
    exact .cons he (ih hrest)

theorem exists_of_forall₂ {α β : Type} {R : α → β → Prop} {l : List α} {l' : List β}
    (h : Forall₂ R l l') {a : α} (ha : a ∈ l) : ∃ b ∈ l', R a b := by
  induction h with
  | nil => cases ha
  | cons hab _ ih =>
    rcases mem_cons.1 ha with rfl | ha
    · exact ⟨_, mem_cons_self, hab⟩
    · obtain ⟨b, hb, hab⟩ := ih ha
      exact ⟨b, mem_cons_of_mem _ hb, hab⟩

/-- What the loop leaves: the rows that were there, and a row for the first of the events with a new
identifier. -/
structure Inserted (created : Str) (t : Outbox) (es : List Evidence) (t' : Outbox) : Prop where
  kept : ∀ r ∈ t.rows, r ∈ t'.rows
  stored : ∀ e ∈ es, ∃ r ∈ t'.rows, r.eventId = e.eventId ∧
    r.evidence.payloadSha256 = e.payloadSha256
  new : ∀ r ∈ t'.rows, r ∈ t.rows ∨ ∃ before e rest, es = before ++ e :: rest ∧
    r = .new e created ∧ (∀ x ∈ before, x.eventId ≠ e.eventId) ∧ ∀ x ∈ t.rows, x.eventId ≠ e.eventId

variable {t t' : Outbox} {created : Str}

theorem inserted_of_ok (h : insertAll created es t = .ok t') : Inserted created t es t' := by
  induction es generalizing t with
  | nil =>
    cases h
    exact ⟨fun r hr ↦ hr, by simp, fun r hr ↦ .inl hr⟩
  | cons e rest ih =>
    rw [insertAll] at h
    split at h
    next existing hfind =>
      simp only [bind_eq_ok_iff, require_eq_ok_iff] at h
      obtain ⟨-, hdigest, h⟩ := h
      obtain ⟨hmem, hid⟩ := Table.find?_eq_some_iff.1 hfind
      obtain ⟨hkept, hstored, hnew⟩ := ih h
      refine ⟨hkept, fun x hx ↦ ?_, fun r hr ↦ ?_⟩
      · rcases mem_cons.1 hx with rfl | hx
        · exact ⟨existing, hkept _ hmem, hid, hdigest⟩
        · exact hstored x hx
      · rcases hnew r hr with hold | ⟨before, x, rest', rfl, rfl, hbefore, hfresh⟩
        · exact .inl hold
        · refine .inr ⟨e :: before, x, rest', rfl, rfl, fun y hy ↦ ?_, hfresh⟩
          rcases mem_cons.1 hy with rfl | hy
          · exact hid ▸ hfresh existing hmem
          · exact hbefore y hy
    next hfind =>
      simp only [bind_eq_ok_iff, requireSome_eq_ok_iff] at h
      obtain ⟨t₁, hins, h⟩ := h
      obtain ⟨hunused, hrows⟩ := Table.insert?_eq_some_iff.1 (Guarded.toTable_of_insert? hins)
      obtain ⟨hkept, hstored, hnew⟩ := ih h
      have hfirst : Row.new e created ∈ t₁.rows := by
        rw [hrows]
        exact mem_append_right _ mem_cons_self
      refine ⟨fun r hr ↦ hkept r ?_, fun x hx ↦ ?_, fun r hr ↦ ?_⟩
      · rw [hrows]
        exact mem_append_left _ hr
      · rcases mem_cons.1 hx with rfl | hx
        · exact ⟨_, hkept _ hfirst, rfl, rfl⟩
        · exact hstored x hx
      · rcases hnew r hr with hold | ⟨before, x, rest', rfl, rfl, hbefore, hfresh⟩
        · rw [hrows, mem_append, mem_singleton] at hold
          rcases hold with hold | rfl
          · exact .inl hold
          · exact .inr ⟨[], e, rest, rfl, rfl, by simp, hunused⟩
        · refine .inr ⟨e :: before, x, rest', rfl, rfl, fun y hy ↦ ?_, fun y hy ↦ hfresh y ?_⟩
          · rcases mem_cons.1 hy with rfl | hy
            · exact hfresh _ hfirst
            · exact hbefore y hy
          · rw [hrows]
            exact mem_append_left _ hy

/-- A batch of which every event is stored changes nothing. -/
theorem insertAll_of_stored (h : ∀ e ∈ es, ∃ r ∈ t.rows, r.eventId = e.eventId ∧
      r.evidence.payloadSha256 = e.payloadSha256) : insertAll created es t = .ok t := by
  induction es with
  | nil => rfl
  | cons e rest ih =>
    obtain ⟨r, hr, hid, hdigest⟩ := h e mem_cons_self
    have hfind : t.find? e.eventId = some r := Table.find?_eq_some_iff.2 ⟨hr, hid⟩
    rw [insertAll, hfind]
    simp only [require, if_pos hdigest]
    exact ih fun x hx ↦ h x (mem_cons_of_mem e hx)

variable {db db' : Outbox} {createdAt : Int}

theorem enqueueBatch_eq_ok (h : enqueueBatch E db payloads createdAt = .ok db') :
    payloads.isEmpty = false ∧ ∃ es created, prepareBatch E payloads [] = .ok es ∧
      List.Forall₂ (fun p e ↦ prepare E p = .ok e) payloads es ∧
      E.utcText createdAt = some created ∧ insertAll created es db = .ok db' := by
  simp only [enqueueBatch, utcText, bind_eq_ok_iff, require_eq_ok_iff, requireSome_eq_ok_iff] at h
  obtain ⟨-, hne, es, hes, created, hcreated, h⟩ := h
  exact ⟨hne, es, created, hes, prepareBatch_forall₂ hes, hcreated, h⟩

variable (E) in
/-- What a batch whose enqueue returned has left. -/
structure Enqueued (db : Outbox) (payloads : List (Json F)) (db' : Outbox) : Prop where
  /-- The rows that were there are as they were. -/
  kept : ∀ r ∈ db.rows, r ∈ db'.rows
  /-- Every event of the batch is stored under its digest. -/
  stored : ∀ p ∈ payloads, ∃ e, prepare E p = .ok e ∧ ∃ r ∈ db'.rows, r.eventId = e.eventId ∧
    r.evidence.payloadSha256 = e.payloadSha256
  /-- A row that is new is that of the first payload of the batch with its identifier. -/
  new : ∀ r ∈ db'.rows, r ∈ db.rows ∨ ∃ before p rest e created, payloads = before ++ p :: rest ∧
    prepare E p = .ok e ∧ payloadJson p = some e.payloadJson ∧ r = .new e created ∧
    (∀ q ∈ before, ∀ e', prepare E q = .ok e' → e'.eventId ≠ e.eventId) ∧
    ∀ x ∈ db.rows, x.eventId ≠ e.eventId

/-- What a payload that is accepted says of itself. -/
theorem prepare_eq_ok {p : Json F} {e : Evidence} (h : prepare E p = .ok e) : ∃ event,
    p = .dict event ∧ e.eventId = field E event "source_event_id" ∧
      e.payloadSha256 = field E event "source_payload_sha256" ∧
      payloadJson p = some e.payloadJson := by
  cases p with
  | dict event =>
    simp only [prepare, bind_eq_ok_iff, requireSome_eq_ok_iff] at h
    obtain ⟨-, -, -, -, -, -, occurredAt, -, -, -, text, htext, h⟩ := h
    cases h
    exact ⟨event, rfl, rfl, rfl, htext⟩
  | null | bool b | int n | float x | str s | list xs | foreign => cases h

theorem enqueued_of_ok
    (h : enqueueBatch E db payloads createdAt = .ok db') : Enqueued E db payloads db' := by
  obtain ⟨-, es, created, -, hes, -, h⟩ := enqueueBatch_eq_ok h
  obtain ⟨hkept, hstored, hnew⟩ := inserted_of_ok h
  refine ⟨hkept, fun p hp ↦ ?_, fun r hr ↦ ?_⟩
  · obtain ⟨e, he, hp⟩ := exists_of_forall₂ hes hp
    exact ⟨e, hp, hstored e he⟩
  · rcases hnew r hr with hold | ⟨before, e, rest, rfl, rfl, hbefore, hfresh⟩
    · exact .inl hold
    have hfirst := forall₂_take_append payloads before (e :: rest) hes
    have hlast := forall₂_drop_append payloads before (e :: rest) hes
    obtain ⟨p, payloads', hp, -, hsplit⟩ := forall₂_cons_right_iff.1 hlast
    refine .inr ⟨payloads.take before.length, p, payloads', e, created, ?_, hp, ?_, rfl, ?_, hfresh⟩
    · rw [← hsplit, take_append_drop]
    · obtain ⟨-, -, -, -, hjson⟩ := prepare_eq_ok hp
      exact hjson
    · intro q hq e' he'
      obtain ⟨x, hx, hqx⟩ := exists_of_forall₂ hfirst hq
      cases hqx.symm.trans he'
      exact hbefore e' hx

/-! ### Which batches are accepted -/

variable (E) in
/-- The payloads can be prepared, and those of one event have one digest, which is also that of the
row if there is one. -/
structure Acceptable (db : Outbox) (payloads : List (Json F)) : Prop where
  prepared : ∀ p ∈ payloads, ∃ e, prepare E p = .ok e
  agree : ∀ p ∈ payloads, ∀ q ∈ payloads, ∀ e e', prepare E p = .ok e → prepare E q = .ok e' →
    e.eventId = e'.eventId → e.payloadSha256 = e'.payloadSha256
  stored : ∀ p ∈ payloads, ∀ e, prepare E p = .ok e → ∀ r ∈ db.rows, r.eventId = e.eventId →
    r.evidence.payloadSha256 = e.payloadSha256

theorem acceptable_nil (db : Outbox) : Acceptable E db [] := ⟨by simp, by simp, by simp⟩

theorem Acceptable.of_enqueued (h : Enqueued E db payloads db') : Acceptable E db payloads := by
  have hrow : ∀ p ∈ payloads, ∀ e, prepare E p = .ok e → ∀ r ∈ db'.rows, r.eventId = e.eventId →
      r.evidence.payloadSha256 = e.payloadSha256 := by
    intro p hp e he r hr hid
    obtain ⟨e', he', r', hr', hid', hdigest⟩ := h.stored p hp
    cases he.symm.trans he'
    rw [Table.eq_of_key_eq hr hr' (hid.trans hid'.symm), hdigest]
  refine ⟨fun p hp ↦ ?_, fun p hp q hq e e' he he' hid ↦ ?_, fun p hp e he r hr ↦ ?_⟩
  · obtain ⟨e, he, -⟩ := h.stored p hp
    exact ⟨e, he⟩
  · obtain ⟨e₁, he₁, r, hr, hid', hdigest⟩ := h.stored p hp
    cases he.symm.trans he₁
    rw [← hdigest, hrow q hq e' he' r hr (hid'.trans hid)]
  · exact hrow p hp e he r (h.kept r hr)

theorem Acceptable.left {rest : List (Json F)} (h : Acceptable E db (payloads ++ rest)) :
    Acceptable E db payloads :=
  ⟨fun p hp ↦ h.prepared p (mem_append_left _ hp),
    fun p hp q hq ↦ h.agree p (mem_append_left _ hp) q (mem_append_left _ hq),
    fun p hp ↦ h.stored p (mem_append_left _ hp)⟩

theorem exists_prepareBatch (seen : Dict Str Str)
    (hprepared : ∀ p ∈ payloads, ∃ e, prepare E p = .ok e)
    (hagree : ∀ p ∈ payloads, ∀ q ∈ payloads, ∀ e e', prepare E p = .ok e → prepare E q = .ok e' →
      e.eventId = e'.eventId → e.payloadSha256 = e'.payloadSha256)
    (hseen : ∀ p ∈ payloads, ∀ e, prepare E p = .ok e → ∀ digest ∈ seen.lookup e.eventId,
      digest = e.payloadSha256) :
    ∃ es, prepareBatch E payloads seen = .ok es := by
  induction payloads generalizing seen with
  | nil => exact ⟨[], rfl⟩
  | cons p rest ih =>
    obtain ⟨e, he⟩ := hprepared p mem_cons_self
    have hseen' : ∀ q ∈ rest, ∀ e', prepare E q = .ok e' →
        ∀ digest ∈ (seen.set e.eventId e.payloadSha256).lookup e'.eventId,
          digest = e'.payloadSha256 := by
      intro q hq e' he' digest hdigest
      rw [Dict.lookup_set] at hdigest
      split at hdigest
      next hid =>
        cases hdigest
        exact hagree p mem_cons_self q (mem_cons_of_mem p hq) e e' he he' hid.symm
      · exact hseen q (mem_cons_of_mem p hq) e' he' digest hdigest
    obtain ⟨es, hes⟩ := ih _ (fun q hq ↦ hprepared q (mem_cons_of_mem p hq))
      (fun q hq q' hq' ↦ hagree q (mem_cons_of_mem p hq) q' (mem_cons_of_mem p hq')) hseen'
    refine ⟨e :: es, ?_⟩
    simp only [prepareBatch, bind_eq_ok_iff, require_eq_ok_iff]
    exact ⟨e, he, (), hseen p mem_cons_self e he, es, hes, rfl⟩

theorem exists_insertAll (created : Str)
    (hagree : ∀ e ∈ es, ∀ e' ∈ es, e.eventId = e'.eventId → e.payloadSha256 = e'.payloadSha256)
    (hstored : ∀ e ∈ es, ∀ r ∈ t.rows, r.eventId = e.eventId →
      r.evidence.payloadSha256 = e.payloadSha256) : ∃ t', insertAll created es t = .ok t' := by
  induction es generalizing t with
  | nil => exact ⟨t, rfl⟩
  | cons e rest ih =>
    have hrest : ∀ x ∈ rest, ∀ x' ∈ rest, x.eventId = x'.eventId →
        x.payloadSha256 = x'.payloadSha256 :=
      fun x hx x' hx' ↦ hagree x (mem_cons_of_mem e hx) x' (mem_cons_of_mem e hx')
    rw [insertAll]
    split
    next existing hfind =>
      obtain ⟨hmem, hid⟩ := Table.find?_eq_some_iff.1 hfind
      rw [require, if_pos (hstored e mem_cons_self existing hmem hid)]
      exact ih hrest fun x hx ↦ hstored x (mem_cons_of_mem e hx)
    next hfind =>
      obtain ⟨t₁, hins⟩ := Guarded.exists_insert? (t := t) (r := Row.new e created) rfl
        (Table.find?_eq_none_iff.1 hfind)
      rw [hins]
      refine ih (t := t₁) hrest fun x hx r hr hid ↦ ?_
      rw [(Table.insert?_eq_some_iff.1 (Guarded.toTable_of_insert? hins)).2, mem_append,
        mem_singleton] at hr
      rcases hr with hr | rfl
      · exact hstored x (mem_cons_of_mem e hx) r hr hid
      · exact hagree e mem_cons_self x (mem_cons_of_mem e hx) hid

/-- **Which batches are accepted**, at a time that can be written. -/
theorem enqueueBatch_eq_ok_iff (db : Outbox) (hne : payloads ≠ [])
    (hcreated : (E.utcText createdAt).isSome) :
    (∃ db', enqueueBatch E db payloads createdAt = .ok db') ↔ Acceptable E db payloads := by
  constructor
  · rintro ⟨db', h⟩
    exact .of_enqueued (enqueued_of_ok h)
  · intro h
    obtain ⟨created, hcreated⟩ := Option.isSome_iff_exists.1 hcreated
    obtain ⟨es, hes⟩ := exists_prepareBatch [] h.prepared h.agree (by simp)
    have hprepared : ∀ e ∈ es, ∃ p ∈ payloads, prepare E p = .ok e := fun e he ↦
      exists_of_forall₂ (R := fun e p ↦ prepare E p = .ok e) (prepareBatch_forall₂ hes).flip he
    have hagree : ∀ e ∈ es, ∀ e' ∈ es, e.eventId = e'.eventId →
        e.payloadSha256 = e'.payloadSha256 := by
      intro e he e' he'
      obtain ⟨p, hp, hpe⟩ := hprepared e he
      obtain ⟨q, hq, hqe⟩ := hprepared e' he'
      exact h.agree p hp q hq e e' hpe hqe
    have hstored : ∀ e ∈ es, ∀ r ∈ db.rows, r.eventId = e.eventId →
        r.evidence.payloadSha256 = e.payloadSha256 := by
      intro e he
      obtain ⟨p, hp, hpe⟩ := hprepared e he
      exact h.stored p hp e hpe
    obtain ⟨db', hdb'⟩ := exists_insertAll created hagree hstored
    refine ⟨db', ?_⟩
    simp only [enqueueBatch, utcText, bind_eq_ok_iff, require_eq_ok_iff, requireSome_eq_ok_iff]
    exact ⟨(), by simpa using hne, es, hes, created, hcreated, hdb'⟩

/-- Of two batches the second is enqueued into what the first has left. -/
theorem Enqueued.acceptable_append (h : Enqueued E db payloads db') {rest : List (Json F)} :
    Acceptable E db (payloads ++ rest) ↔ Acceptable E db' rest := by
  have hfirst := Acceptable.of_enqueued h
  constructor
  · intro hall
    refine ⟨fun p hp ↦ hall.prepared p (mem_append_right _ hp), fun p hp q hq ↦
      hall.agree p (mem_append_right _ hp) q (mem_append_right _ hq), fun p hp e he r hr hid ↦ ?_⟩
    rcases h.new r hr with hold | ⟨before, q, after, e', created, rfl, hq, -, rfl, -⟩
    · exact hall.stored p (mem_append_right _ hp) e he r hold hid
    · exact hall.agree q (by simp) p (mem_append_right _ hp) e' e hq he hid
  · intro hrest
    -- an event of both batches is in the row that the first one has left
    have hboth : ∀ p ∈ payloads, ∀ q ∈ rest, ∀ e e', prepare E p = .ok e → prepare E q = .ok e' →
        e.eventId = e'.eventId → e.payloadSha256 = e'.payloadSha256 := by
      intro p hp q hq e e' he he' hid
      obtain ⟨e₁, he₁, r, hr, hid', hdigest⟩ := h.stored p hp
      cases he.symm.trans he₁
      rw [← hdigest, hrest.stored q hq e' he' r hr (hid'.trans hid)]
    refine ⟨fun p hp ↦ ?_, fun p hp q hq e e' he he' hid ↦ ?_, fun p hp e he r hr hid ↦ ?_⟩
    · rcases mem_append.1 hp with hp | hp
      · exact hfirst.prepared p hp
      · exact hrest.prepared p hp
    · rcases mem_append.1 hp with hp | hp <;> rcases mem_append.1 hq with hq | hq
      · exact hfirst.agree p hp q hq e e' he he' hid
      · exact hboth p hp q hq e e' he he' hid
      · exact (hboth q hq p hp e' e he' he hid.symm).symm
      · exact hrest.agree p hp q hq e e' he he' hid
    · rcases mem_append.1 hp with hp | hp
      · exact hfirst.stored p hp e he r hr hid
      · exact hrest.stored p hp e he r (h.kept r hr) hid

/-! ### Batches that are known -/

/-- **Repeating a batch is a no-op**, at any later time. -/
theorem enqueueBatch_again {later : Outbox} {createdAt' : Int}
    (h : enqueueBatch E db payloads createdAt = .ok db')
    (hlater : ∀ r ∈ db'.rows, ∃ r' ∈ later.rows, r'.evidence = r.evidence)
    (hcreated : E.utcText createdAt' = some created) :
    enqueueBatch E later payloads createdAt' = .ok later := by
  obtain ⟨hne, es, _, hbatch, -, -, hins⟩ := enqueueBatch_eq_ok h
  have hstored : ∀ e ∈ es, ∃ r ∈ later.rows, r.eventId = e.eventId ∧
      r.evidence.payloadSha256 = e.payloadSha256 := by
    intro e he
    obtain ⟨r, hr, hid, hdigest⟩ := (inserted_of_ok hins).stored e he
    obtain ⟨r', hr', hsame⟩ := hlater r hr
    exact ⟨r', hr', by rw [Row.eventId, hsame, ← hid, Row.eventId], by rw [hsame, hdigest]⟩
  simp only [enqueueBatch, utcText, hbatch, hcreated, require, requireSome, if_pos hne]
  exact insertAll_of_stored hstored

variable {r : Row}

/-- **A batch with a known event under another digest raises.** -/
theorem enqueueBatch_conflict {event : Dict Str (Json F)} (hevent : .dict event ∈ payloads)
    (hr : r ∈ db.rows) (hid : r.eventId = field E event "source_event_id")
    (hdigest : r.evidence.payloadSha256 ≠ field E event "source_payload_sha256") :
    ∃ e, enqueueBatch E db payloads createdAt = .error e := by
  cases h : enqueueBatch E db payloads createdAt with
  | error e => exact ⟨e, rfl⟩
  | ok =>
    obtain ⟨hkept, hstored, -⟩ := enqueued_of_ok h
    obtain ⟨e, he, r', hr', hid', hdigest'⟩ := hstored _ hevent
    obtain ⟨event', hsame, heid, hesha, -⟩ := prepare_eq_ok he
    cases hsame
    have hrow : r = r' := Table.eq_of_key_eq (hkept r hr) hr' (by rw [hid, hid', heid])
    rw [hrow, hdigest', hesha] at hdigest
    exact absurd rfl hdigest

/-! ## Leasing -/

/-- The row after leases that ran out were taken back. -/
def Row.settle (r : Row) (current : Str) : Row :=
    if r.isExpired current then r.expire current else r

/-- What a lease does to a row, where `ids` are the events it hands out. -/
inductive Leased (current token expiresAt : Str) (ids : List Str) (r : Row) : Row → Prop
  | lease (hid : r.eventId ∈ ids) (hwaiting : (r.settle current).isWaiting = true) :
    Leased current token expiresAt ids r ((r.settle current).lease token expiresAt)
  | deadLetter (hid : r.eventId ∉ ids) (hwaiting : (r.settle current).isWaiting = true)
    (version : Str) : Leased current token expiresAt ids r ((r.settle current).deadLetter version)
  | settle (hid : r.eventId ∉ ids) : Leased current token expiresAt ids r (r.settle current)

variable {token : Str}

theorem leaseRows_evolves {expiresAt : Str} {ids : List Str}
    (h : leaseRows token expiresAt ids t = some t') :
    t.toTable.Evolves (fun r r' ↦ r' = if r.eventId ∈ ids ∧ r.isWaiting = true then
      r.lease token expiresAt else r) (fun _ ↦ False) t'.toTable := by
  induction ids generalizing t with
  | nil =>
    cases h
    exact .refl (by simp) _
  | cons id rest ih =>
    rw [leaseRows, Option.bind_eq_some_iff] at h
    obtain ⟨t₁, hupdate, h⟩ := h
    have hstep : t.toTable.Evolves (fun r r' ↦ r' = if r.eventId = id ∧ r.isWaiting = true then
        r.lease token expiresAt else r) (fun _ ↦ False) t₁.toTable := by
      refine Guarded.evolves_update? hupdate (fun r _ hp ↦ ?_) fun r _ hp _ ↦ ?_
      · rw [if_neg]
        simpa using hp
      · rw [if_pos]
        simpa using hp
    refine hstep.trans ?_ (fun _ _ h _ ↦ h) (ih h)
    rintro r s u hs hu
    rw [hu, hs]
    by_cases hwaiting : r.isWaiting = true
    · by_cases hid : r.eventId = id
      · have hleased : (r.lease token expiresAt).isWaiting = false := rfl
        simp [hid, hwaiting, hleased]
      · simp [hid, hwaiting]
    · simp [hwaiting]

theorem deadLetterRows_evolves {rows : List Row} {ids : List Str}
    (h : deadLetterRows E rows t = some (ids, t')) :
    ids = (rows.filter (Row.isShippable E)).map Row.eventId ∧
    t.toTable.Evolves (fun r r' ↦ r' = r ∨ r.isWaiting = true ∧
      (∃ x ∈ rows, x.eventId = r.eventId ∧ x.isShippable E = false) ∧
      ∃ version, r' = r.deadLetter version) (fun _ ↦ False) t'.toTable := by
  induction rows generalizing t ids with
  | nil =>
    cases h
    exact ⟨rfl, .refl (fun _ ↦ .inl rfl) _⟩
  | cons x rest ih =>
    rw [deadLetterRows] at h
    by_cases hship : x.isShippable E = true
    · rw [if_pos hship, Option.map_eq_some_iff] at h
      obtain ⟨⟨ids', t₁⟩, hrest, h⟩ := h
      cases h
      obtain ⟨rfl, hevolves⟩ := ih hrest
      refine ⟨by rw [filter_cons_of_pos hship, map_cons], hevolves.mono ?_⟩
      rintro r r' (hsame | ⟨hwaiting, ⟨y, hy, hdead⟩, hr'⟩)
      · exact .inl hsame
      · exact .inr ⟨hwaiting, ⟨y, mem_cons_of_mem x hy, hdead⟩, hr'⟩
    · rw [if_neg hship, Option.bind_eq_some_iff] at h
      obtain ⟨t₁, hupdate, h⟩ := h
      obtain ⟨rfl, hevolves⟩ := ih h
      refine ⟨by rw [filter_cons_of_neg hship], ?_⟩
      have hstep : t.toTable.Evolves (fun r r' ↦ r' = r ∨ r.isWaiting = true ∧
          x.eventId = r.eventId ∧ ∃ version, r' = r.deadLetter version) (fun _ ↦ False)
          t₁.toTable := by
        refine Guarded.evolves_update? hupdate (fun _ _ _ ↦ .inl rfl) fun r _ hp _ ↦ ?_
        rw [Bool.and_eq_true, decide_eq_true_eq] at hp
        exact .inr ⟨hp.2, hp.1.symm, _, rfl⟩
      refine hstep.trans ?_ (fun _ _ h _ ↦ h) hevolves
      rintro r s u (rfl | ⟨hwaiting, hid, version, rfl⟩) hu
      · rcases hu with hsame | ⟨hwaiting, ⟨y, hy, hdead⟩, hu⟩
        · exact .inl hsame
        · exact .inr ⟨hwaiting, ⟨y, mem_cons_of_mem x hy, hdead⟩, hu⟩
      · rcases hu with rfl | ⟨hdead, -⟩
        · exact .inr ⟨hwaiting, ⟨x, mem_cons_self, hid, by simpa using hship⟩, version, rfl⟩
        · cases hdead

/-- **A lease, row by row**: the events it hands out are leased, and of the others some are dead. -/
theorem leaseBatch_evolves {limit leaseFor now : Int} {leased : List Row}
    (h : leaseBatch E db limit leaseFor now token = .ok (leased, db')) :
    ∃ current expiresAt ids, (∀ x, x ∈ leased ↔ x ∈ db'.rows ∧ x.eventId ∈ ids) ∧
      db.toTable.Evolves (Leased current token expiresAt ids) (fun _ ↦ False) db'.toTable := by
  simp only [leaseBatch, utcText, bind_eq_ok_iff, requireSome_eq_ok_iff, Prod.exists] at h
  obtain ⟨-, -, current, -, expiresAt, -, t₁, hexpire, ids, t₂, hdead, t₃, hlease, h⟩ := h
  cases h
  refine ⟨current, expiresAt, ids, fun x ↦ ?_, ?_⟩
  · rw [selectRows, mem_insertionSort, mem_filter, decide_eq_true_eq]
  have hexpired : db.toTable.Evolves (fun r r' ↦ r' = r.settle current) (fun _ ↦ False)
      t₁.toTable := by
    refine Guarded.evolves_update? hexpire (fun r _ hp ↦ ?_) fun r _ hp _ ↦ ?_
    · rw [Row.settle, if_neg (Bool.eq_false_iff.1 hp)]
    · rw [Row.settle, if_pos hp]
  obtain ⟨hids, hdeadLetter⟩ := deadLetterRows_evolves hdead
  have hleases := leaseRows_evolves hlease
  refine ⟨fun r hr ↦ ?_, fun x hx hnew ↦ ?_⟩
  · obtain ⟨s, hs, hsid, rfl⟩ := hexpired.keeps r hr
    obtain ⟨u, hu, huid, hrow⟩ := hdeadLetter.keeps _ hs
    obtain ⟨r', hr', hrid, hleased⟩ := hleases.keeps u hu
    refine ⟨r', hr', hrid.trans (huid.trans hsid), ?_⟩
    -- the rows that were selected are those of the table
    have hselected : ∀ x ∈ ((t₁.rows.filter fun r ↦ r.isReady current).insertionSort
        Row.before).take limit.toNat, x.eventId = r.eventId →
        x = r.settle current ∧ x.isWaiting = true := by
      intro x hx hid
      have hmem := mem_of_mem_take hx
      rw [mem_insertionSort, mem_filter, Row.isReady, Bool.and_eq_true] at hmem
      exact ⟨Table.eq_of_key_eq hmem.1 hs (hid.trans hsid.symm), hmem.2.1⟩
    by_cases hin : r.eventId ∈ ids
    · have hin' := hin
      rw [hids, mem_map] at hin'
      obtain ⟨x, hx, hxid⟩ := hin'
      rw [mem_filter] at hx
      obtain ⟨rfl, hwaiting⟩ := hselected x hx.1 hxid
      rcases hrow with rfl | ⟨-, ⟨y, hy, hyid, hunship⟩, -⟩
      · rw [if_pos ⟨hsid.symm ▸ hin, hwaiting⟩] at hleased
        rw [hleased]
        exact .lease hin hwaiting
      · rw [(hselected y hy (hyid.trans hsid)).1, hx.2] at hunship
        cases hunship
    · have hnot : u.eventId ∉ ids := by
        rw [show u.eventId = r.eventId from huid.trans hsid]
        exact hin
      rw [if_neg (fun h ↦ hnot h.1)] at hleased
      rw [hleased]
      rcases hrow with rfl | ⟨hwaiting, -, version, rfl⟩
      · exact .settle hin
      · exact .deadLetter hin hwaiting version
  · rcases hleases.cases hx with hfalse | ⟨u, hu, hux, -⟩
    · exact hfalse
    rcases hdeadLetter.cases hu with hfalse | ⟨s, hs, hsu, -⟩
    · exact hfalse
    exact hexpired.new s hs fun r hr hrs ↦ hnew r hr (hrs.trans (hsu.trans hux))

/-! ## One call -/

/-- The event and the token of a call that marks what came of an attempt. -/
def Op.mark? : Op F → Option (Str × Str)
  | .enqueue .. | .lease .. => none
  | .accepted eventId leaseToken .. | .retryable eventId leaseToken .. | .dead eventId
    leaseToken .. =>
    some (eventId, leaseToken)

/-- The tokens a call draws. -/
def Op.tokens : Op F → List Str
  | .lease _ _ _ token => [token]
  | _ => []

variable (E) in
/-- The call leases the event. -/
def leases (db : Outbox) (op : Op F) (eventId : Str) : Bool :=
  match op with
  | .lease limit leaseFor now token => (leaseBatch E db limit leaseFor now token).toOption.any
      fun reply ↦ reply.1.any fun r ↦ decide (r.eventId = eventId)
  | _ => false

/-- What was enqueued stays, and so does a row that has ended. -/
structure Kept (r r' : Row) : Prop where
  evidence : r'.evidence = r.evidence
  createdAt : r'.createdAt = r.createdAt
  final : r.isTerminal = true → r' = r

variable (E) in
/-- What a call does to a row. -/
structure Moved (db : Outbox) (op : Op F) (r r' : Row) : Prop where
  kept : Kept r r'
  attempts : r'.attemptCount = r.attemptCount + if leases E db op r.eventId then 1 else 0
  sending : ∀ token, r'.isSendingUnder r.eventId token = true →
    r.isSendingUnder r.eventId token = true ∨ token ∈ op.tokens
  marked : ∀ mark ∈ op.mark?, r' = r ∨ r.isSendingUnder mark.1 mark.2 = true

theorem Kept.refl (r : Row) : Kept r r := ⟨rfl, rfl, fun _ ↦ rfl⟩

theorem Kept.trans {r' r'' : Row} (h : Kept r r') (h' : Kept r' r'') : Kept r r'' where
  evidence := h'.evidence.trans h.evidence
  createdAt := h'.createdAt.trans h.createdAt
  final hterminal := by
    obtain rfl := h.final hterminal
    exact h'.final hterminal

variable {op : Op F}

theorem Moved.refl (hleases : ∀ eventId, leases E db op eventId = false) (r : Row) :
    Moved E db op r r :=
  ⟨.refl r, by simp [hleases], fun _ h ↦ .inl h, fun _ _ ↦ .inl rfl⟩

theorem Row.settle_kept (r : Row) (current : Str) : Kept r (r.settle current) := by
  rw [Row.settle]
  split
  next hexpired =>
    refine ⟨rfl, rfl, fun hterminal ↦ ?_⟩
    rw [Row.isExpired, Bool.and_eq_true, decide_eq_true_eq] at hexpired
    simp [Row.isTerminal, hexpired.1] at hterminal
  · exact .refl r

theorem Row.attemptCount_settle (r : Row) (current : Str) :
    (r.settle current).attemptCount = r.attemptCount := by
  rw [Row.settle]
  split <;> rfl

variable {eventId : Str}

theorem Row.isSendingUnder_settle {current : Str}
    (h : (r.settle current).isSendingUnder eventId token = true) :
    r.isSendingUnder eventId token = true := by
  rw [Row.settle] at h
  split at h
  · simp [Row.isSendingUnder, Row.expire] at h
  · exact h

theorem not_isTerminal_of_isWaiting (h : r.isWaiting = true) : r.isTerminal = false := by
  rw [Row.isWaiting, decide_eq_true_eq] at h
  rcases h with h | h <;> simp [Row.isTerminal, h]

/-- A row that waits has not ended, so whatever becomes of it keeps what was enqueued. -/
theorem Kept.of_isWaiting {s r' : Row} (h : Kept r s) (hwaiting : s.isWaiting = true)
    (hevidence : r'.evidence = s.evidence) (hcreated : r'.createdAt = s.createdAt) : Kept r r' := by
  refine h.trans ⟨hevidence, hcreated, fun hterminal ↦ ?_⟩
  rw [not_isTerminal_of_isWaiting hwaiting] at hterminal
  cases hterminal

theorem leaseBatch_moves {limit leaseFor now : Int} {leased : List Row}
    (h : leaseBatch E db limit leaseFor now token = .ok (leased, db')) {N : Row → Prop} :
    db.toTable.Evolves (Moved E db (.lease limit leaseFor now token)) N db'.toTable := by
  obtain ⟨current, expiresAt, ids, hleased, hevolves⟩ := leaseBatch_evolves h
  refine ⟨fun r hr ↦ ?_, fun x hx hnew ↦ (hevolves.new x hx hnew).elim⟩
  obtain ⟨r', hr', hid, hmove⟩ := hevolves.keeps r hr
  have hcount : leases E db (.lease limit leaseFor now token) r.eventId =
      decide (r.eventId ∈ ids) := by
    have hiff : (leased.any fun x ↦ decide (x.eventId = r.eventId)) = true ↔ r.eventId ∈ ids := by
      rw [any_eq_true]
      constructor
      · rintro ⟨x, hx, hxid⟩
        rw [← of_decide_eq_true hxid]
        exact ((hleased x).1 hx).2
      · intro hin
        exact ⟨r', (hleased r').2 ⟨hr', hid.symm ▸ hin⟩, decide_eq_true hid⟩
    rw [leases, h, Bool.eq_iff_iff, decide_eq_true_eq]
    exact hiff
  refine ⟨r', hr', hid, ?_⟩
  have hkept := r.settle_kept current
  cases hmove with
  | lease hin hwaiting =>
    refine ⟨hkept.of_isWaiting hwaiting rfl rfl, ?_, fun token' h' ↦ .inr ?_, nofun⟩
    · rw [hcount, if_pos (decide_eq_true hin), ← r.attemptCount_settle current]
      rfl
    · rw [Row.isSendingUnder, Bool.and_eq_true, decide_eq_true_eq] at h'
      exact mem_singleton.2 (Option.some.inj h'.2).symm
  | deadLetter hin hwaiting =>
    refine ⟨hkept.of_isWaiting hwaiting rfl rfl, ?_, fun token' h' ↦ ?_, nofun⟩
    · rw [hcount, if_neg (by simpa using hin), ← r.attemptCount_settle current]
      rfl
    · simp [Row.isSendingUnder, Row.deadLetter] at h'
  | settle hin =>
    refine ⟨hkept, ?_, fun token' h' ↦ .inl (Row.isSendingUnder_settle h'), nofun⟩
    rw [hcount, if_neg (by simpa using hin), r.attemptCount_settle current]
    rfl

theorem finishSending_moves {leaseToken : Str} {o : Outcome} {hit : Bool}
    (h : finishSending db eventId leaseToken o = .ok (hit, db'))
    (hmark : op.mark? = some (eventId, leaseToken)) {N : Row → Prop} :
    db.toTable.Evolves (Moved E db op) N db'.toTable := by
  have hleases : ∀ id, leases E db op id = false := by
    intro id
    cases op with
    | lease => cases hmark
    | enqueue | accepted | retryable | dead => rfl
  simp only [finishSending, bind_eq_ok_iff, requireSome_eq_ok_iff] at h
  obtain ⟨db₁, hupdate, h⟩ := h
  cases h
  refine Guarded.evolves_update? hupdate (fun r _ _ ↦ .refl hleases r) fun r _ hp _ ↦ ?_
  refine ⟨⟨rfl, rfl, fun hterminal ↦ ?_⟩, by simp [hleases, Row.finish], fun token h' ↦ ?_,
    fun mark hm ↦ ?_⟩
  · rw [Row.isSendingUnder, Bool.and_eq_true, Bool.and_eq_true, decide_eq_true_eq,
      decide_eq_true_eq] at hp
    simp [Row.isTerminal, hp.1.2] at hterminal
  · simp [Row.isSendingUnder, Row.finish] at h'
  · cases hmark.symm.trans hm
    exact .inr hp

/-- What a row is when it first appears. -/
def NewRow (op : Op F) (r : Row) : Prop :=
  (∃ payloads createdAt, op = .enqueue payloads createdAt) ∧ ∃ e created, r = .new e created

theorem enqueueBatch_moves (h : enqueueBatch E db payloads createdAt = .ok db') :
    db.toTable.Evolves (Moved E db (.enqueue payloads createdAt))
      (NewRow (.enqueue payloads createdAt)) db'.toTable := by
  obtain ⟨hkept, -, hnew⟩ := enqueued_of_ok h
  refine ⟨fun r hr ↦ ⟨r, hkept r hr, rfl, .refl (fun _ ↦ rfl) r⟩, fun x hx hfresh ↦ ?_⟩
  rcases hnew x hx with hold | ⟨_, _, _, e, created, _, _, _, hrow, _, _⟩
  · exact absurd rfl (hfresh x hold)
  · exact ⟨⟨payloads, createdAt, rfl⟩, e, created, hrow⟩

variable (E) in
/-- **What a call does to the rows.** -/
theorem step_moves (db : Outbox) (op : Op F) :
    db.toTable.Evolves (Moved E db op) (NewRow op) (step E db op).toTable := by
  cases hbody : op.body E db with
  | error =>
    have hsame : step E db op = db := by rw [step, hbody]
    rw [hsame]
    refine .refl (fun r ↦ .refl (fun id ↦ ?_) r) _
    cases op with
    | lease limit leaseFor now token =>
      rw [leases]
      cases hlease : leaseBatch E db limit leaseFor now token with
      | error => rfl
      | ok => rw [Op.body, hlease] at hbody; cases hbody
    | enqueue | accepted | retryable | dead => rfl
  | ok db' =>
    have hstep : step E db op = db' := by rw [step, hbody]
    rw [hstep]
    cases op with
    | enqueue => exact enqueueBatch_moves hbody
    | lease =>
      obtain ⟨⟨leased, _⟩, h, rfl⟩ := map_eq_ok_iff.1 hbody
      exact leaseBatch_moves h
    | accepted =>
      obtain ⟨⟨hit, _⟩, h, rfl⟩ := map_eq_ok_iff.1 hbody
      simp only [markAccepted, bind_eq_ok_iff] at h
      obtain ⟨-, -, decidedAt, -, h⟩ := h
      exact finishSending_moves h rfl
    | retryable =>
      obtain ⟨⟨hit, _⟩, h, rfl⟩ := map_eq_ok_iff.1 hbody
      simp only [markRetryable, bind_eq_ok_iff] at h
      obtain ⟨next, -, h⟩ := h
      exact finishSending_moves h rfl
    | dead =>
      obtain ⟨⟨hit, _⟩, h, rfl⟩ := map_eq_ok_iff.1 hbody
      simp only [markDead, bind_eq_ok_iff] at h
      obtain ⟨-, -, decided, -, h⟩ := h
      exact finishSending_moves h rfl

/-! ## Runs -/

variable (E) in
theorem rows_kept (db : Outbox) (ops : List (Op F)) :
    db.toTable.Keeps (fun _ ↦ True) Kept (after E db ops).toTable := by
  refine rel_runs_of_meets (C := fun _ _ ↦ True)
    (R := fun db db' : Outbox ↦ db.toTable.Keeps (fun _ ↦ True) Kept db'.toTable)
    (fun db ↦ Table.Keeps.refl Kept.refl _)
    (fun _ _ _ h h' ↦ Table.Keeps.trans (fun _ _ _ ↦ Kept.trans) h h') (fun db op _ ↦ ?_)
    (meets_of_forall (fun _ _ ↦ trivial) db ops)
  intro r hr _
  obtain ⟨r', hr', hid, hmoved⟩ := (step_moves E db op).keeps r hr
  exact ⟨r', hr', hid, trivial, hmoved.kept⟩

/-- The event is being sent under the token. -/
def Sending (db : Outbox) (eventId token : Str) : Prop :=
  ∃ r ∈ db.rows, r.isSendingUnder eventId token = true

theorem sending_step (h : Sending (step E db op) eventId token) :
    Sending db eventId token ∨ token ∈ op.tokens := by
  obtain ⟨r', hr', hsending⟩ := h
  have hid : r'.eventId = eventId := by
    rw [Row.isSendingUnder, Bool.and_eq_true, Bool.and_eq_true, decide_eq_true_eq] at hsending
    exact hsending.1.1
  rcases (step_moves E db op).cases hr' with ⟨-, e, created, rfl⟩ | ⟨r, hr, hkey, hmoved⟩
  · simp [Row.isSendingUnder, Row.new] at hsending
  · have hsame : r.eventId = eventId := hkey.trans hid
    rcases hmoved.sending token (hsame ▸ hsending) with hbefore | hdrawn
    · exact .inl ⟨r, hr, hsame ▸ hbefore⟩
    · exact .inr hdrawn

theorem sending_after (ops : List (Op F)) (h : Sending (after E db ops) eventId token) :
    Sending db eventId token ∨ token ∈ ops.flatMap Op.tokens := by
  induction ops generalizing db with
  | nil => exact .inl h
  | cons op ops ih =>
    rw [flatMap_cons, mem_append]
    rcases ih h with hstep | hlater
    · rcases sending_step hstep with hbefore | hdrawn
      · exact .inl hbefore
      · exact .inr (.inl hdrawn)
    · exact .inr (.inr hlater)

/-- A call that marks an event under a token it is not being sent under changes nothing. -/
theorem step_of_not_sending {mark : Str × Str} (hmark : op.mark? = some mark)
    (hnot : ¬ Sending db mark.1 mark.2) : ∀ r, r ∈ (step E db op).rows ↔ r ∈ db.rows := by
  have hsame : ∀ r ∈ db.rows, ∀ r' ∈ (step E db op).rows, r'.eventId = r.eventId → r' = r := by
    intro r hr r' hr' hid
    obtain ⟨x, hx, hxid, hmoved⟩ := (step_moves E db op).keeps r hr
    obtain rfl := Table.eq_of_key_eq hr' hx (hid.trans hxid.symm)
    rcases hmoved.marked mark hmark with hsame | hsending
    · exact hsame
    · exact absurd ⟨r, hr, hsending⟩ hnot
  intro r
  constructor
  · intro hr
    rcases (step_moves E db op).cases hr with ⟨⟨payloads, createdAt, rfl⟩, -⟩ | ⟨x, hx, hkey, -⟩
    · cases hmark
    · rw [hsame x hx r hr hkey.symm]
      exact hx
  · intro hr
    obtain ⟨x, hx, hxid, -⟩ := (step_moves E db op).keeps r hr
    rw [← hsame r hr x hx hxid]
    exact hx

/-! ### Attempts -/

/-- The attempts of an event, none if it is not stored. -/
def attemptsOf (db : Outbox) (eventId : Str) : Nat :=
  ((db.find? eventId).map Row.attemptCount).getD 0

variable (E) in
/-- How often a run leases the event. -/
def timesLeased : Outbox → List (Op F) → Str → Nat
  | _, [], _ => 0
  | db, op :: ops, eventId =>
    (if leases E db op eventId then 1 else 0) + timesLeased (step E db op) ops eventId

theorem attemptsOf_of_mem (hr : r ∈ db.rows) :
    attemptsOf db r.eventId = r.attemptCount := by
  rw [attemptsOf, Table.find?_eq_some_iff.2 ⟨hr, rfl⟩]
  rfl

/-- An event that is leased is stored. -/
theorem mem_of_leases (h : leases E db op eventId = true) : ∃ r ∈ db.rows, r.eventId = eventId := by
  cases op with
  | lease =>
    obtain ⟨⟨leased, db'⟩, hlease, hany⟩ := exists_ok_of_any h
    obtain ⟨current, expiresAt, ids, hleased, hevolves⟩ := leaseBatch_evolves hlease
    obtain ⟨x, hx, hid⟩ := any_eq_true.1 hany
    rcases hevolves.cases ((hleased x).1 hx).1 with hfalse | ⟨r, hr, hkey, -⟩
    · exact hfalse.elim
    · exact ⟨r, hr, hkey.trans (of_decide_eq_true hid)⟩
  | enqueue | accepted | retryable | dead => cases h

/-- **A call counts an attempt exactly if it leases the event.** -/
theorem attemptsOf_step (db : Outbox) (op : Op F) (eventId : Str) :
    attemptsOf (step E db op) eventId =
      attemptsOf db eventId + if leases E db op eventId then 1 else 0 := by
  by_cases hstored : ∃ r ∈ db.rows, r.eventId = eventId
  · obtain ⟨r, hr, rfl⟩ := hstored
    obtain ⟨r', hr', hid, hmoved⟩ := (step_moves E db op).keeps r hr
    rw [attemptsOf_of_mem hr, ← hmoved.attempts, ← attemptsOf_of_mem hr']
    exact congrArg _ hid.symm
  · have hnone : ∀ r ∈ db.rows, r.eventId ≠ eventId := fun r hr hid ↦ hstored ⟨r, hr, hid⟩
    have hleases : ¬ leases E db op eventId = true := fun h ↦ hstored (mem_of_leases h)
    have hbefore : attemptsOf db eventId = 0 := by
      rw [attemptsOf, Table.find?_eq_none_iff.2 hnone]
      rfl
    rw [hbefore, if_neg hleases]
    rw [attemptsOf]
    cases hfind : (step E db op).find? eventId with
    | none => rfl
    | some r' =>
      obtain ⟨hr', rfl⟩ := Table.find?_eq_some_iff.1 hfind
      obtain ⟨-, e, created, rfl⟩ := (step_moves E db op).new r' hr' hnone
      rfl

theorem attemptsOf_after (ops : List (Op F)) (db : Outbox) (eventId : Str) :
    attemptsOf (after E db ops) eventId = attemptsOf db eventId + timesLeased E db ops eventId := by
  induction ops generalizing db with
  | nil => rfl
  | cons op ops ih =>
    change attemptsOf (after E (step E db op) ops) eventId = _
    rw [ih, attemptsOf_step, timesLeased, Nat.add_assoc]

/-! ### The outbox -/

/-- **The usage outbox loses and rewrites nothing**, whatever producers and shippers do and in
whichever order.

Every event of a batch whose enqueue returned is stored under its digest, with the bytes of the
first payload that was enqueued for it; repeating the batch changes nothing, and a batch that raises
leaves the store as it was, as one with a known event under another digest does.  What was enqueued
never changes, and neither does a row that is accepted or dead.  A mark changes a row only under the
token of its current lease, and if no token is drawn twice, one that is no longer that never changes
it again.  The attempts of an event are the leases it was handed out by. -/
theorem usage_outbox_loses_nothing (E : Env F) (ops more : List (Op F)) :
    let db := after E Guarded.empty ops
    (∀ payloads createdAt db', enqueueBatch E db payloads createdAt = .ok db' →
      Enqueued E db payloads db' ∧
      ∀ later createdAt' created, E.utcText createdAt' = some created →
        enqueueBatch E (after E db' later) payloads createdAt' = .ok (after E db' later)) ∧
    (∀ payloads createdAt e, enqueueBatch E db payloads createdAt = .error e →
      step E db (.enqueue payloads createdAt) = db) ∧
    (∀ payloads createdAt event, .dict event ∈ payloads → ∀ r ∈ db.rows,
      r.eventId = field E event "source_event_id" →
      r.evidence.payloadSha256 ≠ field E event "source_payload_sha256" →
      ∃ e, enqueueBatch E db payloads createdAt = .error e) ∧
    (∀ r ∈ db.rows, ∃ r' ∈ (after E db more).rows, Kept r r' ∧
      ∀ x ∈ (after E db more).rows, x.eventId = r.eventId → x = r') ∧
    (∀ (op : Op F) (mark : Str × Str), op.mark? = some mark → ∀ r ∈ db.rows,
      r.isSendingUnder mark.1 mark.2 = false → r ∈ (step E db op).rows) ∧
    (((ops ++ more).flatMap Op.tokens).Nodup → ∀ (op : Op F) (mark : Str × Str),
      op.mark? = some mark → mark.2 ∈ ops.flatMap Op.tokens → ¬ Sending db mark.1 mark.2 →
      ∀ r, r ∈ (step E (after E db more) op).rows ↔ r ∈ (after E db more).rows) ∧
    ∀ r ∈ db.rows, r.attemptCount = timesLeased E Guarded.empty ops r.eventId := by
  intro db
  refine ⟨fun payloads createdAt db' h ↦ ⟨enqueued_of_ok h, ?_⟩, ?_, ?_, fun r hr ↦ ?_, ?_, ?_, ?_⟩
  · intro later createdAt' created hcreated
    refine enqueueBatch_again h (fun r hr ↦ ?_) hcreated
    obtain ⟨r', hr', -, -, hkept⟩ := rows_kept E db' later r hr trivial
    exact ⟨r', hr', hkept.evidence⟩
  · intro payloads createdAt e h
    rw [step, Op.body, h]
  · intro payloads createdAt event hevent r hr hid hdigest
    exact enqueueBatch_conflict hevent hr hid hdigest
  · obtain ⟨r', hr', hid, -, hkept⟩ := rows_kept E db more r hr trivial
    exact ⟨r', hr', hkept, fun x hx hxid ↦ Table.eq_of_key_eq hx hr' (hxid.trans hid.symm)⟩
  · intro op mark hmark r hr hnot
    obtain ⟨r', hr', -, hmoved⟩ := (step_moves E db op).keeps r hr
    rcases hmoved.marked mark hmark with rfl | hsending
    · exact hr'
    · rw [hnot] at hsending
      cases hsending
  · intro htokens op mark hmark hdrawn hnot
    refine step_of_not_sending hmark fun hlater ↦ ?_
    rw [flatMap_append, nodup_append] at htokens
    rcases sending_after more hlater with hbefore | hmore
    · exact hnot hbefore
    · exact htokens.2.2 _ hdrawn _ hmore rfl
  · intro r hr
    rw [← attemptsOf_of_mem hr, attemptsOf_after, attemptsOf, Nat.add_eq_right]
    rfl

/-- An interpreter in which the digest of a text is the text itself, so that no two texts share one.
-/
def plainEnv : Env NumToken where
  interp := ⟨⟨fun _ ↦ false, fun _ ↦ false⟩, fun _ ↦ false, fun _ ↦ [], fun _ ↦ []⟩
  decimal _ := none
  sha256 text := text.map .scalar
  sourceTime text := .aware text
  utcText time := some ((intText time).map .scalar)
  isShippable
    | some (.int 3) => true
    | _ => false
  reprVersion _ := .lit "?"

def sampleEvent : Dict Str (Json NumToken) :=
  [(.lit "source_event_id", .str (.lit "event")), (.lit "environment", .str (.lit "prod")),
    (.lit "source_product", .str (.lit "chat")),
    (.lit "occurred_at", .str (.lit "2026-01-01T00:00:00Z")),
    (.lit "request_id", .str (.lit "request")), (.lit "session_id", .str (.lit "session")),
    (.lit "schema_version", .int 3)]

/-- The event with its digest. -/
def withDigest (event : Dict Str (Json NumToken)) : Json NumToken :=
  .dict (event ++ [(.lit "source_payload_sha256",
    .str ((canonicalUsagePayloadSha256 plainEnv event).getD []))])

/-- The lease of a first shipper runs out, and a second one leases the event. -/
def leasedTwice : List (Op NumToken) :=
  [.enqueue [withDigest sampleEvent] 1, .lease 1 10 2 (.lit "first"),
    .lease 1 10 30 (.lit "second")]

/-- The first shipper can no longer mark the event, whose attempts are two. -/
theorem usage_outbox_loses_nothing_sample :
    (∃ r ∈ (after plainEnv Guarded.empty leasedTwice).rows, r.attemptCount = 2 ∧
      timesLeased plainEnv Guarded.empty leasedTwice r.eventId = 2) ∧
    ∀ r, r ∈ (step plainEnv (after plainEnv (after plainEnv Guarded.empty leasedTwice) [])
        (.dead (.lit "event") (.lit "first") (.lit "late") none none none 31)).rows ↔
      r ∈ (after plainEnv (after plainEnv Guarded.empty leasedTwice) []).rows := by
  obtain ⟨-, -, -, -, -, hstale, hattempts⟩ :=
    usage_outbox_loses_nothing plainEnv leasedTwice []
  have hrow : (after plainEnv Guarded.empty leasedTwice).rows.head?.any
      (fun r ↦ decide (r.attemptCount = 2)) = true := by
    decide +kernel
  have hnot : ∀ r ∈ (after plainEnv Guarded.empty leasedTwice).rows,
      r.isSendingUnder (.lit "event") (.lit "first") = false := by
    decide +kernel
  obtain ⟨r, hr, hcount⟩ := (Option.any_eq_true _ _).1 hrow
  have hmem := mem_of_head? hr
  have hleased := hattempts r hmem
  rw [of_decide_eq_true hcount] at hleased
  refine ⟨⟨r, hmem, of_decide_eq_true hcount, hleased.symm⟩, ?_⟩
  refine hstale (by decide +kernel) _ (.lit "event", .lit "first") rfl (by decide +kernel) ?_
  rintro ⟨x, hx, hsending⟩
  rw [hnot x hx] at hsending
  cases hsending

/-- **A payload is accepted whose bytes are not stored.**  The second payload spells out an empty
`selection_provenance`, which its digest does not see. -/
theorem second_rendering_not_stored :
    let first := withDigest sampleEvent
    let second := withDigest (sampleEvent ++ [(.lit "selection_provenance", .null)])
    ∃ db db', enqueueBatch plainEnv Guarded.empty [first] 1 = .ok db ∧
      enqueueBatch plainEnv db [second] 2 = .ok db' ∧ (payloadJson second).isSome = true ∧
      ∀ r ∈ db'.rows, payloadJson second ≠ some r.evidence.payloadJson := by
  intro first second
  have hrun : (enqueueBatch plainEnv Guarded.empty [first] 1).toOption.any (fun db ↦
      (enqueueBatch plainEnv db [second] 2).toOption.any fun db' ↦ (payloadJson second).isSome &&
        decide (∀ r ∈ db'.rows, payloadJson second ≠ some r.evidence.payloadJson)) = true := by
    decide +kernel
  obtain ⟨db, hdb, hrun⟩ := exists_ok_of_any hrun
  obtain ⟨db', hdb', hrun⟩ := exists_ok_of_any hrun
  rw [Bool.and_eq_true, decide_eq_true_eq] at hrun
  exact ⟨db, db', hdb, hdb', hrun⟩

end AgentGateway.UsageOutbox
