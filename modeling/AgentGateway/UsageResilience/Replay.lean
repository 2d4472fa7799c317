import AgentGateway.UsageResilience.Sink

/-!
# What is spooled reaches the outbox

A batch for which the sink returned `emergency_spool` is in a frame of the file, and a replay writes
the frames to the outbox one by one.  It stops at the first frame that it cannot read, and at the
first batch that the outbox does not accept, and so does every later replay.

* `spooled_usage_reaches_outbox`: which batches a replay brings to the outbox, as long as every
  append writes its frame as a whole or not at all (`Whole`).
* `spooled_usage_is_stuck`: one batch that the outbox refuses holds back those behind it, and an
  append that stops partway holds back those before it.
-/

open Py List

namespace AgentGateway.UsageResilience

open UsageOutbox

variable {F : Type} [PyFloatNames F] {H : Host F} {maxStorageBytes : Nat}

/-! ## Conditions -/

variable (H) in
/-- The append writes all its bytes or none, and the first line fits into the file. -/
def WritesWhole (spool : Spool) (payloads : List (Obj F)) (id : FileId) : Cut → Prop
  | .header n => spool.file = none → (header id).length ≤ n
  | .frame n => n = 0 ∨ ∀ body, bodyOf payloads = some body → (frame H body).length ≤ n
  | _ => True

variable (H) in
/-- No append stops partway. -/
def Whole (s : System F) : Act F → Prop
  | .spool p id cut => ∀ payloads, s.procs p = .spooling payloads →
      (header id).length ≤ H.maxSpoolBytes ∧ WritesWhole H s.spool payloads id cut
  | _ => True

variable (H) in
/-- The event of the payload is in the outbox, under its digest and in one row. -/
def Stored (db : Outbox) (p : Obj F) : Prop :=
  ∃ event, readBack p = .dict event ∧ ∃ r ∈ db.rows,
    r.eventId = field H.outbox event "source_event_id" ∧
    r.evidence.payloadSha256 = field H.outbox event "source_payload_sha256" ∧
    ∀ r' ∈ db.rows, r'.eventId = field H.outbox event "source_event_id" → r' = r

variable (H) in
/-- The payloads of the batches that are pending. -/
def pendingPayloads (spool : Spool) : Except SpoolError (List (List (Json F))) :=
  (pendingFrames H spool).map fun pending ↦ pending.elim [] fun p ↦ p.2.map Prod.snd

/-! ## One replay -/

theorem stored_of_enqueueBatch {db db' : Outbox} {e : Entry H} {now : Int}
    (h : enqueueBatch H.outbox db (e.payloads.map readBack) now = .ok db') :
    ∀ p ∈ e.payloads, Stored H db' p := by
  intro p hp
  obtain ⟨ev, hev, r, hr, hid, hdigest⟩ := (enqueued_of_ok h).stored _ (mem_map_of_mem hp)
  obtain ⟨event, heq, hevid, hevdigest, -⟩ := prepare_eq_ok hev
  rw [hevid] at hid
  refine ⟨event, heq, r, hr, hid, hdigest.trans hevdigest, fun r' hr' hid' ↦ ?_⟩
  exact Table.eq_of_key_eq hr' hr (hid'.trans hid.symm)

omit [PyFloatNames F] in
theorem Stored.of_rows {db db' : Outbox} {p : Obj F} (h : Stored H db p)
    (hrows : ∀ r ∈ db.rows, r ∈ db'.rows) : Stored H db' p := by
  obtain ⟨event, heq, r, hr, hid, hdigest, -⟩ := h
  refine ⟨event, heq, r, hrows r hr, hid, hdigest, fun r' hr' hid' ↦ ?_⟩
  exact Table.eq_of_key_eq hr' (hrows r hr) (hid'.trans hid.symm)

/-- What a replay has done when it stops: it has stored the batches up to the cursor. -/
structure Replayed (fileId : List UInt8) (offset : Nat) (es : List (Entry H)) (db : Outbox)
    (cursor : Option (List UInt8 × Nat)) (db' : Outbox) (cursor' : Option (List UInt8 × Nat))
    (count : Nat) : Prop where
  count_le : count ≤ es.length
  kept : ∀ r ∈ db.rows, r ∈ db'.rows
  stored : ∀ e ∈ es.take count, ∀ p ∈ e.payloads, Stored H db' p
  cursor : cursor' = cursor ∧ count = 0 ∨
    cursor' = some (fileId, offset + (entryBytes (es.take count)).length)

theorem replayFrames_spec (now : Int) (fileId : List UInt8) (es : List (Entry H)) (offset : Nat)
    (writes : Option Nat) (db : Outbox) (cursor : Option (List UInt8 × Nat)) :
    ∃ count, Replayed fileId offset es db cursor
        (replayFrames H now fileId (parsedEntries offset es) writes db cursor).1
        (replayFrames H now fileId (parsedEntries offset es) writes db cursor).2.1 count ∧
      ((replayFrames H now fileId (parsedEntries offset es) writes db cursor).2.2 = .ok () →
        count = es.length) := by
  induction es generalizing offset writes db cursor with
  | nil => exact ⟨0, ⟨le_rfl, fun r hr ↦ hr, by simp, .inl ⟨rfl, rfl⟩⟩, fun _ ↦ rfl⟩
  | cons e es ih =>
    rw [parsedEntries, replayFrames]
    split
    · exact ⟨0, ⟨Nat.zero_le _, fun r hr ↦ hr, by simp, .inl ⟨rfl, rfl⟩⟩, nofun⟩
    · split
      · exact ⟨0, ⟨Nat.zero_le _, fun r hr ↦ hr, by simp, .inl ⟨rfl, rfl⟩⟩, nofun⟩
      next db₁ henqueue =>
        have hkept := (enqueued_of_ok henqueue).kept
        split
        · exact ⟨0, ⟨Nat.zero_le _, hkept, by simp, .inl ⟨rfl, rfl⟩⟩, nofun⟩
        · obtain ⟨count, ⟨hle, hrows, hstored, hcursor⟩, hok⟩ :=
            ih (offset + (frame H e.body).length) (spend (spend writes)) db₁
              (some (fileId, offset + (frame H e.body).length))
          refine ⟨count + 1, ⟨Nat.succ_le_succ hle, fun r hr ↦ hrows r (hkept r hr), ?_, .inr ?_⟩,
            fun h ↦ by rw [hok h, length_cons]⟩
          · intro x hx p hp
            rcases mem_cons.1 hx with rfl | hx
            · exact (stored_of_enqueueBatch henqueue p hp).of_rows hrows
            · exact hstored x hx p hp
          · rw [take_succ_cons, entryBytes_cons, length_append, ← Nat.add_assoc]
            rcases hcursor with ⟨hcursor, rfl⟩ | hcursor
            · rw [hcursor]
              simp [entryBytes]
            · exact hcursor

/-- While storage works a replay succeeds exactly if the batches are acceptable together. -/
theorem replayFrames_eq_ok_iff {now : Int} (hnow : (H.outbox.utcText now).isSome)
    (fileId : List UInt8) (frames : List (Nat × List (Json F))) (hne : ∀ f ∈ frames, f.2 ≠ [])
    (db : Outbox) (cursor : Option (List UInt8 × Nat)) :
    (replayFrames H now fileId frames none db cursor).2.2 = .ok () ↔
      Acceptable H.outbox db (frames.map Prod.snd).flatten := by
  induction frames generalizing db cursor with
  | nil => exact iff_of_true rfl (acceptable_nil _)
  | cons f frames ih =>
    obtain ⟨frameEnd, payloads⟩ := f
    have hiff := enqueueBatch_eq_ok_iff db (hne _ mem_cons_self) hnow
    rw [replayFrames, if_neg (by simp), map_cons, flatten_cons]
    cases henqueue : enqueueBatch H.outbox db payloads now with
    | error =>
      refine iff_of_false nofun fun hall ↦ ?_
      obtain ⟨db', hdb'⟩ := hiff.2 hall.left
      rw [henqueue] at hdb'
      cases hdb'
    | ok db₁ =>
      rw [(enqueued_of_ok henqueue).acceptable_append]
      exact ih (fun f hf ↦ hne f (mem_cons_of_mem _ hf)) db₁ (some (fileId, frameEnd))

theorem payloads_ne_nil (offset : Nat) (es : List (Entry H)) :
    ∀ f ∈ parsedEntries offset es, f.2 ≠ [] := by
  induction es generalizing offset with
  | nil => nofun
  | cons e es ih =>
    rw [parsedEntries]
    intro f hf
    rcases mem_cons.1 hf with rfl | hf
    · simpa using e.nonempty
    · exact ih _ f hf

theorem parsedEntries_take (offset : Nat) (es : List (Entry H)) (n : Nat) :
    (parsedEntries offset es).take n = parsedEntries offset (es.take n) := by
  induction es generalizing offset n with
  | nil => simp [parsedEntries]
  | cons e es ih =>
    cases n with
    | zero => rfl
    | succ => rw [parsedEntries, take_succ_cons, ih, take_succ_cons, parsedEntries]

/-! ## The invariant -/

/-- The file is there and whole, every acknowledged batch is in it, and those that the cursor has
passed are in the outbox. -/
structure Custody (spool : Spool) (db : Outbox) (acknowledged : List (List (Obj F))) (id : FileId)
    (entries : List (Entry H)) (count : Nat) : Prop where
  intact : Intact spool id entries count
  count_le : count ≤ entries.length
  held : ∀ batch ∈ acknowledged, ∃ e ∈ entries, e.payloads = batch
  stored : ∀ e ∈ entries.take count, ∀ p ∈ e.payloads, Stored H db p

variable (H) in
/-- Nothing was acknowledged that is not kept. -/
def Kept (spool : Spool) (db : Outbox) (acknowledged : List (List (Obj F))) : Prop :=
  spool.file = none ∧ spool.cursor = none ∧ acknowledged = [] ∨
    ∃ id, ∃ entries : List (Entry H), ∃ count, Custody spool db acknowledged id entries count

variable {spool : Spool} {db db' : Outbox} {acknowledged : List (List (Obj F))} {id : FileId}
  {entries : List (Entry H)} {count : Nat}

theorem Kept.of_rows (h : Kept H spool db acknowledged) (hrows : ∀ r ∈ db.rows, r ∈ db'.rows) :
    Kept H spool db' acknowledged := by
  rcases h with h | ⟨id, entries, count, h⟩
  · exact .inl h
  · exact .inr ⟨id, entries, count, h.intact, h.count_le, h.held,
      fun e he p hp ↦ (h.stored e he p hp).of_rows hrows⟩

/-- A replay moves the cursor, and stores what it passes. -/
theorem Custody.replayed (h : Custody spool db acknowledged id entries count) {n : Nat}
    {cursor : Option (List UInt8 × Nat)} {k : Nat}
    (hreplayed : Replayed id.text (header id ++ entryBytes (entries.take count)).length
      ((entries.drop count).take n) db spool.cursor db' cursor k) :
    Custody { spool with cursor } db' acknowledged id entries (count + k) := by
  have hk : k ≤ n ∧ k ≤ entries.length - count := by
    have := hreplayed.count_le
    rw [length_take, length_drop] at this
    omega
  have htake : ((entries.drop count).take n).take k = (entries.drop count).take k := by
    rw [take_take, Nat.min_eq_left hk.1]
  have hsplit : entries.take (count + k) = entries.take count ++ (entries.drop count).take k :=
    take_add
  refine ⟨⟨h.intact.file, h.intact.size, ?_⟩, by have := h.count_le; omega, h.held, ?_⟩
  · rcases hreplayed.cursor with ⟨hcursor, rfl⟩ | hcursor
    · rw [hcursor, Nat.add_zero]
      exact h.intact.cursor
    · refine .inr (hcursor.trans ?_)
      rw [htake, hsplit, entryBytes_append]
      simp only [length_append, Nat.add_assoc]
  · intro e he p hp
    rw [hsplit] at he
    rcases mem_append.1 he with he | he
    · exact (h.stored e he p hp).of_rows hreplayed.kept
    · exact hreplayed.stored e (htake ▸ he) p hp

theorem Kept.replayInto (h : Kept H spool db acknowledged) (limit writes : Option Nat) (now : Int) :
    Kept H (replayInto H spool db limit writes now).2.1 (replayInto H spool db limit writes now).1
      acknowledged := by
  rcases h with ⟨hfile, hcursor, hack⟩ | ⟨id, entries, count, h⟩
  · have hpending : pendingFrames H spool = .ok none := by
      rw [pendingFrames, hfile]
    rw [UsageResilience.replayInto, hpending]
    exact .inl ⟨hfile, hcursor, hack⟩
  · rw [UsageResilience.replayInto, h.intact.pendingFrames]
    obtain ⟨n, hn⟩ :
      ∃ n, limit.elim (parsedEntries (header id ++ entryBytes (entries.take count)).length
        (entries.drop count)) (List.take · (parsedEntries
          (header id ++ entryBytes (entries.take count)).length (entries.drop count))) =
        parsedEntries (header id ++ entryBytes (entries.take count)).length
          ((entries.drop count).take n) := by
      cases limit with
      | none => exact ⟨(entries.drop count).length, by rw [take_length, Option.elim]⟩
      | some n => exact ⟨n, parsedEntries_take _ _ n⟩
    obtain ⟨k, hreplayed, -⟩ := replayFrames_spec now id.text ((entries.drop count).take n) _
      writes db
      spool.cursor
    refine .inr ⟨id, entries, count + k, h.replayed (n := n) ?_⟩
    simp only [hn]
    exact hreplayed

/-! ## Appends -/

/-- A frame is added behind the others. -/
theorem Custody.append (h : Custody spool db acknowledged id entries count) (e : Entry H)
    {data : List UInt8} (hdata : spool.file = some data)
    (hsize : data.length + (frame H e.body).length ≤ H.maxSpoolBytes) :
    Custody { spool with file := some (data ++ frame H e.body) } db (e.payloads :: acknowledged) id
      (entries ++ [e]) count := by
  obtain rfl : header id ++ entryBytes entries = data :=
    Option.some.inj (h.intact.file.symm.trans hdata)
  have hbytes : header id ++ entryBytes (entries ++ [e]) =
      header id ++ entryBytes entries ++ frame H e.body := by
    simp [entryBytes]
  have htake : (entries ++ [e]).take count = entries.take count :=
    take_append_of_le_length h.count_le
  refine ⟨⟨by rw [hbytes], ?_, htake.symm ▸ h.intact.cursor⟩, ?_, ?_, htake.symm ▸ h.stored⟩
  · rw [hbytes, length_append]
    exact hsize
  · have := h.count_le
    rw [length_append]
    omega
  · intro batch hbatch
    rcases mem_cons.1 hbatch with rfl | hbatch
    · exact ⟨e, by simp, rfl⟩
    · obtain ⟨x, hx, hpayloads⟩ := h.held batch hbatch
      exact ⟨x, mem_append_left _ hx, hpayloads⟩

theorem custody_header (db : Outbox) (hcursor : spool.cursor = none)
    (hsize : (header id).length ≤ H.maxSpoolBytes) :
    Custody (H := H) { spool with file := some (header id) } db [] id [] 0 :=
  ⟨⟨by simp [entryBytes], by simpa [entryBytes] using hsize, .inl ⟨hcursor, rfl⟩⟩, le_rfl, nofun,
    nofun⟩

/-- The file is read, or made with its first line. -/
theorem Kept.readOrInitialize (h : Kept H spool db acknowledged) {payloads : List (Obj F)}
    {cut : Cut}
    (hsize : (header id).length ≤ H.maxSpoolBytes) (hwhole : WritesWhole H spool payloads id cut) :
    (∀ data, readOrInitialize spool id cut = .ok data → ∃ id, ∃ entries : List (Entry H), ∃ count,
        Custody { spool with file := some data } db acknowledged id entries count) ∧
      ∀ left, readOrInitialize spool id cut = .error left → Kept H left db acknowledged := by
  rcases h with ⟨hfile, hcursor, rfl⟩ | ⟨id', entries, count, h⟩
  · have hmade := custody_header db hcursor hsize
    rw [readOrInitialize.eq_def, hfile]
    cases cut with
    | opening =>
      refine ⟨nofun, ?_⟩
      rintro _ ⟨⟩
      exact .inl ⟨hfile, hcursor, rfl⟩
    | header =>
      refine ⟨nofun, ?_⟩
      rintro _ ⟨⟩
      rw [take_of_length_le (hwhole hfile)]
      exact .inr ⟨id, [], 0, hmade⟩
    | done | frame =>
      refine ⟨?_, nofun⟩
      rintro _ ⟨⟩
      exact ⟨id, [], 0, hmade⟩
  · rw [readOrInitialize.eq_def, h.intact.file]
    refine ⟨?_, nofun⟩
    rintro _ ⟨⟩
    exact ⟨id', entries, count, ⟨rfl, h.intact.size, h.intact.cursor⟩, h.count_le, h.held, h.stored⟩

/-- An append writes its frame or leaves the frames alone. -/
theorem Kept.appendBatch (h : Kept H spool db acknowledged) {payloads : List (Obj F)} {cut : Cut}
    (hsize : (header id).length ≤ H.maxSpoolBytes) (hwhole : WritesWhole H spool payloads id cut) :
    Kept H (appendBatch H spool payloads id cut).1 db acknowledged ∧
      ((appendBatch H spool payloads id cut).2 = .ok () →
        Kept H (appendBatch H spool payloads id cut).1 db (payloads :: acknowledged)) := by
  rw [UsageResilience.appendBatch]
  split
  · exact ⟨h, nofun⟩
  next hne =>
    split
    · exact ⟨h, nofun⟩
    next body hbody =>
      split
      · exact ⟨h, nofun⟩
      next hbatch =>
        obtain ⟨hread, hleft⟩ := h.readOrInitialize hsize hwhole
        split
        next left h => exact ⟨hleft left h, nofun⟩
        next data hdata =>
          obtain ⟨id', entries, count, hcustody⟩ := hread data hdata
          have hsame : Kept H { spool with file := some data } db acknowledged :=
            .inr ⟨id', entries, count, hcustody⟩
          dsimp only
          split
          · exact ⟨hsame, nofun⟩
          · split
            · exact ⟨hsame, nofun⟩
            next hfits =>
              have hadded := hcustody.append ⟨payloads, body, hne, hbody, not_lt.1 hbatch⟩ rfl
                (not_lt.1 hfits)
              have hadded' : Kept H { spool with file := some (data ++ frame H body) } db
                  (payloads :: acknowledged) := .inr ⟨id', _, count, hadded⟩
              have hkept : Kept H { spool with file := some (data ++ frame H body) } db
                acknowledged :=
                .inr ⟨id', _, count, hadded.intact, hadded.count_le,
                  fun b hb ↦ hadded.held b (mem_cons_of_mem _ hb), hadded.stored⟩
              split
              · exact ⟨hsame, nofun⟩
              next n =>
                refine ⟨?_, nofun⟩
                rcases hwhole with rfl | hwhole
                · simpa using hsame
                · rw [take_of_length_le (hwhole body hbody)]
                  exact hkept
              · exact ⟨hkept, fun _ ↦ hadded'⟩

/-! ## Runs -/

theorem Kept.step {s : System F} (h : Kept H s.spool s.outbox s.acknowledged) {a : Act F}
    (hwhole : Whole H s a) :
    Kept H (s.step H maxStorageBytes a).spool (s.step H maxStorageBytes a).outbox
      (s.step H maxStorageBytes a).acknowledged := by
  cases a with
  | call =>
    rw [System.step, System.call.eq_def]
    split
    · split
      next henqueue => exact h.of_rows (enqueued_of_ok henqueue).kept
      next henqueue => exact h.of_rows (enqueued_of_ok henqueue).kept
      · exact h
    · exact h
  | spool =>
    rw [System.step, System.spoolBatch]
    split
    next payloads hphase _ =>
      obtain ⟨hsize, hwrites⟩ := hwhole payloads hphase
      obtain ⟨hkept, hadded⟩ := h.appendBatch hsize hwrites
      split
      next hcall =>
        rw [hcall] at hadded
        exact hadded rfl
      next hcall =>
        rw [hcall] at hkept
        exact hkept
    · exact h
  | replay limit writes now =>
    rw [System.step, System.replay]
    split
    · exact h.replayInto limit writes now
    · exact h
  | tripPrimary =>
    rw [System.step, System.tripPrimary]
    split <;> exact h
  | tripLost =>
    rw [System.step, System.tripLost]
    split <;> exact h
  | beginReset =>
    rw [System.step, System.beginReset]
    split
    · split <;> exact h
    · exact h
  | lockSpool =>
    rw [System.step, System.lockSpool]
    split
    · split <;> exact h
    · exact h
  | finishReset =>
    rw [System.step, System.finishReset]
    split <;> exact h
  | trip => exact h
  | crash => exact h

/-- **A replay succeeds exactly if what is pending is acceptable to the outbox as it is**: every
payload can be prepared, and the payloads of one event have one digest, that of its row if there is
one.  Then nothing is pending, and everything that was acknowledged is in the outbox.  This holds
after every run in which no append stops partway. -/
theorem spooled_usage_reaches_outbox (maxStorageBytes : Nat) (acts : List (Act F))
    (hwhole : Meets (System.step H maxStorageBytes) (Whole H) .start acts) (now : Int)
    (hnow : (H.outbox.utcText now).isSome) :
    let s := runs (System.step H maxStorageBytes) .start acts
    let r := replayInto H s.spool s.outbox none none now
    ∃ batches, pendingPayloads H s.spool = .ok batches ∧
      (r.2.2 = .ok () ↔ Acceptable H.outbox s.outbox batches.flatten) ∧
      (r.2.2 = .ok () → pendingBatches H r.2.1 = .ok 0 ∧
        ∀ batch ∈ s.acknowledged, ∀ p ∈ batch, Stored H r.1 p) := by
  intro s r
  have hkept : Kept H s.spool s.outbox s.acknowledged :=
    runs_of_meets (P := fun s ↦ Kept H s.spool s.outbox s.acknowledged) (fun _ _ hw h ↦ h.step hw)
      hwhole (.inl ⟨rfl, rfl, rfl⟩)
  rcases hkept with ⟨hfile, -, hack⟩ | ⟨id, entries, count, h⟩
  · have hpending : pendingFrames H s.spool = .ok none := by
      rw [pendingFrames, hfile]
    have hr : r = (s.outbox, s.spool, .ok ()) := by
      simp only [r, replayInto, hpending]
    rw [hr, pendingPayloads, pendingBatches, hpending, hack]
    exact ⟨[], rfl, iff_of_true rfl (acceptable_nil _), fun _ ↦ ⟨rfl, by simp⟩⟩
  · have hpending := h.intact.pendingFrames
    obtain ⟨k, hreplayed, hall⟩ := replayFrames_spec now id.text (entries.drop count)
      (header id ++ entryBytes (entries.take count)).length none s.outbox s.spool.cursor
    have hiff := replayFrames_eq_ok_iff hnow id.text (parsedEntries
      (header id ++ entryBytes (entries.take count)).length (entries.drop count))
      (payloads_ne_nil _ _) s.outbox s.spool.cursor
    simp only [r, replayInto, hpending, pendingPayloads, Option.elim]
    refine ⟨_, rfl, hiff, fun hok ↦ ?_⟩
    have hend := h.replayed (n := (entries.drop count).length) (by rwa [take_length])
    have hcount : count + k = entries.length := by
      have := h.count_le
      rw [hall hok, length_drop]
      omega
    rw [hcount] at hend
    refine ⟨?_, fun batch hbatch p hp ↦ ?_⟩
    · rw [pendingBatches, bind_eq_ok_iff]
      refine ⟨_, hend.intact.pendingFrames, ?_⟩
      rw [drop_length]
      rfl
    · obtain ⟨e, he, rfl⟩ := hend.held batch hbatch
      exact hend.stored e (by rwa [take_length]) p hp

section Sample

/-- A host in which all digests are the same and a number is written as so many strokes. -/
def sampleHost : Host TokenFloat where
  outbox :=
    { interp := ⟨⟨fun _ ↦ false, fun _ ↦ false⟩, fun _ ↦ false, fun _ ↦ [], fun _ ↦ []⟩
      decimal := fun _ ↦ none
      sha256 := fun _ ↦ []
      sourceTime := .aware
      utcText := fun _ ↦ some []
      isShippable := fun _ ↦ true
      reprVersion := fun _ ↦ [] }
  sha256 _ := []
  sha256_plain := nofun
  intOf text := some text.length
  digits n := List.replicate n 124
  digits_plain n b hb := by
    rw [eq_of_mem_replicate hb]
    decide
  intOf_digits n := by rw [length_replicate]
  maxBatchBytes := 1024
  maxSpoolBytes := 4096
  maxBatchBytes_lt := by decide

def sampleId : FileId := ⟨[97], by decide, by simp⟩

def sampleStamp : Stamp := ⟨.lit "T", .lit "U"⟩

def samplePayload : Obj TokenFloat where
  event :=
    [(.lit "source_event_id", .str (.lit "event")), (.lit "environment", .str (.lit "prod")),
      (.lit "source_product", .str (.lit "chat")),
      (.lit "occurred_at", .str (.lit "2026-01-01T00:00:00Z")),
      (.lit "request_id", .str (.lit "request")), (.lit "session_id", .str (.lit "session")),
      (.lit "source_payload_sha256", .str (.lit "sha256:"))]
  unique := by simp [Str.lit, CodePoint.scalar.injEq]

def emptyPayload : Obj TokenFloat := ⟨[], by simp⟩

/-- A call that finds the outbox failing. -/
def sampleCall (payload : Obj TokenFloat) (cut : Cut) : List (Act TokenFloat) :=
  [.call 0 [payload] .fails 0, .tripPrimary 0 [] sampleStamp, .spool 0 sampleId cut]

abbrev afterCalls (acts : List (Act TokenFloat)) : System TokenFloat :=
  runs (System.step sampleHost 0) .start acts

/-- A replay while storage works. -/
abbrev System.replayed (s : System TokenFloat) : Outbox × Spool × Except SpoolError Unit :=
  replayInto sampleHost s.spool s.outbox none none 0

theorem spooled_usage_reaches_outbox_sample :
    let s := runs (System.step sampleHost 0) .start (sampleCall samplePayload .done)
    let r := replayInto sampleHost s.spool s.outbox none none 0
    s.acknowledged.length = 1 ∧ pendingBatches sampleHost r.2.1 = .ok 0 ∧
      ∀ batch ∈ s.acknowledged, ∀ p ∈ batch, Stored sampleHost r.1 p := by
  obtain ⟨batches, -, -, hreplay⟩ := spooled_usage_reaches_outbox (H := sampleHost) 0
    (sampleCall samplePayload .done)
    ⟨trivial, trivial, fun _ _ ↦ ⟨by decide +kernel, trivial⟩, trivial⟩ 0 rfl
  exact ⟨by decide +kernel, hreplay (by decide +kernel)⟩

/-- **Usage that was acknowledged can be stuck in the spool.**  An empty payload is spooled, and no
replay gets past it, since the outbox refuses it.  And an append that stops after some bytes of its
frame makes the file unreadable, with the batches before it. -/
theorem spooled_usage_is_stuck :
    let refused := afterCalls (sampleCall emptyPayload .done ++ sampleCall samplePayload .done)
    let torn := afterCalls (sampleCall samplePayload .done ++ sampleCall samplePayload (.frame 7))
    (refused.acknowledged.length = 2 ∧
      refused.replayed.2.2 =
        .error (.outbox (.value "commercial outbox payload identity or digest is invalid")) ∧
      pendingBatches sampleHost refused.replayed.2.1 = .ok 2) ∧
    torn.acknowledged.length = 1 ∧
      torn.replayed.2.2 = .error (.spool "emergency spool frame header is incomplete") ∧
      torn.replayed.1.rows = [] := by
  decide +kernel

end Sample

end AgentGateway.UsageResilience
