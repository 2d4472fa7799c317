import AgentGateway.Py.JsonPlain
import AgentGateway.UsageOutbox.Runs

/-!
# The emergency spool of usage batches

When the outbox of usage events cannot be written, a batch goes to a file.  The file has a line that
identifies it, and then one frame for each batch: a line with the length and the digest of the body,
the body, which is the batch as JSON, and a newline.  A second file, the cursor, says up to where
the frames have been replayed into the outbox.

Every call takes a lock, so that each of them is one step.  But a write may stop partway, by a
failure or because the process dies: `Cut` says where an append stops, and a replay is given the
number of writes that still succeed.  The cursor is replaced as a whole.

SHA-256 and `int` are left open (`Host`), but for what is needed of them.  A body is only parsed if
its digest fits, and what is encoded as UTF-8 is also decoded as UTF-8.
-/

open Py List

namespace AgentGateway.UsageResilience

open UsageOutbox

/-- What the module takes from the interpreter, and its limits. -/
structure Host (F : Type) where
  outbox : Env F
  /-- `hashlib.sha256(body).hexdigest()`, in ASCII -/
  sha256 : List UInt8 → List UInt8
  sha256_plain : ∀ body, ∀ b ∈ sha256 body, b ≠ 10 ∧ b ≠ 32 ∧ b < 128
  /-- `int(text)` -/
  intOf : List UInt8 → Option Int
  /-- `str(n)`, in ASCII -/
  digits : Nat → List UInt8
  digits_plain : ∀ n, ∀ b ∈ digits n, b ≠ 10 ∧ b ≠ 32 ∧ b < 128
  intOf_digits : ∀ n, intOf (digits n) = some (n : Int)
  maxBatchBytes : Nat
  maxSpoolBytes : Nat
  maxBatchBytes_lt : maxBatchBytes < maxSpoolBytes

/-- A usage payload: a dictionary with string keys. -/
structure Obj (F : Type) where
  event : Dict Str (Json F)
  unique : (Json.dict event).UniqueKeys

/-- The name of a spool file, `str(uuid4())`. -/
structure FileId where
  text : List UInt8
  nonempty : text ≠ []
  plain : ∀ b ∈ text, b ≠ 10 ∧ b < 128

inductive SpoolError where
  /-- `ValueError` -/
  | value (message : String)
  /-- `CommercialUsageSpoolError` -/
  | spool (message : String)
  /-- what `enqueue_batch` raises -/
  | outbox (error : OutboxError)
  /-- `OSError`, `sqlite3.OperationalError` -/
  | storage
deriving DecidableEq

/-! ## Frames -/

/-- A literal of ASCII characters. -/
def ascii (text : String) : List UInt8 := encodeUtf8 text.toList

def spoolMagic : List UInt8 := ascii "HANK-COMMERCIAL-USAGE-SPOOL-V1"

def frameMagic : List UInt8 := ascii "BATCH"

/-- The first line of the file. -/
def header (id : FileId) : List UInt8 := spoolMagic ++ 32 :: (id.text ++ [10])

section Frames

variable {F : Type} [PyFloatNames F] (H : Host F)

/-- `separators=(",", ":"), ensure_ascii=False` -/
def compactStyle : Json.Style F := ⟨escapeStr, floatText, fun _ ↦ [], fun _ ↦ [], fun _ ↦ [], []⟩

/-- `{"payloads": payloads}`, with its keys sorted -/
def document (payloads : List (Obj F)) : Json F :=
  (Json.dict [(.lit "payloads", .list (payloads.map fun p ↦ .dict p.event))]).sortKeys

/-- The body of the frame of a batch, if it can be rendered. -/
def bodyOf (payloads : List (Obj F)) : Option (List UInt8) :=
  let doc := document payloads
  if doc.admits strEncodable fun _ ↦ true then some (encodeUtf8 (doc.render compactStyle 0))
    else none

def frame (body : List UInt8) : List UInt8 :=
  frameMagic ++ 32 :: (H.digits body.length ++ 32 :: (H.sha256 body ++ 10 :: (body ++ [10])))

/-- `text.split(" ")`, if that is three parts -/
def threeFields (line : List UInt8) : Option (List UInt8 × List UInt8 × List UInt8) :=
  let first := line.takeWhile (· ≠ 32)
  let rest := line.drop (first.length + 1)
  let second := rest.takeWhile (· ≠ 32)
  let third := rest.drop (second.length + 1)
  if first.length < line.length ∧ second.length < rest.length ∧ 32 ∉ third then
    some (first, second, third)
  else none

/-- `isinstance(item, dict)` -/
def isDict : Json F → Bool
  | .dict _ => true
  | _ => false

/-- The payloads of a body. -/
def decodeBody (body : List UInt8) : Except SpoolError (List (Json F)) := do
  let text ← requireSome (decodeUtf8 body) (.spool "emergency spool frame JSON is invalid")
  match loads plainHooks text with
  | .ok (.dict kvs) =>
    match kvs.lookup (.lit "payloads") with
    | some (.list payloads) =>
      require (payloads ≠ [] ∧ payloads.all isDict = true)
        (.spool "emergency spool frame payload batch is invalid")
      .ok payloads
    | _ => .error (.spool "emergency spool frame payload batch is invalid")
  | .ok _ => .error (.spool "emergency spool frame payload batch is invalid")
  | .error _ => .error (.spool "emergency spool frame JSON is invalid")

/-- `_parse_frames`, from an offset on: the payloads of each frame, and where it ends -/
def parseFrames : Nat → Nat → List UInt8 → Except SpoolError (List (Nat × List (Json F)))
  | 0, _, _ => .ok []
  | fuel + 1, offset, data =>
    if data = [] then .ok []
    else do
      let line := data.takeWhile (· ≠ 10)
      require (line.length < data.length) (.spool "emergency spool frame header is incomplete")
      require (∀ b ∈ line, b < 128) (.spool "emergency spool frame header is invalid")
      let (magic, rawLength, checksum) ←
        requireSome (threeFields line) (.spool "emergency spool frame header is invalid")
      let length ← requireSome (H.intOf rawLength)
        (.spool "emergency spool frame header is invalid")
      require (length ≤ H.maxBatchBytes)
        (.spool "emergency spool frame length exceeds configured limit")
      let rest := data.drop (line.length + 1)
      let size := length.toNat
      require (magic = frameMagic ∧ 2 ≤ length ∧ rest[size]? = some 10)
        (.spool "emergency spool frame is incomplete")
      let body := rest.take size
      require (H.sha256 body = checksum) (.spool "emergency spool frame checksum mismatch")
      let payloads ← decodeBody body
      let frameEnd := offset + (line.length + 1) + (size + 1)
      let frames ← parseFrames fuel frameEnd (rest.drop (size + 1))
      .ok ((frameEnd, payloads) :: frames)

/-! ## The files -/

/-- The spool file and its cursor, the identifier of a file and an offset in it. -/
structure Spool where
  file : Option (List UInt8) := none
  cursor : Option (List UInt8 × Nat) := none
deriving DecidableEq

/-- The identifier of a file, and where its first line ends. -/
def readHeader (data : List UInt8) : Except SpoolError (List UInt8 × Nat) := do
  require (data.length ≤ H.maxSpoolBytes) (.spool "emergency usage spool exceeds configured limit")
  let line := data.takeWhile (· ≠ 10)
  require (line.length < data.length) (.spool "emergency spool header is incomplete")
  let magic := line.takeWhile (· ≠ 32)
  require ((∀ b ∈ line, b < 128) ∧ magic.length < line.length)
    (.spool "emergency spool header is invalid")
  let fileId := line.drop (magic.length + 1)
  require (magic = spoolMagic ∧ fileId ≠ []) (.spool "emergency spool identity is invalid")
  .ok (fileId, line.length + 1)

def readCursor (spool : Spool) (fileId : List UInt8) (headerEnd size : Nat) :
    Except SpoolError Nat :=
  match spool.cursor with
  | none => .ok headerEnd
  | some (id, offset) => do
    require (id = fileId) (.spool "emergency spool cursor identity is invalid")
    require (headerEnd ≤ offset ∧ offset ≤ size) (.spool "emergency spool cursor offset is invalid")
    .ok offset

/-- The frames after the cursor, with the identifier of the file; nothing, if there is no file. -/
def pendingFrames (spool : Spool) :
    Except SpoolError (Option (List UInt8 × List (Nat × List (Json F)))) :=
  match spool.file with
  | none => .ok none
  | some data => do
    let (fileId, headerEnd) ← readHeader H data
    let cursor ← readCursor spool fileId headerEnd data.length
    let frames ← parseFrames H data.length cursor (data.drop cursor)
    .ok (some (fileId, frames))

def pendingBatches (spool : Spool) : Except SpoolError Nat := do
  let pending ← pendingFrames H spool
  .ok (pending.elim 0 fun p ↦ p.2.length)

/-- Where an append stops: before it opens the file it writes to, or after some bytes of the first
line or of the frame. -/
inductive Cut where
  | done
  | opening
  | header (bytes : Nat)
  | frame (bytes : Nat)
deriving DecidableEq

/-- `_read_or_initialize`, up to the reading: the file, which is made if there is none -/
def readOrInitialize (spool : Spool) (id : FileId) (cut : Cut) : Except Spool (List UInt8) :=
  match spool.file with
  | some data => .ok data
  | none =>
    match cut with
    | .opening => .error spool
    | .header n => .error { spool with file := some ((header id).take n) }
    | _ => .ok (header id)

/-- `append_batch`: the files it leaves, and what it raises -/
def appendBatch (spool : Spool) (payloads : List (Obj F)) (id : FileId) (cut : Cut) :
    Spool × Except SpoolError Unit :=
  if payloads = [] then (spool, .error (.value "emergency commercial usage batch cannot be empty"))
  else
    match bodyOf payloads with
    | none => (spool, .error (.spool "emergency usage batch is not JSON serializable"))
    | some body =>
      if H.maxBatchBytes < body.length then
        (spool, .error (.spool "emergency usage batch exceeds spool frame limit"))
      else
        match readOrInitialize spool id cut with
        | .error left => (left, .error .storage)
        | .ok data =>
          let spool := { spool with file := some data }
          let parsed := do
            let (_, headerEnd) ← readHeader H data
            parseFrames H data.length headerEnd (data.drop headerEnd)
          match parsed with
          | .error e => (spool, .error e)
          | .ok _ =>
            if H.maxSpoolBytes < data.length + (frame H body).length then
              (spool, .error (.spool "emergency usage spool high-water reached"))
            else
              match cut with
              | .opening => (spool, .error .storage)
              | .frame n => ({ spool with file := some (data ++ (frame H body).take n) },
                .error .storage)
              | _ => ({ spool with file := some (data ++ frame H body) }, .ok ())

/-! ## Replay -/

/-- One write less that succeeds. -/
def spend (writes : Option Nat) : Option Nat := writes.map (· - 1)

/-- The loop of `replay_into`: the outbox and the cursor it leaves, and what it raises -/
def replayFrames (now : Int) (fileId : List UInt8) :
    List (Nat × List (Json F)) → Option Nat → Outbox → Option (List UInt8 × Nat) →
      Outbox × Option (List UInt8 × Nat) × Except SpoolError Unit
  | [], _, db, cursor => (db, cursor, .ok ())
  | (frameEnd, payloads) :: frames, writes, db, cursor =>
    if writes = some 0 then (db, cursor, .error .storage)
    else
      match enqueueBatch H.outbox db payloads now with
      | .error e => (db, cursor, .error (.outbox e))
      | .ok db =>
        if spend writes = some 0 then (db, cursor, .error .storage)
        else replayFrames now fileId frames (spend (spend writes)) db (some (fileId, frameEnd))

/-- `replay_into`; the first `writes` writes succeed, all of them if it is `none` -/
def replayInto (spool : Spool) (db : Outbox) (limit : Option Nat) (writes : Option Nat)
    (now : Int) :
    Outbox × Spool × Except SpoolError Unit :=
  match pendingFrames H spool with
  | .error e => (db, spool, .error e)
  | .ok none => (db, spool, .ok ())
  | .ok (some (fileId, frames)) =>
    let frames := limit.elim frames frames.take
    let (db, cursor, result) := replayFrames H now fileId frames writes db spool.cursor
    (db, { spool with cursor }, result)

/-! ## Reading back what was appended -/

section ReadBack

variable {H}

theorem takeWhile_ne_append {b : UInt8} {line : List UInt8} (h : ∀ x ∈ line, x ≠ b)
    (rest : List UInt8) :
    (line ++ b :: rest).takeWhile (· ≠ b) = line := by
  rw [takeWhile_append_of_pos fun x hx ↦ decide_eq_true (h x hx), takeWhile_cons_of_neg,
    append_nil]
  simp

theorem spoolMagic_plain : ∀ b ∈ spoolMagic, b ≠ 10 ∧ b ≠ 32 ∧ b < 128 := by decide +kernel

theorem frameMagic_plain : ∀ b ∈ frameMagic, b ≠ 10 ∧ b ≠ 32 ∧ b < 128 := by decide +kernel

theorem styleReadsBack_compactStyle :
    StyleReadsBack plainHooks (compactStyle (F := F)) strEncodable fun _ ↦ true where
  strings := scanString_escapeStr
  floatStarts x _ := startsValue_floatText x
  floats x _ := readsBack_floatText x
  before := by simp [compactStyle]
  between := by simp [compactStyle]
  after := by simp [compactStyle]
  colon := by simp [compactStyle]

/-- A payload as it is read back: the same dictionary, with its keys in order. -/
def readBack (p : Obj F) : Json F := (Json.dict p.event).sortKeys

omit [PyFloatNames F] in
theorem document_eq (payloads : List (Obj F)) :
    document payloads = .dict [(.lit "payloads", .list (payloads.map readBack))] := by
  rw [document, Json.sortKeys_dict, map_singleton, Json.sortKeys_list, map_map]
  rfl

omit [PyFloatNames F] in
theorem uniqueKeys_document (payloads : List (Obj F)) : (document payloads).UniqueKeys := by
  rw [document_eq, Json.uniqueKeys_dict_iff]
  refine ⟨nodup_singleton _, fun kv hkv ↦ ?_⟩
  rw [mem_singleton.1 hkv, Json.uniqueKeys_list_iff]
  intro v hv
  obtain ⟨p, -, rfl⟩ := mem_map.1 hv
  exact (Json.uniqueKeys_sortKeys _).2 p.unique

variable {payloads : List (Obj F)} {body : List UInt8}

/-- The payloads of a batch are read back from its body. -/
theorem decodeBody_of_bodyOf (hne : payloads ≠ []) (h : bodyOf payloads = some body) :
    decodeBody body = .ok (payloads.map readBack) := by
  simp only [bodyOf, Option.ite_none_right_eq_some, Option.some.injEq] at h
  obtain ⟨hadm, rfl⟩ := h
  have hloads := loads_render keepsDistinct_plainHooks styleReadsBack_compactStyle hadm
    (uniqueKeys_document payloads)
  have hdicts : (payloads.map readBack).all isDict = true := by
    simp [readBack, Json.sortKeys_dict, isDict]
  have hne' : payloads.map readBack ≠ [] := fun h ↦ hne (map_eq_nil_iff.1 h)
  rw [decodeBody, bind_eq_ok_iff]
  refine ⟨_, requireSome_eq_ok_iff.2 (decodeUtf8_encodeUtf8 _), ?_⟩
  rw [hloads, document_eq]
  exact bind_eq_ok_iff.2 ⟨(), require_eq_ok_iff.2 ⟨hne', hdicts⟩, rfl⟩

/-- A body is at least an opening and a closing brace. -/
theorem two_le_length_of_bodyOf (h : bodyOf payloads = some body) : 2 ≤ body.length := by
  simp only [bodyOf, Option.ite_none_right_eq_some, Option.some.injEq] at h
  obtain ⟨-, rfl⟩ := h
  have hpos (c : Char) : 0 < c.utf8Size := Char.utf8Size_pos c
  rw [document_eq, length_encodeUtf8]
  simp only [Json.render, compactStyle, nil_append, utf8Length_cons]
  have h₁ := hpos '{'
  have h₂ := hpos '"'
  omega

/-- A line of three fields. -/
theorem threeFields_line {a b c : List UInt8} (ha : 32 ∉ a) (hb : 32 ∉ b) (hc : 32 ∉ c) :
    threeFields (a ++ 32 :: (b ++ 32 :: c)) = some (a, b, c) := by
  have hfirst := takeWhile_ne_append (fun x hx ↦ ne_of_mem_of_not_mem hx ha) (b ++ 32 :: c)
  have hsecond := takeWhile_ne_append (fun x hx ↦ ne_of_mem_of_not_mem hx hb) c
  have hdrop (x y : List UInt8) : (x ++ 32 :: y).drop (x.length + 1) = y := by
    simp
  simp only [threeFields, hfirst, hdrop, hsecond]
  simp [hc]

/-- A frame is parsed into its batch, and the rest is parsed after it. -/
theorem parseFrames_frame (hne : payloads ≠ []) (hbody : bodyOf payloads = some body)
    (hsize : body.length ≤ H.maxBatchBytes) {fuel offset : Nat} {rest : List UInt8}
    {frames : List (Nat × List (Json F))}
    (h : parseFrames H fuel (offset + (frame H body).length) rest = .ok frames) :
    parseFrames H (fuel + 1) offset (frame H body ++ rest) =
      .ok ((offset + (frame H body).length, payloads.map readBack) :: frames) := by
  -- the first line, and what stands after it
  set line := frameMagic ++ 32 :: (H.digits body.length ++ 32 :: H.sha256 body) with hline
  have hplain : ∀ b ∈ line, b ≠ 10 ∧ b < 128 := by
    intro b hb
    simp only [hline, mem_append, mem_cons] at hb
    rcases hb with hb | rfl | hb | rfl | hb
    · exact ⟨(frameMagic_plain b hb).1, (frameMagic_plain b hb).2.2⟩
    · decide
    · exact ⟨(H.digits_plain _ b hb).1, (H.digits_plain _ b hb).2.2⟩
    · decide
    · exact ⟨(H.sha256_plain _ b hb).1, (H.sha256_plain _ b hb).2.2⟩
  have hdata : frame H body ++ rest = line ++ 10 :: (body ++ 10 :: rest) := by
    simp [frame, hline]
  have htake := takeWhile_ne_append (fun x hx ↦ (hplain x hx).1) (body ++ 10 :: rest)
  have hdrop : (line ++ 10 :: (body ++ 10 :: rest)).drop (line.length + 1) = body ++ 10 ::
    rest := by
    simp
  have hfields := threeFields_line (fun h ↦ (frameMagic_plain _ h).2.1 rfl)
    (fun h ↦ (H.digits_plain body.length _ h).2.1 rfl) (fun h ↦ (H.sha256_plain body _ h).2.1 rfl)
  have hlength : (frame H body).length = line.length + 1 + (body.length + 1) := by
    have := congrArg List.length hdata
    simp only [length_append, length_cons] at this
    omega
  have hend : (body ++ 10 :: rest).drop (body.length + 1) = rest := by
    simp
  rw [hlength, ← Nat.add_assoc] at h ⊢
  rw [hdata, parseFrames, if_neg (by simp)]
  simp only [htake, hdrop, bind_eq_ok_iff, require_eq_ok_iff, requireSome_eq_ok_iff]
  refine ⟨(), by simp, (), fun b hb ↦ (hplain b hb).2, _, hfields, _, H.intOf_digits _, (),
    by exact_mod_cast hsize, (), ⟨rfl, ?_, ?_⟩, (), ?_, _, ?_, frames, ?_, rfl⟩
  · exact_mod_cast two_le_length_of_bodyOf hbody
  · simp
  · simp
  · simpa using decodeBody_of_bodyOf hne hbody
  · simpa [hend] using h

/-! ## Files without a torn frame -/

variable (H) in
/-- A batch that is in the file. -/
structure Entry where
  payloads : List (Obj F)
  body : List UInt8
  nonempty : payloads ≠ []
  rendered : bodyOf payloads = some body
  size : body.length ≤ H.maxBatchBytes

/-- The bytes of the frames. -/
def entryBytes (entries : List (Entry H)) : List UInt8 := entries.flatMap fun e ↦ frame H e.body

/-- What is parsed from an offset on. -/
def parsedEntries : Nat → List (Entry H) → List (Nat × List (Json F))
  | _, [] => []
  | offset, e :: es =>
    (offset + (frame H e.body).length, e.payloads.map readBack) ::
      parsedEntries (offset + (frame H e.body).length) es

theorem entryBytes_cons (e : Entry H) (es : List (Entry H)) :
    entryBytes (e :: es) = frame H e.body ++ entryBytes es := flatMap_cons

omit [PyFloatNames F] in
theorem length_frame_pos (body : List UInt8) : 0 < (frame H body).length := by
  simp only [frame, length_append, length_cons]
  omega

theorem parseFrames_entryBytes (entries : List (Entry H)) (offset : Nat) {fuel : Nat}
    (hfuel : (entryBytes entries).length ≤ fuel) :
    parseFrames H fuel offset (entryBytes entries) = .ok (parsedEntries offset entries) := by
  induction entries generalizing offset fuel with
  | nil =>
    cases fuel with
    | zero => rfl
    | succ => rfl
  | cons e es ih =>
    rw [entryBytes_cons] at hfuel ⊢
    have hpos := length_frame_pos (H := H) e.body
    rw [length_append] at hfuel
    cases fuel with
    | zero => omega
    | succ =>
      exact parseFrames_frame e.nonempty e.rendered e.size (ih _ (by omega))

variable {id : FileId}

omit [PyFloatNames F] in
theorem readHeader_header {rest : List UInt8}
    (hsize : (header id ++ rest).length ≤ H.maxSpoolBytes) :
    readHeader H (header id ++ rest) = .ok (id.text, (header id).length) := by
  have hplain : ∀ b ∈ spoolMagic ++ 32 :: id.text, b ≠ 10 ∧ b < 128 := by
    intro b hb
    rcases mem_append.1 hb with hb | hb
    · exact ⟨(spoolMagic_plain b hb).1, (spoolMagic_plain b hb).2.2⟩
    · rcases mem_cons.1 hb with rfl | hb
      · decide
      · exact id.plain b hb
  have hdata : header id ++ rest = (spoolMagic ++ 32 :: id.text) ++ 10 :: rest := by
    simp [header]
  have hline := takeWhile_ne_append (fun x hx ↦ (hplain x hx).1) rest
  have hmagic := takeWhile_ne_append (fun x hx ↦ (spoolMagic_plain x hx).2.1) id.text
  have hid : (spoolMagic ++ 32 :: id.text).drop (spoolMagic.length + 1) = id.text := by
    simp
  have hlength : (header id).length = (spoolMagic ++ 32 :: id.text).length + 1 := by
    simp only [header, length_append, length_cons, length_nil]
    omega
  rw [readHeader]
  rw [hdata] at hsize ⊢
  simp only [hline, hmagic, hid, bind_eq_ok_iff, require_eq_ok_iff, hlength]
  exact ⟨(), hsize, (), by simp, (), ⟨fun b hb ↦ (hplain b hb).2, by simp⟩, (),
    ⟨trivial, id.nonempty⟩, trivial⟩

/-- The file holds whole frames, and the cursor stands after the first `replayed` of them. -/
structure Intact (spool : Spool) (id : FileId) (entries : List (Entry H)) (replayed : Nat) :
    Prop where
  file : spool.file = some (header id ++ entryBytes entries)
  size : (header id ++ entryBytes entries).length ≤ H.maxSpoolBytes
  cursor : spool.cursor = none ∧ replayed = 0 ∨
    spool.cursor = some (id.text, (header id ++ entryBytes (entries.take replayed)).length)

theorem entryBytes_append (es fs : List (Entry H)) :
    entryBytes (es ++ fs) = entryBytes es ++ entryBytes fs := flatMap_append

theorem Intact.readCursor {spool : Spool} {entries : List (Entry H)} {replayed : Nat}
    (h : Intact spool id entries replayed) :
    readCursor spool id.text (header id).length (header id ++ entryBytes entries).length =
      .ok (header id ++ entryBytes (entries.take replayed)).length := by
  rcases h.cursor with ⟨hcursor, rfl⟩ | hcursor
  · simp [UsageResilience.readCursor, hcursor, entryBytes]
  · have hsplit := congrArg List.length
      (entryBytes_append (entries.take replayed) (entries.drop replayed))
    rw [take_append_drop, length_append] at hsplit
    simp only [UsageResilience.readCursor, hcursor, bind_eq_ok_iff, require_eq_ok_iff,
      length_append]
    exact ⟨(), trivial, (), ⟨by omega, by omega⟩, trivial⟩

/-- The frames that are pending are those after the cursor. -/
theorem Intact.pendingFrames {spool : Spool} {entries : List (Entry H)} {replayed : Nat}
    (h : Intact spool id entries replayed) :
    pendingFrames H spool = .ok (some (id.text,
      parsedEntries (header id ++ entryBytes (entries.take replayed)).length
        (entries.drop replayed))) := by
  have hdrop : (header id ++ entryBytes entries).drop
      (header id ++ entryBytes (entries.take replayed)).length = entryBytes
        (entries.drop replayed) := by
    have hsplit := entryBytes_append (entries.take replayed) (entries.drop replayed)
    rw [take_append_drop] at hsplit
    rw [hsplit, ← append_assoc]
    exact drop_left
  have hle :
    (entryBytes (entries.drop replayed)).length ≤ (header id ++ entryBytes entries).length := by
    rw [← hdrop, length_drop]
    omega
  rw [UsageResilience.pendingFrames, h.file]
  simp only [bind_eq_ok_iff]
  refine ⟨_, readHeader_header h.size, _, h.readCursor, _, ?_, rfl⟩
  rw [hdrop]
  exact parseFrames_entryBytes _ _ hle

end ReadBack

end Frames

end AgentGateway.UsageResilience
