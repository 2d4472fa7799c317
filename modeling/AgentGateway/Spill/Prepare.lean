import AgentGateway.Py.Calls
import AgentGateway.Py.JsonPlain
import AgentGateway.Py.Lines

/-!
# What a spill consists of

A tool result that is too long for the model is spilled to files: `prepareSet` says to which ones.
A reader of the `file_tools` lane sees lines, so there a JSON value is taken apart.  `walk` leaves a
marker where a string is too long for a line and puts the string into a member of its own, as it is
if its lines are short enough and as chunk records otherwise; what remains is the index.  A manifest
names all members and says which marker stands for which.  In the other lanes the content is one
file.

Texts are read as `json.loads` reads them, and written as `json.dumps` does with `indent=1` and
`ensure_ascii=False`, so a string that has no UTF-8 form is an error when it is written.
-/

open Py

namespace AgentGateway.Spill

/-! ## Errors -/

/-- What a call of this module raises. -/
inductive Fault where
  /-- `SpillError` -/
  | error (message : Str)
  /-- `SpillLimitExceeded` -/
  | limit (message : Str)
  /-- `UnicodeEncodeError` -/
  | unicode
  /-- `ValueError`, of an integer with too many digits -/
  | value
  /-- `TypeError: unhashable type` -/
  | unhashable
  /-- `FileExistsError` -/
  | fileExists
  /-- any other `OSError` -/
  | os
deriving DecidableEq

/-! ## Lanes -/

inductive Lane where
  | codeExecute
  | fileTools
  | noReader
deriving DecidableEq

structure SpillCapabilities where
  codeExecute : Bool := false
  fileRead : Bool := false
  fileGrep : Bool := false
  spillRead : Bool := false
deriving DecidableEq

def SpillCapabilities.lane (c : SpillCapabilities) : Lane :=
  if c.codeExecute then .codeExecute
  else if c.fileRead || c.fileGrep then .fileTools
  else .noReader

def Lane.text : Lane → Str
  | .codeExecute => .lit "code_execute"
  | .fileTools => .lit "file_tools"
  | .noReader => .lit "no_reader"

/-! ## What the functions rest on -/

/-- `[0-9a-f]` -/
def isLowerHex : CodePoint → Bool
  | .scalar c => c.isDigit || decide ('a' ≤ c ∧ c ≤ 'f')
  | .surrogate _ => false

/-- Functions of the standard library that are not spelt out here. -/
structure Env where
  /-- `hashlib.sha256(data).hexdigest()` -/
  sha256 : List UInt8 → Str
  length_sha256 : ∀ data, (sha256 data).length = 64
  isLowerHex_sha256 : ∀ data, ∀ p ∈ sha256 data, isLowerHex p = true
  /-- `str.lower` -/
  lower : Str → Str
  /-- `int(max(0, n) * 0.8)` -/
  scaled : Int → Int
  /-- the value of a character that `\d` matches -/
  digit : CodePoint → Option Nat
  digit_ascii : ∀ c : Char, c.toNat < 0x80 →
    digit (.scalar c) = if c.isDigit then some (c.toNat - '0'.toNat) else none

/-! ## Texts -/

/-- `str(n)` -/
def natText (n : Nat) : Str := (Nat.toDigits 10 n).map .scalar

/-- `s[start:stop]` -/
def slice (s : Str) (start stop : Nat) : Str := (s.take stop).drop start

/-- `s.encode("utf-8")` -/
def encodeText (s : Str) : Except Fault (List UInt8) :=
  match s.chars? with
  | none => .error .unicode
  | some t => .ok (encodeUtf8 t)

/-- `json.dumps(s)` -/
def quoted (s : Str) : Str := ('"' :: (escapeAscii s ++ ['"'])).map .scalar

def readerEncodedLineChars (line : Str) : Nat := (quoted line).length

/-- `text.splitlines() or [text]` -/
def readerLines (text : Str) : List Str :=
  match text.splitlines with
  | [] => [text]
  | ls => ls

def stringRequiresExternalization (value : Str) (lineBudget : Nat) : Bool :=
  decide (lineBudget < readerEncodedLineChars value + 128)

inductive Role where
  | index
  | sidecar
  | chunks
  | canonical
  | manifest
deriving DecidableEq

def Role.text : Role → Str
  | .index => .lit "index"
  | .sidecar => .lit "sidecar"
  | .chunks => .lit "chunks"
  | .canonical => .lit "canonical"
  | .manifest => .lit "manifest"

/-- Every line is short enough for the reader. -/
def linesFit (text : Str) (lineBudget : Nat) : Bool :=
  (readerLines text).all fun line ↦ decide (readerEncodedLineChars line ≤ lineBudget)

def requireReaderLines (text : Str) (lineBudget : Nat) (role : Role) : Except Fault Unit :=
  require (linesFit text lineBudget)
    (.limit (role.text ++ .lit " contains an overlong reader line"))

/-- `_reader_line_budget`, for a path that has this text -/
def readerLineBudget (env : Env) (finalPath : Str) (modelMaxChars : Int) : Except Fault Nat :=
  let target := min 48000 (env.scaled modelMaxChars)
  let wrapperOverhead : Int := 6 * (quoted finalPath).length + 1024 + 2000
  let remaining := target - wrapperOverhead
  if remaining < 768 then
    .error (.limit (.lit "spill reader wrapper overhead exceeds model-safe target"))
  else .ok (remaining / 3).toNat

/-! ## Members -/

/-- Not the name of a file in another directory, nor of a directory. -/
def validMemberName (filename : Str) : Bool :=
  !filename.contains (.scalar '/') && !([Str.lit "", Str.lit ".", Str.lit ".."].contains filename)

def containedMemberPath (filename : Str) : Except Fault Unit :=
  require (validMemberName filename) (.error (.lit "invalid spill member filename"))

structure PreparedMember where
  filename : Str
  role : Role
  data : List UInt8
deriving DecidableEq

/-- `len(self.data.decode("utf-8"))`; what is prepared is always UTF-8. -/
def PreparedMember.chars (m : PreparedMember) : Nat := ((decodeUtf8 m.data).getD []).length

structure PreparedSet where
  stem : Str
  /-- `payload_kind == "json"`; the other one is `"text"` -/
  isJson : Bool
  members : List PreparedMember
  commitMember : Option PreparedMember
deriving DecidableEq

def PreparedSet.publishOrder (s : PreparedSet) : List PreparedMember :=
  s.members ++ s.commitMember.toList

def payloadKind (isJson : Bool) : Str := if isJson then .lit "json" else .lit "text"

/-! ## Chunk records -/

/-- `f"@{ref_id} {start}-{end} {json.dumps(segment, ensure_ascii=True)}"` -/
def chunkRecord (refId : Str) (start stop : Nat) (segment : Str) : Str :=
  .scalar '@' :: (refId ++ .scalar ' ' :: (natText start ++ .scalar '-' ::
    (natText stop ++ .scalar ' ' :: quoted segment)))

section Chunks

variable (value refId : Str) (lineBudget : Nat)

/-- The end of the longest segment from `start` that the binary search finds a record for. -/
def chunkEnd (start : Nat) : Option Nat :=
  lastFit (fun stop ↦ decide
      (readerEncodedLineChars (chunkRecord refId start stop (slice value start stop)) ≤ lineBudget))
    value.length (start + 1) value.length none

/-- `while start < len(value)`; a segment has at least one code point, so the length is fuel enough.
-/
def chunkRecords : Nat → Nat → Except Fault (List Str)
  | 0, _ => .ok []
  | fuel + 1, start =>
    if start < value.length then
      match chunkEnd value refId lineBudget start with
      | none => .error (.limit (.lit "chunk line budget cannot encode one code point"))
      | some stop =>
        (chunkRecords fuel stop).map (chunkRecord refId start stop (slice value start stop) :: ·)
    else .ok []

def encodeChunkRecords : Except Fault Str :=
  (chunkRecords value refId lineBudget value.length 0).map fun records ↦
    Str.unlines (if records = [] then [chunkRecord refId 0 0 []] else records)

end Chunks

/-! ## The walk -/

/-- `value.replace("~", "~0").replace("/", "~1")` -/
def jsonPointerEscape (s : Str) : Str :=
  s.flatMap fun p ↦
    if p = .scalar '~' then Str.lit "~0" else if p = .scalar '/' then Str.lit "~1" else [p]

structure Ref where
  refId : Str
  memberFilename : Str
  role : Role
  chars : Nat
  pointerValue : Str
deriving DecidableEq

/-- The lists `refs` and `members` of the walk. -/
structure Walked where
  refs : List Ref := []
  members : List PreparedMember := []
deriving DecidableEq

def markerKey : Str := .lit "$spill_ref"

section Walk

variable {F : Type} (env : Env) (stem : Str) (lineBudget : Nat)

def marker (refId : Str) : Json F := .dict [(markerKey, .str refId)]

/-- A string of several lines that are all short enough. -/
def useSidecar (value : Str) : Bool :=
  (value.contains (.scalar '\n') || value.contains (.scalar '\r')) && linesFit value lineBudget

def sidecarExt (fieldName : Str) : Str :=
  let lowered := env.lower fieldName
  if lowered = .lit "markdown" || (Str.lit "_markdown").isSuffixOf lowered ||
      (Str.lit "_md").isSuffixOf lowered then .lit "md" else .lit "txt"

/-- The member for a string that is too long for a line, and its reference. -/
def externalMember (value pointer fieldName : Str) (ordinal : Nat) :
    Except Fault (Ref × PreparedMember) := do
  let pointerHash := (env.sha256 (← encodeText pointer)).take 8
  if useSidecar lineBudget value then
    let refId := .scalar 's' :: (natText ordinal ++ .scalar '-' :: pointerHash)
    let filename := stem ++ .lit ".s" ++ natText ordinal ++ .lit "." ++ pointerHash ++ .lit "." ++
      sidecarExt env fieldName
    let data ← encodeText value
    return (⟨refId, filename, .sidecar, value.length, pointer⟩, ⟨filename, .sidecar, data⟩)
  else
    let refId := .scalar 'c' :: (natText ordinal ++ .scalar '-' :: pointerHash)
    let filename := stem ++ .lit ".c" ++ natText ordinal ++ .lit "." ++ pointerHash ++
      .lit ".chunks.txt"
    let data ← encodeText (← encodeChunkRecords value refId lineBudget)
    return (⟨refId, filename, .chunks, value.length, pointer⟩, ⟨filename, .chunks, data⟩)

mutual
/-- `_walk`: the value with markers for the strings that are put elsewhere -/
def walk : Json F → Str → Str → Walked → Except Fault (Json F × Walked)
  | .str s, pointer, fieldName, w =>
    if stringRequiresExternalization s lineBudget then
      (externalMember env stem lineBudget s pointer fieldName w.refs.length).map fun p ↦
        (marker p.1.refId, ⟨w.refs ++ [p.1], w.members ++ [p.2]⟩)
    else .ok (.str s, w)
  | .dict kvs, pointer, _, w => (walkItems kvs pointer w).map fun p ↦ (.dict p.1, p.2)
  | .list xs, pointer, _, w => (walkList xs pointer 0 w).map fun p ↦ (.list p.1, p.2)
  | .null, _, _, w => .ok (.null, w)
  | .bool b, _, _, w => .ok (.bool b, w)
  | .int n, _, _, w => .ok (.int n, w)
  | .float x, _, _, w => .ok (.float x, w)
  | .foreign, _, _, w => .ok (.foreign, w)
def walkItems : List (Str × Json F) → Str → Walked → Except Fault (List (Str × Json F) × Walked)
  | [], _, w => .ok ([], w)
  | (k, x) :: kvs, pointer, w =>
    match walk x (pointer ++ .lit "/" ++ jsonPointerEscape k) k w with
    | .error e => .error e
    | .ok (y, w') => (walkItems kvs pointer w').map fun p ↦ ((k, y) :: p.1, p.2)
def walkList : List (Json F) → Str → Nat → Walked → Except Fault (List (Json F) × Walked)
  | [], _, _, w => .ok ([], w)
  | x :: xs, pointer, i, w =>
    match walk x (pointer ++ .lit "/" ++ natText i) (natText i) w with
    | .error e => .error e
    | .ok (y, w') => (walkList xs pointer (i + 1) w').map fun p ↦ (y :: p.1, p.2)
end

/-- `set(value) == {"$spill_ref"}`, with what is under the key -/
def markerValue? : List (Str × Json F) → Option (Json F)
  | [(k, v)] => if k = markerKey then some v else none
  | _ => none

/-- `set(value) == {"$spill_ref"} and value.get("$spill_ref") == ref_id` -/
def isMarker (refId : Str) (kvs : List (Str × Json F)) : Bool :=
  match markerValue? kvs with
  | some (.str s) => decide (s = refId)
  | _ => false

def countRefMarkers (refId : Str) : Json F → Nat :=
  Json.fold (fun _ ↦ 0) List.sum fun kvs counts ↦ (if isMarker refId kvs then 1 else 0) + counts.sum

end Walk

/-! ## Manifests -/

section Manifest

variable {F : Type} [PyFloatNames F] (env : Env)

/-- `json.dumps(v, indent=1, ensure_ascii=False)` and `.encode("utf-8")`; the two errors are one. -/
def dumpsIndented (v : Json F) : Except Fault (List Char) :=
  if v.admits strEncodable (fun _ ↦ true) then .ok (v.render Json.indented 0)
  else if v.admits (fun _ ↦ true) (fun _ ↦ true) then .error .unicode
  else .error .value

def manifestEntry (m : PreparedMember) : Json F :=
  .dict [(.lit "filename", .str m.filename), (.lit "role", .str m.role.text),
    (.lit "bytes", .int m.data.length), (.lit "chars", .int m.chars),
    (.lit "sha256", .str (env.sha256 m.data))]

/-- A reference of the manifest, with how it says where the string stood. -/
def manifestRef (r : Ref) (where_ : List (Str × Json F)) : Json F :=
  .dict ([(.lit "ref_id", .str r.refId), (.lit "member_filename", .str r.memberFilename),
    (.lit "role", .str r.role.text), (.lit "chars", .int r.chars)] ++ where_)

def pointerField (r : Ref) : List (Str × Json F) := [(.lit "pointer", .str r.pointerValue)]

/-- `pointer_prefix` and `pointer_sha256`, for a pointer that does not fit -/
def prefixFields (r : Ref) (prefixChars : Nat) : List (Str × Json F) :=
  [(.lit "pointer_prefix", .str (r.pointerValue.take prefixChars)),
    (.lit "pointer_sha256", .str (env.sha256 (encodeUtf8 (r.pointerValue.chars?.getD []))))]

/-- Is the reference too long for one line with its pointer? -/
def pointerOverlong (lineBudget : Nat) (r : Ref) : Bool :=
  let probe := (manifestRef (F := F) r (pointerField r)).render (Json.oneLine escapeStr) 0
  decide (lineBudget < readerEncodedLineChars (probe.map .scalar))

/-- The references as they are first written. -/
def manifestRefs (lineBudget : Nat) (refs : List Ref) : List (Json F) :=
  refs.map fun r ↦ manifestRef r
    (if pointerOverlong (F := F) lineBudget r then prefixFields env r
      (max 16 (min 256 (lineBudget / 8)))
      else pointerField r)

/-- The references once every pointer is cut. -/
def shortManifestRefs (lineBudget : Nat) (refs : List Ref) : List (Json F) :=
  refs.map fun r ↦ manifestRef r
    (if pointerOverlong (F := F) lineBudget r then prefixFields env r
      (max 16 (min 256 (lineBudget / 8)))
      else prefixFields env r (max 16 (min 64 (lineBudget / 12))))

def manifestPayload (stem : Str) (isJson : Bool) (originalChars : Nat)
    (members : List PreparedMember)
    (refs : List (Json F)) : Json F :=
  .dict [(.lit "schema_version", .int 1), (.lit "stem", .str stem),
    (.lit "lane", .str Lane.fileTools.text), (.lit "payload_kind", .str (payloadKind isJson)),
    (.lit "original_chars", .int originalChars), (.lit "member_count", .int members.length),
    (.lit "members", .list (members.map (manifestEntry env))), (.lit "refs", .list refs)]

variable (F) in
/-- The text of the manifest, with its pointers cut if some line is too long with them. -/
def manifestText (stem : Str) (isJson : Bool) (originalChars : Nat) (members : List PreparedMember)
    (refs : List Ref) (lineBudget : Nat) : Except Fault (List Char) := do
  let payload (refs : List (Json F)) := manifestPayload env stem isJson originalChars members refs
  let text ← dumpsIndented (payload (manifestRefs env lineBudget refs))
  if linesFit (text.map .scalar) lineBudget then
    return text
  else
    let text ← dumpsIndented (payload (shortManifestRefs env lineBudget refs))
    requireReaderLines (text.map .scalar) lineBudget .manifest
    return text

variable (F) in
def buildManifestMember (stem : Str) (isJson : Bool) (originalChars : Nat)
    (members : List PreparedMember) (refs : List Ref) (lineBudget : Nat) :
    Except Fault PreparedMember := do
  let text ← manifestText F env stem isJson originalChars members refs lineBudget
  let filename := stem ++ .lit ".manifest.json"
  containedMemberPath filename
  return ⟨filename, .manifest, encodeUtf8 text⟩

/-! ## Sets -/

/-- Every marker stands in the index exactly once. -/
def requireUnambiguous (refs : List Ref) (index : Json F) : Except Fault Unit :=
  match refs.find? fun ref ↦ decide (countRefMarkers ref.refId index ≠ 1) with
  | none => .ok ()
  | some ref => .error (.error (.lit "ambiguous spill ref marker: " ++ ref.refId))

def prepareFileToolsJson (stem : Str) (parsed : Json F) (originalContent : List Char)
    (lineBudget : Nat) : Except Fault PreparedSet := do
  let (index, w) ← walk env stem lineBudget parsed [] [] {}
  requireUnambiguous w.refs index
  let indexText ← dumpsIndented index
  requireReaderLines (indexText.map .scalar) lineBudget .index
  let members := ⟨stem ++ .lit ".index.json", .index, encodeUtf8 indexText⟩ :: w.members
  let manifest ← buildManifestMember F env stem true originalContent.length members w.refs
    lineBudget
  return ⟨stem, true, members, some manifest⟩

/-- The chunk records of a text with a line that is too long. -/
def textChunks (stem stemHash refId value : Str) (lineBudget : Nat) :
    Except Fault (List PreparedMember) := do
  if linesFit value lineBudget then
    return []
  else
    let data ← encodeText (← encodeChunkRecords value refId lineBudget)
    return [⟨stem ++ .lit ".c0." ++ stemHash ++ .lit ".chunks.txt", .chunks, data⟩]

variable (F) in
def prepareFileToolsText (stem : Str) (content : List Char) (lineBudget : Nat) :
    Except Fault PreparedSet := do
  let canonical : PreparedMember := ⟨stem ++ .lit ".txt", .canonical, encodeUtf8 content⟩
  let stemHash := (env.sha256 (← encodeText stem)).take 8
  let refId := Str.lit "r0-" ++ stemHash
  let members := canonical :: (← textChunks stem stemHash refId (content.map .scalar) lineBudget)
  let refs : List Ref := [⟨refId, canonical.filename, .canonical, content.length, .lit "$"⟩]
  let manifest ← buildManifestMember F env stem false content.length members refs lineBudget
  return ⟨stem, false, members, some manifest⟩

/-- `str(root / filename)` -/
def pathText (root filename : Str) : Str :=
  if root = .lit "/" then root ++ filename else root ++ .scalar '/' :: filename

variable (F) in
/-- `_prepare_set`, for a content made of Unicode scalar values -/
def prepareSet (root stem : Str) (content : List Char) (lane : Lane) (modelMaxChars : Int) :
    Except Fault PreparedSet := do
  let parsed := loads (plainHooks (F := F)) content
  if lane = .fileTools then
    let widest := stem ++ .lit ".c99999999.ffffffff.chunks.txt"
    containedMemberPath widest
    let lineBudget ← readerLineBudget env (pathText root widest) modelMaxChars
    match parsed with
    | .ok v => prepareFileToolsJson env stem v content lineBudget
    | .error _ => prepareFileToolsText F env stem content lineBudget
  else
    match parsed with
    | .ok v =>
      let canonical ← dumpsIndented v
      return ⟨stem, true, [⟨stem ++ .lit ".json", .canonical, encodeUtf8 canonical⟩], none⟩
    | .error _ => return ⟨stem, false, [⟨stem ++ .lit ".txt", .canonical, encodeUtf8 content⟩],
      none⟩

end Manifest

end AgentGateway.Spill
