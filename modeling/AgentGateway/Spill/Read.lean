import AgentGateway.Spill.Rebuild

/-!
# Reading a spill by its reference

A publication carries a reference, `spill:v1:<name>:<digest>`, and `readSpillResult` answers a page
or a search of the member it names.  The reader makes up its own mind about the file: it has its own
pattern for names, takes a name that ends in `.manifest.json` for a manifest, and has its own size
limit.

* `parseSpillRef_formatSpillRef`: the pattern accepts a reference exactly if its name starts with a
  letter or a digit.
-/

open Py List

namespace AgentGateway.Spill

/-! ## Errors and arguments -/

/-- The subclasses of `SpillReadError`. -/
inductive ReadFault where
  | invalidInput (message : Str)
  | accessDenied (message : Str)
  | unavailable (message : Str)
deriving DecidableEq

/-- The arguments of `read_spill_result`. -/
structure ReadRequest (F : Type) where
  spillRef : Json F
  (memberRef offset maxChars query maxResults contextChars : Json F := .null)

section Arguments

variable {F : Type}

def readInt (value : Json F) (name : String) (default minimum : Nat) : Except ReadFault Nat :=
  match value with
  | .null => .ok default
  | .int n =>
    if n < minimum then .error (.invalidInput (.lit name ++ .lit " must be >= " ++ natText minimum))
    else .ok n.toNat
  | _ => .error (.invalidInput (.lit name ++ .lit " must be an integer"))

/-- `_bounded_int`, with the note it leaves -/
def boundedInt (value : Json F) (name : String) (default minimum maximum : Nat) :
    Except ReadFault (Nat × List Str) := do
  let read ← readInt value name default minimum
  if read ≤ maximum then
    return (read, [])
  else
    return (maximum, [.lit name ++ .lit "=" ++ natText read ++
      .lit " exceeds the reader limit; served with " ++ .lit name ++ .lit "=" ++ natText maximum])

/-- `[A-Za-z0-9]` -/
def isAlnum : CodePoint → Bool
  | .scalar c => decide ('A' ≤ c ∧ c ≤ 'Z') || decide ('a' ≤ c ∧ c ≤ 'z') || c.isDigit
  | .surrogate _ => false

/-- The first character of a name the reader accepts. -/
def startsAlnum (name : Str) : Bool := name.head?.any isAlnum

/-- `^spill:v1:([A-Za-z0-9][A-Za-z0-9._-]{0,254}):([0-9a-f]{64})$` -/
def matchSpillRef (s : Str) : Option (Str × Str) :=
  let start := Str.lit "spill:v1:"
  let name := (s.drop start.length).takeWhile isStemChar
  let digest := s.drop (start.length + name.length + 1)
  if start.isPrefixOf s && startsAlnum name && decide (name.length ≤ 255) &&
      decide ((s.drop (start.length + name.length)).head? = some (.scalar ':')) &&
      decide (digest.length = 64) && digest.all isLowerHex then some (name, digest)
  else none

def parseSpillRef (spillRef : Json F) : Except ReadFault (Str × Str) :=
  match spillRef with
  | .str s =>
    match matchSpillRef s with
    | some p => .ok p
    | none => .error (.invalidInput (.lit "spill_ref is malformed"))
  | _ => .error (.invalidInput (.lit "spill_ref must be a string"))

/-- The query, which is a non-empty string of at most 1024 characters. -/
def readQuery (value : Json F) : Except ReadFault (Option Str) :=
  let invalid := .error (.invalidInput (.lit "query must be a non-empty bounded string"))
  match value with
  | .null => .ok none
  | .str s => if s = [] ∨ 1024 < s.length then invalid else .ok (some s)
  | _ => invalid

def isGiven : Json F → Bool
  | .null => false
  | _ => true

end Arguments

/-! ## Members -/

def spillReadFileCap (sink : Option SpillSink) : Int :=
  match sink.bind SpillSink.maxFileBytes with
  | none => 64 * 1024 * 1024
  | some n => if n = 0 then 64 * 1024 * 1024 else n

/-- `_read_spill_member_bytes`, from a directory that nobody changes meanwhile -/
def readSpillMemberBytes (files : Str → Option (List UInt8)) (memberRef : Str) (maxBytes : Int) :
    Except ReadFault (List UInt8) := do
  require (validMemberName memberRef ∧ memberRef ∉ controlFiles)
    (.accessDenied (.lit "spill member is not admitted"))
  let data ← requireSome (files memberRef) (.unavailable (.lit "spill is missing or expired"))
  require ((data.length : Int) ≤ maxBytes)
    (.unavailable (.lit "spill member exceeds the reader limit"))
  return data

section Entries

variable {F : Type} [PyFloatNames F]

variable (F) in
/-- `_parse_manifest`, with its errors as the reader reports them -/
def parseManifestForRead (data : List UInt8) : Except ReadFault (Json F) :=
  match parseManifest F data with
  | .ok manifest => .ok manifest
  | .error (.error message) => .error (.unavailable message)
  | .error _ => .error (.unavailable [])

/-- What the manifest says of a member. -/
structure MemberEntry where
  bytes : Int
  chars : Int
  sha256 : Str
deriving DecidableEq

def integrityMismatch : ReadFault := .unavailable (.lit "spill manifest integrity mismatch")

/-- The checks of the entry of a member. -/
def checkEntry (entry : Json F) : Except ReadFault MemberEntry := do
  let bytes ← requireSome (intField entry "bytes") integrityMismatch
  let chars ← requireSome (intField entry "chars") integrityMismatch
  let sha256 ← requireSome (stringField entry "sha256") integrityMismatch
  require (sha256.length = 64 ∧ ∀ p ∈ sha256, isLowerHex p = true) integrityMismatch
  return ⟨bytes, chars, sha256⟩

def notAdmitted : ReadFault := .accessDenied (.lit "spill member is not admitted by this reference")

variable (F) in
def manifestMemberEntry (manifestData : List UInt8) (pointerRef requested : Str) :
    Except ReadFault (Option MemberEntry) := do
  if isManifestName pointerRef then
    let manifest ← parseManifestForRead F manifestData
    require (stringField manifest "lane" = some Lane.fileTools.text) integrityMismatch
    let entries ← requireSome (manifestMembers manifest) integrityMismatch
    if requested = pointerRef then
      return none
    else
      match entries.filter fun entry ↦ decide (entryFilename entry = some requested) with
      | [entry] => return some (← checkEntry entry)
      | _ => .error notAdmitted
  else
    require (requested = pointerRef) notAdmitted
    return none

end Entries

/-! ## Pages and searches -/

section Pages

variable {F : Type} [PyFloatNames F]

def spillReadResultFits (payload : Json F) : Bool :=
  decide ((payload.render (Json.oneLine escapeAscii) 0).length ≤ 48000)

/-- The fields every response has. -/
def responseBase (spillRef memberRef : Str) (offset : Nat) (notes : List Str) :
    List (Str × Json F) :=
  [(.lit "spill_ref", .str spillRef), (.lit "member_ref", .str memberRef),
    (.lit "offset", .int offset)] ++
    if notes = [] then [] else [(.lit "notes", .list (notes.map .str))]

def pageResponse (base : List (Str × Json F)) (text : Str) (offset stop : Nat) : Json F :=
  .dict (base ++ [(.lit "content", .str (slice text offset stop)),
    (.lit "next_offset", if stop < text.length then .int stop else .null),
    (.lit "truncated", .bool (decide (stop < text.length)))])

def metadataExceeds : ReadFault :=
  .unavailable (.lit "spill reader response metadata exceeds its limit")

/-- The longest page the binary search finds. -/
def pageEnd (base : List (Str × Json F)) (text : Str) (offset pageChars : Nat) : Nat :=
  growFit (fun stop ↦ spillReadResultFits (pageResponse base text offset stop)) text.length offset
    (min text.length (offset + pageChars))

def readPage (base : List (Str × Json F)) (text : Str) (offset pageChars : Nat) :
    Except ReadFault (Json F) :=
  let response := pageResponse base text offset (pageEnd base text offset pageChars)
  if spillReadResultFits response then .ok response else .error metadataExceeds

/-- The first place from `i` on at which the query stands. -/
def findFrom (query : Str) : Str → Nat → Option Nat
  | [], i => if query = [] then some i else none
  | p :: s, i => if query.isPrefixOf (p :: s) then some i else findFrom query s (i + 1)

/-- `text.find(query, start)` -/
def strFind (text query : Str) (start : Nat) : Option Nat := findFrom query (text.drop start) start

def matchJson (text query : Str) (context at_ : Nat) : Json F :=
  let start := at_ - context
  let stop := min text.length (at_ + query.length + context)
  .dict [(.lit "match_offset", .int at_), (.lit "start_offset", .int start),
    (.lit "end_offset", .int stop), (.lit "content", .str (slice text start stop))]

def searchResponse (base : List (Str × Json F)) (query : Str) (found : List (Json F))
    (nextOffset : Json F) (truncated : Bool) : Json F :=
  .dict (base ++ [(.lit "query", .str query), (.lit "matches", .list found),
    (.lit "next_offset", nextOffset), (.lit "truncated", .bool truncated)])

/-- The loop of a search: what it found, where it goes on, and where the response was full. -/
def searchMatches (base : List (Str × Json F)) (text query : Str) (context : Nat) :
    Nat → List (Json F) → Nat → List (Json F) × Nat × Option Nat
  | 0, found, cursor => (found, cursor, none)
  | left + 1, found, cursor =>
    match strFind text query cursor with
    | none => (found, cursor, none)
    | some at_ =>
      let next := at_ + max 1 query.length
      let found' := found ++ [matchJson text query context at_]
      if spillReadResultFits (searchResponse base query found' (.int next) true) then
        searchMatches base text query context left found' next
      else (found, cursor, some at_)

def readSearch (base : List (Str × Json F)) (text query : Str) (offset limit context : Nat) :
    Except ReadFault (Json F) :=
  let (found, cursor, full) := searchMatches base text query context limit [] offset
  let more := full.isSome || (decide (found.length = limit) && (strFind text query cursor).isSome)
  let next : Json F := match full with
    | some at_ => .int at_
    | none => if more then .int cursor else .null
  let response := searchResponse base query found next more
  if spillReadResultFits response then .ok response else .error metadataExceeds

end Pages

/-! ## The reader -/

section Reader

variable {F : Type} [PyFloatNames F] (env : Env)

/-- The text of a member, checked against what the manifest says of it. -/
def checkedText (data : List UInt8) (entry : Option MemberEntry) : Except ReadFault Str := do
  let mismatch := ReadFault.unavailable (.lit "spill member integrity mismatch")
  require (∀ e ∈ entry, (data.length : Int) = e.bytes ∧ env.sha256 data = e.sha256) mismatch
  let text ← requireSome (decodeUtf8 data) mismatch
  require (∀ e ∈ entry, (text.length : Int) = e.chars) mismatch
  return text.map .scalar

/-- The bytes of a member that a reference admits, and its entry. -/
def admittedMember (files : Str → Option (List UInt8)) (cap : Int)
    (pointerRef pointerDigest requested : Str) :
    Except ReadFault Str := do
  let pointerData ← readSpillMemberBytes files pointerRef cap
  require (env.sha256 pointerData = pointerDigest)
    (.unavailable (.lit "spill reference integrity mismatch"))
  let entry ← manifestMemberEntry F pointerData pointerRef requested
  let data ←
    if requested = pointerRef then .ok pointerData else readSpillMemberBytes files requested cap
  checkedText env data entry

/-- The limits of a request, and the notes about them. -/
structure ReadLimits where
  pageChars : Nat
  resultLimit : Nat
  searchContext : Nat
  notes : List Str

def readLimits (req : ReadRequest F) : Except ReadFault ReadLimits := do
  let (pageChars, n1) ← boundedInt req.maxChars "max_chars" 20000 1 40000
  let (resultLimit, n2) ← boundedInt req.maxResults "max_results" 10 1 20
  let (searchContext, n3) ← boundedInt req.contextChars "context_chars" 120 0 500
  return ⟨pageChars, resultLimit, searchContext, n1 ++ n2 ++ n3⟩

/-- The notes about arguments that are ignored. -/
def ignoredNotes (req : ReadRequest F) (query : Option Str) : List Str :=
  (if query.isNone && (isGiven req.maxResults || isGiven req.contextChars) then
    [Str.lit "max_results and context_chars apply to a query; ignored for this page read"]
    else []) ++
  if query.isSome && isGiven req.maxChars then
    [Str.lit "max_chars applies to a page read; ignored for this query"] else []

def requestedMember (req : ReadRequest F) (pointerRef : Str) : Except ReadFault Str :=
  match req.memberRef with
  | .null => .ok pointerRef
  | .str s => .ok s
  | _ => .error (.invalidInput (.lit "member_ref must be a string"))

/-- Where a request reads: at the place the journal gave, or in the sink's own directory. -/
def readRoot (sink : Option SpillSink) (producerRoot : Option Str) : Option Str :=
  match producerRoot with
  | some root => some root
  | none => (sink.filter fun s ↦ s.capabilities.spillRead).map SpillSink.root

def readSpillResult (disk : Disk) (sink : Option SpillSink) (producerRoot : Option Str)
    (req : ReadRequest F) : Except ReadFault (Json F) := do
  let root ← requireSome (readRoot sink producerRoot)
    (.unavailable (.lit "spill reader is unavailable for this run"))
  let (pointerRef, pointerDigest) ← parseSpillRef req.spillRef
  let requested ← requestedMember req pointerRef
  let offset ← readInt req.offset "offset" 0 0
  let limits ← readLimits req
  let query ← readQuery req.query
  let text ← admittedMember (F := F) env (fun name ↦ disk.lookup (root, name))
    (spillReadFileCap sink)
    pointerRef pointerDigest requested
  require (offset ≤ text.length) (.invalidInput (.lit "offset exceeds spill member length"))
  let spillRef := match req.spillRef with
    | .str s => s
    | _ => []
  let base := responseBase spillRef requested offset (limits.notes ++ ignoredNotes req query)
  match query with
  | none => readPage base text offset limits.pageChars
  | some q => readSearch base text q offset limits.resultLimit limits.searchContext

end Reader

/-! ## References -/

variable {name : Str}

theorem matchSpillRef_eq {digest : Str} (hname : ∀ p ∈ name, isStemChar p = true)
    (hlen : name.length ≤ 255) (hdigest : digest.length = 64)
    (hhex : ∀ p ∈ digest, isLowerHex p = true) :
    matchSpillRef (.lit "spill:v1:" ++ name ++ .lit ":" ++ digest) =
      if startsAlnum name then some (name, digest) else none := by
  have hcolon : Str.lit ":" = [.scalar ':'] := rfl
  have htext : Str.lit "spill:v1:" ++ name ++ Str.lit ":" ++ digest =
      Str.lit "spill:v1:" ++ (name ++ .scalar ':' :: digest) := by simp [hcolon]
  have htake : (name ++ CodePoint.scalar ':' :: digest).takeWhile isStemChar = name := by
    have hstop : isStemChar (.scalar ':') = false := rfl
    rw [takeWhile_append_of_pos hname, takeWhile_cons, hstop]
    simp
  have hstart :
    (Str.lit "spill:v1:").isPrefixOf (Str.lit "spill:v1:" ++ (name ++ .scalar ':' :: digest)) =
      true := isPrefixOf_iff_prefix.2 (prefix_append _ _)
  have hdrop : (Str.lit "spill:v1:" ++ (name ++ .scalar ':' :: digest)).drop
      ((Str.lit "spill:v1:").length + name.length) = .scalar ':' :: digest := by
    rw [← drop_drop, drop_left, drop_left]
  have hrest : (Str.lit "spill:v1:" ++ (name ++ .scalar ':' :: digest)).drop
      ((Str.lit "spill:v1:").length + name.length + 1) = digest := by
    rw [← drop_drop, hdrop, drop_one, tail_cons]
  have hall : digest.all isLowerHex = true := all_eq_true.2 hhex
  rw [htext, matchSpillRef]
  simp only [drop_left, htake, hdrop, hrest, hstart, head?_cons, hdigest, hall, hlen,
    decide_true, Bool.and_true, Bool.true_and]

/-- **The pattern of references accepts a published name exactly if it starts with a letter or a
digit.** -/
theorem parseSpillRef_formatSpillRef {F : Type} {env : Env} {m : PreparedMember}
    (hname : ∀ p ∈ m.filename, isStemChar p = true) (hlen : m.filename.length ≤ 255) :
    parseSpillRef (.str (formatSpillRef env m) : Json F) =
      if startsAlnum m.filename then .ok (m.filename, env.sha256 m.data)
      else .error (.invalidInput (.lit "spill_ref is malformed")) := by
  rw [parseSpillRef, formatSpillRef,
    matchSpillRef_eq hname hlen (env.length_sha256 _) (env.isLowerHex_sha256 _)]
  split
  next p hp =>
    split at hp
    next hhead =>
      cases hp
      rw [if_pos hhead]
    · cases hp
  next hp =>
    split at hp
    · cases hp
    next hhead => rw [if_neg hhead]

/-! ## Sizes -/

section Sizes

variable {F : Type} [PyFloatNames F]

theorem length_escapeAscii_le (s : Str) : (escapeAscii s).length ≤ 12 * s.length := by
  have hone (p : CodePoint) : p.escapeAscii.length ≤ 12 := by
    cases p with
    | surrogate n =>
      have : (hexEscape (0xD800 + n.val)).length = 6 := rfl
      rw [CodePoint.escapeAscii, this]
      omega
    | scalar c =>
      rw [CodePoint.escapeAscii]
      split
      next hle =>
        have hall : ∀ n < 0x7f, (escapeChar (Char.ofNat n)).length ≤ 12 := by decide +kernel
        have := hall c.toNat (by omega)
        rwa [Char.ofNat_toNat] at this
      · rw [CodePoint.units]
        split
        · simp [hexEscape]
        · simp [hexEscape]
  induction s with
  | nil => exact Nat.le_refl 0
  | cons p =>
    have := hone p
    rw [escapeAscii, flatMap_cons, length_append, ← escapeAscii, length_cons]
    omega

theorem length_renderItemsTail_le (depth : Nat) (kvs : List (Str × Json F)) :
    (Json.renderItemsTail (Json.oneLine escapeAscii) depth kvs).length ≤
      1 + (kvs.map fun kv ↦ 12 * kv.1.length +
        (kv.2.render (Json.oneLine escapeAscii) (depth + 1)).length + 6).sum := by
  induction kvs with
  | nil => exact Nat.le_refl 1
  | cons kv kvs ih =>
    obtain ⟨k, x⟩ := kv
    have hk := length_escapeAscii_le k
    rw [Json.renderItemsTail]
    simp only [Json.oneLine, length_cons, length_append, length_nil, map_cons,
      sum_cons] at ih ⊢
    omega

/-- An object is as long as its items, with six characters for each. -/
theorem length_render_dict_le (depth : Nat) (kvs : List (Str × Json F)) :
    ((Json.dict kvs).render (Json.oneLine escapeAscii) depth).length ≤
      2 + (kvs.map fun kv ↦ 12 * kv.1.length +
        (kv.2.render (Json.oneLine escapeAscii) (depth + 1)).length + 6).sum := by
  rcases kvs with _ | ⟨⟨k, x⟩, kvs⟩
  · exact Nat.le_refl 2
  · have hk := length_escapeAscii_le k
    have h := length_renderItemsTail_le (F := F) depth kvs
    rw [Json.render]
    simp only [Json.oneLine, length_cons, length_append, length_nil, map_cons,
      sum_cons] at h ⊢
    omega

theorem length_render_str_le (s : Str) (depth : Nat) :
    ((Json.str s : Json F).render (Json.oneLine escapeAscii) depth).length ≤ 12 * s.length + 2 := by
  have := length_escapeAscii_le s
  rw [Json.render]
  simp only [Json.oneLine, length_cons, length_append, length_nil]
  omega

/-- A page of at most one character fits, if the names in the response are not too long. -/
theorem fits_pageResponse {spillRef memberRef text : Str} (href : spillRef.length ≤ 500)
    (hmember : memberRef.length ≤ 500) {stop : Nat} (hstop : stop ≤ 1) :
    spillReadResultFits
      (pageResponse (responseBase (F := F) spillRef memberRef 0 []) text 0 stop) = true := by
  have hcontent : (slice text 0 stop).length ≤ 1 := by
    rw [slice, length_drop, length_take]
    omega
  have hoffset :
    ((Json.int ((0 : Nat) : Int) : Json F).render (Json.oneLine escapeAscii) 1).length = 1 :=
    rfl
  have hnext : ((if stop < text.length then Json.int stop else Json.null : Json F).render
      (Json.oneLine escapeAscii) 1).length ≤ 4 := by
    split
    · rcases Nat.le_one_iff_eq_zero_or_eq_one.1 hstop with rfl | rfl
      · rw [Json.render]
        decide
      · rw [Json.render]
        decide
    · exact Nat.le_refl 4
  have htruncated : ((Json.bool (decide (stop < text.length)) : Json F).render
      (Json.oneLine escapeAscii) 1).length ≤ 5 := by
    cases decide (stop < text.length) with
    | true => rw [Json.render]; decide
    | false => rw [Json.render]; decide
  have h1 := length_render_str_le (F := F) spillRef 1
  have h2 := length_render_str_le (F := F) memberRef 1
  have h3 := length_render_str_le (F := F) (slice text 0 stop) 1
  have hlits : (Str.lit "spill_ref").length = 9 ∧ (Str.lit "member_ref").length = 10 ∧
      (Str.lit "offset").length = 6 ∧ (Str.lit "content").length = 7 ∧
      (Str.lit "next_offset").length = 11 ∧ (Str.lit "truncated").length = 9 := by decide
  rw [spillReadResultFits, decide_eq_true_eq]
  refine Nat.le_trans (length_render_dict_le _ _) ?_
  simp only [responseBase, if_true, append_nil, cons_append, nil_append, map_cons,
    map_nil, sum_cons, sum_nil, Nat.zero_add, hoffset]
  omega

/-- **A page is answered**, and it is the beginning of the text. -/
theorem readPage_ok {spillRef memberRef : Str} (text : Str) (href : spillRef.length ≤ 500)
    (hmember : memberRef.length ≤ 500) {pageChars : Nat} (hpage : 0 < pageChars) :
    ∃ n ≤ text.length, (text ≠ [] → 0 < n) ∧
      readPage (responseBase (F := F) spillRef memberRef 0 []) text 0 pageChars =
        .ok (pageResponse (responseBase spillRef memberRef 0 []) text 0 n) := by
  have hfits :
    spillReadResultFits (pageResponse (responseBase (F := F) spillRef memberRef 0 []) text 0
      (pageEnd (responseBase (F := F) spillRef memberRef 0 []) text 0 pageChars)) = true :=
    @growFit_fits _ _ _ (fun stop ↦ spillReadResultFits
        (pageResponse (responseBase spillRef memberRef 0 []) text 0 stop))
      (fits_pageResponse href hmember (Nat.zero_le 1))
  refine ⟨pageEnd (responseBase (F := F) spillRef memberRef 0 []) text 0 pageChars, ?_, ?_, ?_⟩
  · exact Nat.le_trans (growFit_le (Nat.zero_le _)) (Nat.min_le_left _ _)
  · intro hne
    have hpos := length_pos_iff.2 hne
    refine lt_growFit ?_ ?_ (fits_pageResponse href hmember (Nat.le_refl 1))
    · exact Nat.le_trans (Nat.sub_le _ _) (Nat.min_le_left _ _)
    · rw [Nat.lt_min]
      omega
  · rw [readPage]
    exact if_pos hfits

end Sizes

/-! ## Published members -/

variable {text : List Char} {refs : List Ref} {n : Nat} {isJson : Bool}

section Published

variable {F : Type} [PyFloatNames F] {env : Env} {root stem : Str} {content : List Char}
  {lane : Lane}
  {modelMaxChars : Int} {set : PreparedSet}

/-- What is said of itself by a value that stands in a file whose name is that of a manifest. -/
def looksLikeManifest (v : Json F) : Bool :=
  isManifestVersion v && decide (stringField v "lane" = some Lane.fileTools.text) &&
    (manifestMembers v).isSome

/-- The only file of a lane that has no manifest: the content, which may be JSON. -/
def IsSingle (F : Type) [PyFloatNames F] (stem : Str) (content : List Char) (m : PreparedMember) :
    Prop :=
  (∃ v text, loads (plainHooks (F := F)) content = .ok v ∧ loads plainHooks text = .ok v ∧
    m.filename = stem ++ .lit ".json" ∧ m.data = encodeUtf8 text) ∨ m.filename = stem ++ .lit ".txt"

/-- The pointer of a set: the manifest in the `file_tools` lane, and the only file in the others. -/
theorem prepareSet_pointer {pointer : PreparedMember}
    (h : prepareSet F env root stem content lane modelMaxChars = .ok set)
    (hp : set.pointer? = some pointer) : (set.commitMember = some pointer ∧ ∃ isJson n refs,
      IsManifest F env stem isJson n set.members refs pointer) ∨
    (set.commitMember = none ∧ set.publishOrder = [pointer] ∧ IsSingle F stem content pointer) := by
  rw [PreparedSet.pointer?] at hp
  rcases prepareSet_cases h with ⟨-, -, manifest, isJson, n, refs, hcommit, hman⟩ |
    ⟨-, hcommit, m, hmembers, hkind⟩
  · rw [hcommit, Option.some_or, Option.some.injEq] at hp
    subst hp
    exact .inl ⟨hcommit, isJson, n, refs, hman⟩
  · rw [hcommit, hmembers] at hp
    cases hp
    rw [PreparedSet.publishOrder, hcommit, hmembers]
    exact .inr ⟨rfl, rfl, hkind.imp_right And.left⟩

theorem not_mem_controlFiles (h : startsAlnum name) : name ∉ controlFiles := by
  intro hmem
  simp only [controlFiles, mem_cons, not_mem_nil, or_false] at hmem
  rcases hmem with rfl | rfl
  · revert h
    decide
  · revert h
    decide

theorem readSpillMemberBytes_eq {files : Str → Option (List UInt8)} {m : PreparedMember} {cap : Int}
    (hfile : files m.filename = some m.data) (hvalid : validMemberName m.filename = true)
    (hname : startsAlnum m.filename) :
    readSpillMemberBytes files m.filename cap =
      if (m.data.length : Int) ≤ cap then .ok m.data
      else .error (.unavailable (.lit "spill member exceeds the reader limit")) := by
  have hcheck : validMemberName m.filename ∧ m.filename ∉ controlFiles :=
    ⟨hvalid, not_mem_controlFiles hname⟩
  rw [readSpillMemberBytes, require, if_pos hcheck, hfile]
  by_cases hcap : (m.data.length : Int) ≤ cap
  · simp [requireSome, require, hcap, Bind.bind, Except.bind, pure, Except.pure]
  · simp [requireSome, require, hcap, Bind.bind, Except.bind]

theorem checkedText_ok {m : PreparedMember} (htext : m.data = encodeUtf8 text)
    {entry : Option MemberEntry}
    (hentry : ∀ e ∈ entry, e = ⟨m.data.length, m.chars, env.sha256 m.data⟩) :
    checkedText env m.data entry = .ok (text.map .scalar) := by
  have hdecode : decodeUtf8 m.data = some text := by rw [htext, decodeUtf8_encodeUtf8]
  have hchars : m.chars = text.length := by rw [PreparedMember.chars, hdecode, Option.getD_some]
  have hfirst : ∀ e ∈ entry, (m.data.length : Int) = e.bytes ∧ env.sha256 m.data = e.sha256 := by
    intro e he
    rw [hentry e he]
    exact ⟨rfl, rfl⟩
  have hsecond : ∀ e ∈ entry, (text.length : Int) = e.chars := by
    intro e he
    rw [hentry e he, hchars]
  rw [checkedText]
  simp only [require]
  rw [if_pos hfirst, hdecode]
  simp only [requireSome, Bind.bind, Except.bind]
  rw [if_pos hsecond]
  rfl

theorem filter_filename_eq {members : List PreparedMember}
    (hnd : (members.map PreparedMember.filename).Nodup) {m : PreparedMember} (hm : m ∈ members) :
    members.filter (fun x ↦ decide (x.filename = m.filename)) = [m] := by
  induction members with
  | nil => cases hm
  | cons x members ih =>
    rw [map_cons, nodup_cons] at hnd
    rcases mem_cons.1 hm with rfl | hm
    · rw [filter_cons_of_pos (by simp), filter_eq_nil_iff.2]
      intro y hy heq
      exact hnd.1 (mem_map.2 ⟨y, hy, of_decide_eq_true heq⟩)
    · have hne : x.filename ≠ m.filename := fun heq ↦ hnd.1 (mem_map.2 ⟨m, hm, heq.symm⟩)
      rw [filter_cons_of_neg (by simpa using hne), ih hnd.2 hm]

/-- What the reader finds in a manifest about a file. -/
theorem manifestMemberEntry_manifest {members : List PreparedMember} {pointer : PreparedMember}
    (hman : IsManifest F env stem isJson n members refs pointer) :
    manifestMemberEntry F pointer.data pointer.filename pointer.filename = .ok none ∧
      ((members.map PreparedMember.filename).Nodup → ∀ m ∈ members, m.filename ≠ pointer.filename →
        manifestMemberEntry F pointer.data pointer.filename m.filename =
          .ok (some ⟨m.data.length, m.chars, env.sha256 m.data⟩)) := by
  obtain ⟨text, rest, hdata, hloads⟩ := hman.data
  have hparse : parseManifestForRead F pointer.data = .ok (manifestPayload env stem isJson n members
      (refs.map fun r ↦ manifestRef r (rest r))) := by
    rw [parseManifestForRead, hdata, parseManifest_ok hloads]
  have hname : isManifestName pointer.filename = true := by
    rw [hman.filename]
    exact isSuffixOf_iff_suffix.2 (suffix_append _ _)
  constructor
  · rw [manifestMemberEntry, if_pos hname, hparse]
    simp [stringField, manifestMembers, requireSome, require, Bind.bind, Except.bind, pure,
      Except.pure]
  · intro hnd m hm hne
    have hfilter : (members.map (manifestEntry (F := F) env)).filter
        (fun entry ↦ decide (entryFilename entry = some m.filename)) = [manifestEntry env m] := by
      rw [filter_map]
      have hone : members.filter (fun x ↦ decide (x.filename = m.filename)) = [m] :=
        filter_filename_eq hnd hm
      have hcongr : members.filter ((fun entry ↦ decide (entryFilename entry = some m.filename)) ∘
          manifestEntry (F := F) env) =
          members.filter (fun x ↦ decide (x.filename = m.filename)) := by
        congr 1
        funext x
        simp [entryFilename]
      rw [hcongr, hone, map_cons, map_nil]
    have hcheck : checkEntry (manifestEntry (F := F) env m) =
        .ok ⟨m.data.length, m.chars, env.sha256 m.data⟩ := by
      have hhex : (env.sha256 m.data).length = 64 ∧ ∀ p ∈ env.sha256 m.data, isLowerHex p = true :=
        ⟨env.length_sha256 _, env.isLowerHex_sha256 _⟩
      rw [checkEntry]
      simp only [intField, stringField, get?_manifestEntry, requireSome, Bind.bind, Except.bind,
        require]
      rw [if_pos hhex]
      rfl
    rw [manifestMemberEntry, if_pos hname, hparse]
    simp [stringField, manifestMembers, requireSome, require, hne, hfilter, hcheck, Bind.bind,
      Except.bind, pure, Except.pure]

theorem manifestMemberEntry_self_ne_some (data : List UInt8) (name : Str) (entry : MemberEntry) :
    manifestMemberEntry F data name name ≠ .ok (some entry) := by
  intro h
  rw [manifestMemberEntry] at h
  split at h
  · obtain ⟨manifest, -, h⟩ := bind_eq_ok_iff.1 h
    obtain ⟨_, -, h⟩ := bind_eq_ok_iff.1 h
    obtain ⟨entries, -, h⟩ := bind_eq_ok_iff.1 h
    rw [if_pos rfl] at h
    cases h
  · obtain ⟨_, -, h⟩ := bind_eq_ok_iff.1 h
    cases h

theorem manifestMemberEntry_of_not_manifest (data : List UInt8)
    (hname : isManifestName name = false) : manifestMemberEntry F data name name = .ok none := by
  simp [manifestMemberEntry, hname, require, Bind.bind, Except.bind, pure, Except.pure]

/-- What the reader makes of a file that is not a manifest: nothing, unless its name is that of one.
-/
theorem manifestMemberEntry_value {v : Json F} (hloads : loads plainHooks text = .ok v)
    (name : Str) :
    manifestMemberEntry F (encodeUtf8 text) name name = .ok none ↔
      (isManifestName name = true → looksLikeManifest v = true) := by
  by_cases hname : isManifestName name = true
  · have hmember : loadsMember F "spill manifest" (text.map .scalar) = .ok v := by
      rw [loadsMember, Str.chars?_map_scalar, Option.map_some, hloads]
    rw [manifestMemberEntry, if_pos hname, parseManifestForRead, parseManifest,
      decodeUtf8_encodeUtf8]
    simp only [requireSome, Bind.bind, Except.bind, hmember, hname, forall_const, looksLikeManifest]
    by_cases hversion : isManifestVersion v = true
    · by_cases hlane : stringField v "lane" = some Lane.fileTools.text
      · rcases hmembers : manifestMembers v with _ | entries
        · simp [require, hversion, hlane, hmembers, pure, Except.pure]
        · simp [require, hversion, hlane, hmembers, pure, Except.pure]
      · simp [require, hversion, hlane, pure, Except.pure]
    · simp [require, hversion]
  · rw [manifestMemberEntry_of_not_manifest _ (Bool.eq_false_iff.2 hname)]
    simp [hname]

end Published

/-! ## Reading what was published -/

section Round

variable {F : Type} [PyFloatNames F] {env : Env} {sink : SpillSink} {weather : Weather}
  {toolName : Str} {toolUseId : Option Str} {content : List Char} {modelMaxChars : Int}
  {s s' : Store} {pub : Publication}

/-- A request for the first page of a member. -/
def pageRequest (spillRef : Str) (memberRef : Option Str) : ReadRequest F where
  spillRef := .str spillRef
  memberRef := memberRef.elim .null .str
  offset := .int 0

/-- The request is answered with the beginning of the text of a member, which is not empty unless
the text is. -/
def ReadsBeginning (F : Type) [PyFloatNames F] (env : Env) (disk : Disk) (sink : SpillSink)
    (spillRef : Str) (memberRef : Option Str) (m : PreparedMember) : Prop :=
  ∃ text : List Char, decodeUtf8 m.data = some text ∧
    ∃ n ≤ text.length, (text ≠ [] → 0 < n) ∧
      readSpillResult (F := F) env disk (some sink) none (pageRequest spillRef memberRef) =
        .ok (pageResponse (responseBase spillRef m.filename 0 []) (text.map .scalar) 0 n)

/-- The reference to a set answers with the pointer, and with every member a manifest lists. -/
def ReadsSet (F : Type) [PyFloatNames F] (env : Env) (disk : Disk) (sink : SpillSink)
    (set : PreparedSet) (pointer : PreparedMember) : Prop :=
  ReadsBeginning F env disk sink (formatSpillRef env pointer) none pointer ∧
    (set.commitMember = some pointer → ∀ m ∈ set.members,
      ReadsBeginning F env disk sink (formatSpillRef env pointer) (some m.filename) m)

variable {disk : Disk}

theorem readSpillResult_eq (hread : sink.capabilities.spillRead = true) (spillRef : Str)
    (memberRef : Option Str) :
    readSpillResult (F := F) env disk (some sink) none (pageRequest spillRef memberRef) =
      parseSpillRef (.str spillRef : Json F) >>= fun p ↦
        admittedMember (F := F) env (filesIn disk sink.root) (spillReadFileCap (some sink)) p.1 p.2
            (memberRef.getD p.1) >>= fun text ↦
          readPage (responseBase spillRef (memberRef.getD p.1) 0 []) text 0 20000 := by
  have hroot : readRoot (some sink) none = some sink.root := by simp [readRoot, hread]
  have hrequested (name : Str) : requestedMember (pageRequest (F := F) spillRef memberRef) name =
      .ok (memberRef.getD name) := by
    cases memberRef <;> rfl
  have hlimits : readLimits (pageRequest (F := F) spillRef memberRef) = .ok ⟨20000, 10, 120, []⟩ :=
    rfl
  rw [readSpillResult, hroot]
  simp only [requireSome, Bind.bind, Except.bind, pageRequest] at hrequested hlimits ⊢
  cases parseSpillRef (.str spillRef : Json F) with
  | error => rfl
  | ok =>
    dsimp only
    rw [hrequested, hlimits]
    simp only [readInt, readQuery, ignoredNotes, isGiven, require]
    rfl

/-- **A reference to a published set is read exactly if** its name starts with a letter or a digit,
no file of the set is larger than the reader's limit, and a file that is no manifest does not have
the name of one, unless its content looks like one. -/
structure Readable (F : Type) [PyFloatNames F] (sink : SpillSink) (content : List Char)
    (set : PreparedSet) (pointer : PreparedMember) : Prop where
  name : startsAlnum pointer.filename
  sizes : ∀ m ∈ set.publishOrder, (m.data.length : Int) ≤ spillReadFileCap (some sink)
  kind : set.commitMember = none → isManifestName pointer.filename = true →
    ∃ v, loads (plainHooks (F := F)) content = .ok v ∧ looksLikeManifest v = true

section Admitted

variable {files : Str → Option (List UInt8)} {members : List PreparedMember}
  {pointer m : PreparedMember}
  {cap : Int}

/-- The pointer itself is admitted unless it is too large or the reader takes it for something else.
-/
theorem admittedMember_pointer (hin : InPlace files members) (hp : pointer ∈ members)
    (hname : startsAlnum pointer.filename) (htext : pointer.data = encodeUtf8 text)
    (t : Str) :
    admittedMember (F := F) env files cap pointer.filename (env.sha256 pointer.data)
      pointer.filename =
        .ok t ↔
      (pointer.data.length : Int) ≤ cap ∧
        manifestMemberEntry F pointer.data pointer.filename pointer.filename = .ok none ∧
        t = text.map .scalar := by
  rw [admittedMember, readSpillMemberBytes_eq (hin.file _ hp) (hin.valid _ hp) hname]
  by_cases hcap : (pointer.data.length : Int) ≤ cap
  · simp only [hcap, if_true, Bind.bind, Except.bind, require, true_and]
    rcases hentry : manifestMemberEntry F pointer.data pointer.filename pointer.filename with e |
      entry
    · simp
    · rcases entry with _ | entry
      · dsimp only
        rw [checkedText_ok htext (by simp)]
        simp [eq_comm]
      · exact absurd hentry (manifestMemberEntry_self_ne_some _ _ _)
  · simp [hcap, Bind.bind, Except.bind]

/-- A member that the manifest lists is admitted unless it is too large. -/
theorem admittedMember_member {stem : Str} {listed : List PreparedMember}
    (hman : IsManifest F env stem isJson n listed refs pointer)
    (hin : InPlace files (listed ++ [pointer])) (hm : m ∈ listed)
    (hname : startsAlnum pointer.filename)
    (hname' : startsAlnum m.filename) (hcap : (pointer.data.length : Int) ≤ cap)
    (htext : m.data = encodeUtf8 text) (t : Str) :
    admittedMember (F := F) env files cap pointer.filename (env.sha256 pointer.data) m.filename =
      .ok t ↔
      (m.data.length : Int) ≤ cap ∧ t = text.map .scalar := by
  have hnd := hin.nodup
  rw [map_append, nodup_append] at hnd
  have hne : m.filename ≠ pointer.filename :=
    hnd.2.2 _ (mem_map.2 ⟨m, hm, rfl⟩) _ (by simp)
  have hp : pointer ∈ listed ++ [pointer] := by simp
  have hm' : m ∈ listed ++ [pointer] := mem_append_left _ hm
  rw [admittedMember, readSpillMemberBytes_eq (hin.file _ hp) (hin.valid _ hp) hname]
  simp only [hcap, if_true, Bind.bind, Except.bind, require,
    (manifestMemberEntry_manifest hman).2 hnd.1 m hm hne, if_neg hne,
    readSpillMemberBytes_eq (hin.file _ hm') (hin.valid _ hm') hname']
  by_cases hsize : (m.data.length : Int) ≤ cap
  · simp only [hsize, if_true, true_and]
    rw [checkedText_ok htext (by simp)]
    simp [eq_comm]
  · simp [hsize]

end Admitted

variable {pointer : PreparedMember}

section

variable (hread : sink.capabilities.spillRead = true)

include hread

/-- What is read depends on the reference being accepted and the member being admitted. -/
theorem readsBeginning_iff {m : PreparedMember} {memberRef : Option Str}
    (hstem : ∀ p ∈ pointer.filename, isStemChar p = true) (hlen : pointer.filename.length ≤ 255)
    (hlen' : m.filename.length ≤ 255) (hmember : memberRef.getD pointer.filename = m.filename)
    (htext : m.data = encodeUtf8 text)
    (hvalue : startsAlnum pointer.filename →
      ∀ t, admittedMember (F := F) env (filesIn disk sink.root) (spillReadFileCap (some sink))
      pointer.filename (env.sha256 pointer.data) m.filename = .ok t → t = text.map .scalar) :
    ReadsBeginning F env disk sink (formatSpillRef env pointer) memberRef m ↔
      startsAlnum pointer.filename ∧
        admittedMember (F := F) env (filesIn disk sink.root) (spillReadFileCap (some sink))
          pointer.filename (env.sha256 pointer.data) m.filename = .ok (text.map .scalar) := by
  have hparse : parseSpillRef (.str (formatSpillRef env pointer) : Json F) = _ :=
    parseSpillRef_formatSpillRef hstem hlen
  have hlit : (Str.lit "spill:v1:").length = 9 ∧ (Str.lit ":").length = 1 := by decide
  have href : (formatSpillRef env pointer).length ≤ 500 := by
    simp only [formatSpillRef, length_append, env.length_sha256, hlit.1, hlit.2]
    omega
  have heq : readSpillResult (F := F) env disk (some sink) none _ = _ :=
    readSpillResult_eq hread (formatSpillRef env pointer) memberRef
  by_cases hname : startsAlnum pointer.filename
  · rw [hparse, if_pos hname] at heq
    simp only [Bind.bind, Except.bind, hmember] at heq
    constructor
    · rintro ⟨text', -, n, -, -, hresult⟩
      rw [heq] at hresult
      obtain ⟨t, ht, -⟩ := bind_eq_ok_iff.1 hresult
      rw [ht, hvalue hname t ht]
      exact ⟨hname, rfl⟩
    · rintro ⟨-, hadmitted⟩
      obtain ⟨n, hn, hpos, hpage⟩ : ∃ n ≤ (text.map CodePoint.scalar).length,
          (text.map CodePoint.scalar ≠ [] → 0 < n) ∧
            readPage (responseBase (F := F) (formatSpillRef env pointer) m.filename 0 [])
                (text.map .scalar) 0 20000 = _ :=
        readPage_ok _ href (by omega) (by omega)
      rw [length_map] at hn
      refine ⟨text, by rw [htext, decodeUtf8_encodeUtf8], n, hn, fun hne ↦
        hpos (by simpa using hne), ?_⟩
      rw [heq, hadmitted]
      exact hpage
  · rw [hparse, if_neg hname] at heq
    constructor
    · rintro ⟨text', -, n, -, -, hresult⟩
      rw [heq] at hresult
      cases hresult
    · rintro ⟨h, -⟩
      exact absurd h hname

/-- The pointer is read if its name, its size and what the reader takes it for allow it. -/
theorem readsBeginning_pointer_iff {members : List PreparedMember}
    (hin : InPlace (filesIn disk sink.root) members) (hp : pointer ∈ members)
    (hstem : ∀ p ∈ pointer.filename, isStemChar p = true) (hlen : pointer.filename.length ≤ 255)
    (htext : pointer.data = encodeUtf8 text) :
    ReadsBeginning F env disk sink (formatSpillRef env pointer) none pointer ↔
      startsAlnum pointer.filename ∧
        (pointer.data.length : Int) ≤ spillReadFileCap (some sink) ∧
        manifestMemberEntry F pointer.data pointer.filename pointer.filename = .ok none := by
  have hadmitted (hname : startsAlnum pointer.filename) (t : Str) :
      admittedMember (F := F) env (filesIn disk sink.root) (spillReadFileCap (some sink))
        pointer.filename _ pointer.filename = .ok t ↔ _ :=
    admittedMember_pointer hin hp hname htext t
  rw [readsBeginning_iff hread hstem hlen hlen rfl htext fun hname t ht ↦
    ((hadmitted hname t).1 ht).2.2]
  refine and_congr_right fun hname ↦ ?_
  rw [hadmitted hname]
  simp

omit hread in
/-- Every name of a set starts with its stem. -/
theorem startsAlnum_filename {stem : Str} (h : (stem ++ .lit ".") <+: name) :
    startsAlnum name = startsAlnum (stem ++ .lit ".") := by
  obtain ⟨t, rfl⟩ := h
  cases stem with
  | nil => rfl
  | cons => rfl

omit hread in
theorem isStemChar_append {stem suffix : Str} (hstem : ∀ p ∈ stem, isStemChar p = true)
    (hsuffix : suffix.all isStemChar = true) : ∀ p ∈ stem ++ suffix, isStemChar p = true := by
  intro p hp
  rcases mem_append.1 hp with hp | hp
  · exact hstem p hp
  · exact all_eq_true.1 hsuffix p hp

variable {stem : Str} {set : PreparedSet}
  (hwritten : Written F env sink content modelMaxChars stem set s'.disk)
  (hin : InPlace (filesIn disk sink.root) set.publishOrder) (hstem : ∀ p ∈ stem,
    isStemChar p = true)

include hwritten hin hstem

theorem readsManifest_iff (hcommit : set.commitMember = some pointer)
    (hman : IsManifest F env stem isJson n set.members refs pointer) :
    ReadsSet F env disk sink set pointer ↔ Readable F sink content set pointer := by
  have hmembers := prepareSet_files hwritten.prepared
  have horder : set.publishOrder = set.members ++ [pointer] := by
    rw [PreparedSet.publishOrder, hcommit, Option.toList_some]
  have hshort := hwritten.published.short
  rw [horder] at hin hmembers hshort
  have hp : pointer ∈ set.members ++ [pointer] := by simp
  have hchars : ∀ p ∈ pointer.filename, isStemChar p = true := by
    rw [hman.filename]
    exact isStemChar_append hstem (by decide)
  obtain ⟨ptext, hptext⟩ := (hmembers pointer hp).text
  rw [ReadsSet, readsBeginning_pointer_iff hread hin hp hchars (hshort _ hp) hptext]
  have hself := (manifestMemberEntry_manifest hman).1
  -- the members are read behind a pointer that is
  have hmember (hname : startsAlnum pointer.filename)
      (hcap : (pointer.data.length : Int) ≤ spillReadFileCap (some sink)) (m : PreparedMember)
      (hm : m ∈ set.members) :
      ReadsBeginning F env disk sink (formatSpillRef env pointer) (some m.filename) m ↔
        (m.data.length : Int) ≤ spillReadFileCap (some sink) := by
    have hm' : m ∈ set.members ++ [pointer] := mem_append_left _ hm
    obtain ⟨hpre, ⟨text, htext⟩, -⟩ := hmembers m hm'
    have hname' : startsAlnum m.filename := by
      rw [startsAlnum_filename hpre, ← startsAlnum_filename (hmembers pointer hp).stem]
      exact hname
    have hadmitted := admittedMember_member hman hin hm hname hname' hcap htext
    rw [readsBeginning_iff hread hchars (hshort _ hp) (hshort _ hm') rfl htext
      fun _ t ht ↦ ((hadmitted t).1 ht).2, hadmitted]
    simp [hname]
  constructor
  · rintro ⟨⟨hname, hcap, -⟩, hall⟩
    refine ⟨hname, ?_, fun hnone ↦ by rw [hcommit] at hnone; cases hnone⟩
    rw [horder]
    exact forall_mem_append.2 ⟨fun m hm ↦ (hmember hname hcap m hm).1 (hall hcommit m hm),
      forall_mem_singleton.2 hcap⟩
  · rintro ⟨hname, hsizes, -⟩
    rw [horder] at hsizes
    exact ⟨⟨hname, hsizes _ hp, hself⟩, fun _ m hm ↦
      (hmember hname (hsizes _ hp) m hm).2 (hsizes _ (mem_append_left _ hm))⟩

theorem readsSingle_iff (hcommit : set.commitMember = none)
    (horder : set.publishOrder = [pointer])
    (hkind : IsSingle F stem content pointer) :
    ReadsSet F env disk sink set pointer ↔ Readable F sink content set pointer := by
  have hp : pointer ∈ set.publishOrder := by rw [horder]; simp
  have hchars : ∀ p ∈ pointer.filename, isStemChar p = true := by
    rcases hkind with ⟨v, text, -, -, hfilename, -⟩ | hfilename
    · rw [hfilename]
      exact isStemChar_append hstem (by decide)
    · rw [hfilename]
      exact isStemChar_append hstem (by decide)
  obtain ⟨ptext, hptext⟩ := (prepareSet_files hwritten.prepared pointer hp).text
  rw [ReadsSet, readsBeginning_pointer_iff hread hin hp hchars (hwritten.published.short _ hp)
    hptext]
  -- what the reader takes the file for
  have hself : manifestMemberEntry F pointer.data pointer.filename pointer.filename = .ok none ↔
      (isManifestName pointer.filename = true →
        ∃ v, loads (plainHooks (F := F)) content = .ok v ∧ looksLikeManifest v = true) := by
    rcases hkind with ⟨v, text, hcontent, hloads, -, hdata⟩ | hfilename
    · rw [hdata, manifestMemberEntry_value hloads, hcontent]
      simp
    · have hname : isManifestName pointer.filename = false := by
        rw [hfilename]
        exact isManifestName_of_memberSuffix ⟨.lit ".txt", by decide, suffix_append _ _⟩
      rw [manifestMemberEntry_of_not_manifest _ hname]
      simp [hname]
  rw [hself]
  constructor
  · rintro ⟨⟨hname, hcap, hlooks⟩, -⟩
    exact ⟨hname, by rw [horder]; simpa using hcap, fun _ ↦ hlooks⟩
  · rintro ⟨hname, hsizes, hlooks⟩
    exact ⟨⟨hname, hsizes _ hp, hlooks hcommit⟩, fun h ↦ by rw [hcommit] at h; cases h⟩

end

/-- **A published reference is read exactly if it is `Readable`**: then the reference answers with
the beginning of the pointer's text, and with that of every member a manifest lists. -/
theorem published_readable_iff (hread : sink.capabilities.spillRead = true)
    (h : writeSpillSet F env sink weather toolName toolUseId content modelMaxChars s =
      (.ok pub, s')) :
    ∃ set pointer, writtenSet F env sink weather toolName toolUseId content modelMaxChars s =
        (.ok set, s') ∧ set.pointer? = some pointer ∧
      ∀ disk, Unchanged sink.root set s'.disk disk →
        ((ReadsBeginning F env disk sink pub.spillRef none pointer ∧
            (set.commitMember = some pointer → ∀ m ∈ set.members,
              ReadsBeginning F env disk sink pub.spillRef (some m.filename) m)) ↔
          Readable F sink content set pointer) := by
  obtain ⟨set, pointer, hset, hpointer, rfl⟩ := writeSpillSet_ok h
  obtain ⟨suffix, hsuffix, hwritten⟩ := writtenSet_ok hset
  have hstem : ∀ p ∈ baseStem (rawStem weather toolName toolUseId) ++ suffix, isStemChar p = true :=
    (isStemChar_stem hsuffix).1
  generalize baseStem (rawStem weather toolName toolUseId) ++ suffix = stem at hwritten hstem
  refine ⟨set, pointer, hset, hpointer, fun disk hdisk ↦ ?_⟩
  have hin : InPlace (filesIn disk sink.root) set.publishOrder :=
    ⟨fun m hm ↦ (hdisk m hm).trans (hwritten.published.lookup m hm), hwritten.published.valid,
      hwritten.published.nodup⟩
  show ReadsSet F env disk sink set pointer ↔ _
  rcases prepareSet_pointer hwritten.prepared hpointer with
    ⟨hcommit, isJson, n, refs, hman⟩ | ⟨hcommit, horder, hkind⟩
  · exact readsManifest_iff hread hwritten hin hstem hcommit hman
  · exact readsSingle_iff hread hwritten hin hstem hcommit horder hkind

end Round

/-- A sink of the `file_tools` lane that gives the model `spill_read`. -/
def spillReadSink : SpillSink := ⟨.lit "/spill", { fileRead := true, spillRead := true }, none⟩

/-- A call of a tool, in an empty tree. -/
def sampleSpill (toolName : String) : Except Fault Publication × Store :=
  writeSpillSet TokenFloat sampleEnv spillReadSink calm (.lit toolName) none "hi".toList 100000
    emptyStore

/-- The published set of that call has a readable name, files that are small enough and a manifest.
-/
def sampleReadable (set : PreparedSet) : Bool :=
  (set.pointer?.any fun m ↦ startsAlnum m.filename) && set.commitMember.isSome &&
    set.publishOrder.all fun m ↦
      decide ((m.data.length : Int) ≤ spillReadFileCap (some spillReadSink))

theorem Readable.of_sampleReadable {set : PreparedSet} {pointer : PreparedMember}
    {content : List Char}
    (hpointer : set.pointer? = some pointer) (h : sampleReadable set = true) :
    Readable TokenFloat spillReadSink content set pointer := by
  simp only [sampleReadable, hpointer, Option.any_some, Bool.and_eq_true, all_eq_true,
    decide_eq_true_eq] at h
  obtain ⟨⟨hname, hcommit⟩, hsizes⟩ := h
  exact ⟨hname, hsizes, fun hnone ↦ by simp [hnone] at hcommit⟩

theorem published_readable_sample : ∃ pub s' pointer, sampleSpill "search" = (.ok pub, s') ∧
    ReadsBeginning TokenFloat sampleEnv s'.disk spillReadSink pub.spillRef none pointer := by
  obtain ⟨pub, s', h, -⟩ := exists_ok_of_any_fst (x := sampleSpill "search") (p := fun _ ↦ true)
    (by decide +kernel)
  obtain ⟨set, s'', hset, hreadable⟩ := exists_ok_of_any_fst
    (x := writtenSet TokenFloat sampleEnv spillReadSink calm (.lit "search") none "hi".toList 100000
      emptyStore)
    (p := fun r ↦ sampleReadable r.1) (by decide +kernel)
  obtain ⟨set', pointer, hset', hpointer, hiff⟩ := published_readable_iff (by rfl) h
  rw [hset] at hset'
  cases hset'
  exact ⟨pub, s', pointer, h,
    ((hiff s'.disk fun _ _ ↦ rfl).2 (.of_sampleReadable hpointer hreadable)).1⟩

/-- What a tool whose name starts with an underscore returns is published under a reference that the
reader refuses. -/
theorem underscore_reference_malformed : ∃ pub s', sampleSpill "_search" = (.ok pub, s') ∧
    readSpillResult (F := TokenFloat) sampleEnv s'.disk (some spillReadSink) none
        (pageRequest pub.spillRef none) =
      .error (.invalidInput (.lit "spill_ref is malformed")) := by
  obtain ⟨pub, s', h, hname⟩ := exists_ok_of_any_fst (x := sampleSpill "_search")
    (p := fun r ↦ decide (matchSpillRef r.1.spillRef = none)) (by decide +kernel)
  refine ⟨pub, s', h, ?_⟩
  rw [readSpillResult_eq (by rfl), parseSpillRef, of_decide_eq_true hname]
  rfl

end AgentGateway.Spill
