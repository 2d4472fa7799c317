import AgentGateway.Spill.Prepare

/-!
# What a prepared set says about itself

A manifest is read back as it was built (`buildManifestMember_ok`), since all its strings and
numbers could be written.  `prepareSet_fileTools` takes a set of the `file_tools` lane apart: its
members, the references to them, and its manifest.
-/

open Py List

namespace AgentGateway.Spill

variable {F : Type} {env : Env}

/-! ## Fields -/

variable {stem : Str} {originalChars : Nat} {members : List PreparedMember}

variable {isJson : Bool} {refs : List (Json F)}

@[simp] theorem get?_manifestPayload :
    let payload := manifestPayload env stem isJson originalChars members refs
    payload.get? (.lit "schema_version") = some (.int 1) ∧
      payload.get? (.lit "stem") = some (.str stem) ∧
      payload.get? (.lit "lane") = some (.str Lane.fileTools.text) ∧
      payload.get? (.lit "payload_kind") = some (.str (payloadKind isJson)) ∧
      payload.get? (.lit "member_count") = some (.int members.length) ∧
      payload.get? (.lit "members") = some (.list (members.map (manifestEntry env))) ∧
      payload.get? (.lit "refs") = some (.list refs) :=
  ⟨rfl, rfl, rfl, rfl, rfl, rfl, rfl⟩

@[simp] theorem get?_manifestEntry {m : PreparedMember} :
    let entry : Json F := manifestEntry env m
    entry.get? (.lit "filename") = some (.str m.filename) ∧
      entry.get? (.lit "role") = some (.str m.role.text) ∧
      entry.get? (.lit "bytes") = some (.int m.data.length) ∧
      entry.get? (.lit "chars") = some (.int m.chars) ∧
      entry.get? (.lit "sha256") = some (.str (env.sha256 m.data)) :=
  ⟨rfl, rfl, rfl, rfl, rfl⟩

@[simp] theorem get?_manifestRef {r : Ref} {rest : List (Str × Json F)} :
    (manifestRef r rest).get? (.lit "ref_id") = some (.str r.refId) ∧
      (manifestRef r rest).get? (.lit "member_filename") = some (.str r.memberFilename) ∧
      (manifestRef r rest).get? (.lit "role") = some (.str r.role.text) ∧
      (manifestRef r rest).get? (.lit "chars") = some (.int r.chars) :=
  ⟨rfl, rfl, rfl, rfl⟩

/-- A field that is a string. -/
def stringField (v : Json F) (key : String) : Option Str :=
  match v.get? (.lit key) with
  | some (.str s) => some s
  | _ => none

/-- An integer, or a truth value, which is one. -/
def intField (v : Json F) (key : String) : Option Int :=
  match v.get? (.lit key) with
  | some (.int n) => some n
  | some (.bool b) => some (if b then 1 else 0)
  | _ => none

/-! ## Keys -/

theorem uniqueKeys_manifestEntry (m : PreparedMember) :
    (manifestEntry (F := F) env m).UniqueKeys := by
  refine Json.uniqueKeys_dict_iff.2 ⟨?_, ?_⟩
  · simp only [map_cons, map_nil]
    decide
  · simp

theorem uniqueKeys_pointerField (r : Ref) :
    (manifestRef (F := F) r (pointerField r)).UniqueKeys := by
  refine Json.uniqueKeys_dict_iff.2 ⟨?_, ?_⟩
  · simp only [pointerField, cons_append, nil_append, map_cons, map_nil]
    decide
  · simp [pointerField]

theorem uniqueKeys_prefixFields (r : Ref) (n : Nat) :
    (manifestRef (F := F) r (prefixFields env r n)).UniqueKeys := by
  refine Json.uniqueKeys_dict_iff.2 ⟨?_, ?_⟩
  · simp only [prefixFields, cons_append, nil_append, map_cons, map_nil]
    decide
  · simp [prefixFields]

theorem uniqueKeys_manifestPayload (hrefs : ∀ r ∈ refs, r.UniqueKeys) :
    (manifestPayload env stem isJson originalChars members refs).UniqueKeys := by
  refine Json.uniqueKeys_dict_iff.2 ⟨?_, ?_⟩
  · simp only [map_cons, map_nil]
    decide
  · simpa [uniqueKeys_manifestEntry] using hrefs

/-! ## Manifests -/

variable [PyFloatNames F]

variable {text : List Char}

theorem dumpsIndented_ok {v : Json F} (h : dumpsIndented v = .ok text) (hu : v.UniqueKeys) :
    loads plainHooks text = .ok v := by
  rw [dumpsIndented] at h
  split at h
  next hadm =>
    cases h
    exact loads_indented hadm hu
  · split at h <;> cases h

/-- A manifest of the members, which is read back with the references in it. -/
structure IsManifest (F : Type) [PyFloatNames F] (env : Env) (stem : Str) (isJson : Bool)
    (originalChars : Nat) (members : List PreparedMember) (refs : List Ref) (m : PreparedMember) :
    Prop where
  filename : m.filename = stem ++ .lit ".manifest.json"
  role : m.role = .manifest
  data : ∃ (text : List Char) (rest : Ref → List (Str × Json F)), m.data = encodeUtf8 text ∧
    loads plainHooks text = .ok (manifestPayload env stem isJson originalChars members
      (refs.map fun r ↦ manifestRef r (rest r)))

variable {lineBudget : Nat}

theorem manifestText_ok {refs : List Ref}
    (h : manifestText F env stem isJson originalChars members refs lineBudget = .ok text) :
    ∃ rest : Ref → List (Str × Json F), loads plainHooks text =
      .ok (manifestPayload env stem isJson originalChars members
        (refs.map fun r ↦ manifestRef r (rest r))) := by
  obtain ⟨first, hfirst, h⟩ := bind_eq_ok_iff.1 h
  split at h
  · cases h
    refine ⟨_, dumpsIndented_ok hfirst (uniqueKeys_manifestPayload ?_)⟩
    rw [forall_mem_map]
    intro r _
    split
    · exact uniqueKeys_prefixFields r _
    · exact uniqueKeys_pointerField r
  · obtain ⟨second, hsecond, h⟩ := bind_eq_ok_iff.1 h
    obtain ⟨-, -, h⟩ := bind_eq_ok_iff.1 h
    cases h
    refine ⟨_, dumpsIndented_ok hsecond (uniqueKeys_manifestPayload ?_)⟩
    rw [forall_mem_map]
    intro r _
    split
    · exact uniqueKeys_prefixFields r _
    · exact uniqueKeys_prefixFields r _

/-- **A manifest is read back as it was built.** -/
theorem buildManifestMember_ok {refs : List Ref} {m : PreparedMember}
    (h : buildManifestMember F env stem isJson originalChars members refs lineBudget = .ok m) :
    IsManifest F env stem isJson originalChars members refs m := by
  obtain ⟨text, htext, h⟩ := bind_eq_ok_iff.1 h
  obtain ⟨-, -, h⟩ := bind_eq_ok_iff.1 h
  cases h
  obtain ⟨rest, hloads⟩ := manifestText_ok htext
  exact ⟨rfl, rfl, text, rest, rfl, hloads⟩

/-! ## Reading a manifest -/

section Parse

variable (F)

def loadsMember (what : String) (text : Str) : Except Fault (Json F) :=
  match text.chars?.map (loads plainHooks) with
  | some (.ok v) => .ok v
  | _ => .error (.error (.lit what ++ .lit " is not valid JSON"))

variable {F} in
/-- An object with exactly the integer `SPILL_MANIFEST_VERSION`. -/
def isManifestVersion (manifest : Json F) : Bool :=
  match manifest.get? (.lit "schema_version") with
  | some (.int n) => decide (n = 1)
  | _ => false

def parseManifest (data : List UInt8) : Except Fault (Json F) := do
  let text ← requireSome (decodeUtf8 data) (.error (.lit "spill manifest is not UTF-8"))
  let manifest ← loadsMember F "spill manifest" (text.map .scalar)
  require (isManifestVersion manifest) (.error (.lit "unsupported spill manifest schema_version"))
  return manifest

variable {F}

theorem parseManifest_ok {stem : Str} {originalChars : Nat} {members : List PreparedMember}
    (h : loads plainHooks text = .ok (manifestPayload env stem isJson originalChars members refs)) :
    parseManifest F (encodeUtf8 text) =
      .ok (manifestPayload env stem isJson originalChars members refs) := by
  simp [parseManifest, requireSome, loadsMember, Str.chars?_map_scalar, h, require,
    isManifestVersion, Bind.bind, Except.bind, pure, Except.pure]

end Parse

/-! ## Sets of the `file_tools` lane -/

omit [PyFloatNames F] in
theorem requireUnambiguous_ok {refs : List Ref} {index : Json F} {u : Unit}
    (h : requireUnambiguous refs index = .ok u) :
    ∀ r ∈ refs, countRefMarkers r.refId index = 1 := by
  rw [requireUnambiguous] at h
  split at h
  next hnone =>
    intro r hr
    simpa using find?_eq_none.1 hnone r hr
  · cases h

/-- The set of a JSON value: an index of it, the strings taken out of it, and a manifest. -/
structure IsJsonSet (env : Env) (stem : Str) (v : Json F) (originalChars lineBudget : Nat)
    (set : PreparedSet) (y : Json F) (w : Walked) : Prop where
  walk : walk env stem lineBudget v [] [] {} = .ok (y, w)
  unambiguous : ∀ r ∈ w.refs, countRefMarkers r.refId y = 1
  stem_eq : set.stem = stem
  isJson : set.isJson = true
  members : ∃ text, dumpsIndented y = .ok text ∧
    set.members = ⟨stem ++ .lit ".index.json", .index, encodeUtf8 text⟩ :: w.members
  manifest : ∃ m, set.commitMember = some m ∧
    IsManifest F env stem true originalChars set.members w.refs m

variable {set : PreparedSet} {content : List Char}

theorem prepareFileToolsJson_ok {v : Json F}
    (h : prepareFileToolsJson env stem v content lineBudget = .ok set) :
    ∃ y w, IsJsonSet env stem v content.length lineBudget set y w := by
  obtain ⟨⟨y, w⟩, hwalk, h⟩ := bind_eq_ok_iff.1 h
  obtain ⟨_, hcount, h⟩ := bind_eq_ok_iff.1 h
  obtain ⟨text, htext, h⟩ := bind_eq_ok_iff.1 h
  obtain ⟨-, -, h⟩ := bind_eq_ok_iff.1 h
  obtain ⟨m, hm, h⟩ := bind_eq_ok_iff.1 h
  cases h
  exact ⟨y, w, hwalk, requireUnambiguous_ok hcount, rfl, rfl, ⟨text, htext, rfl⟩, m, rfl,
    buildManifestMember_ok hm⟩

/-- How the names of the members of a set end. -/
def memberSuffixes : List Str :=
  [.lit ".index.json", .lit ".chunks.txt", .lit ".txt", .lit ".md"]

/-- A file of a set: its name is the stem and something with one of the endings, and it holds UTF-8.
-/
structure IsFile (suffixes : List Str) (stem : Str) (m : PreparedMember) : Prop where
  stem : (stem ++ .lit ".") <+: m.filename
  text : ∃ text, m.data = encodeUtf8 text
  suffix : ∃ e ∈ suffixes, e <:+ m.filename

/-- The set of a text: the text, chunk records of it perhaps, and a manifest. -/
structure IsTextSet (F : Type) [PyFloatNames F] (env : Env) (stem : Str) (content : List Char)
    (set : PreparedSet) (refId : Str) (chunks : List PreparedMember) : Prop where
  stem_eq : set.stem = stem
  isJson : set.isJson = false
  members : set.members = ⟨stem ++ .lit ".txt", .canonical, encodeUtf8 content⟩ :: chunks
  chunks : ∀ m ∈ chunks, m.role = .chunks ∧ IsFile memberSuffixes stem m
  manifest : ∃ m, set.commitMember = some m ∧ IsManifest F env stem false content.length set.members
    [⟨refId, stem ++ .lit ".txt", .canonical, content.length, .lit "$"⟩] m

theorem encodeText_ok {s : Str} {data : List UInt8} (h : encodeText s = .ok data) :
    ∃ t : List Char, s = t.map .scalar ∧ data = encodeUtf8 t := by
  rw [encodeText] at h
  split at h
  · cases h
  next t ht =>
    cases h
    exact ⟨t, Str.eq_map_scalar_of_chars? ht, rfl⟩

theorem textChunks_ok {stemHash refId value : Str} {chunks : List PreparedMember}
    (h : textChunks stem stemHash refId value lineBudget = .ok chunks) :
    ∀ m ∈ chunks, m.role = .chunks ∧ IsFile memberSuffixes stem m := by
  rw [textChunks] at h
  split at h
  · cases h
    simp
  · obtain ⟨records, -, h⟩ := bind_eq_ok_iff.1 h
    obtain ⟨data, hdata, h⟩ := bind_eq_ok_iff.1 h
    cases h
    obtain ⟨t, -, rfl⟩ := encodeText_ok hdata
    rw [forall_mem_singleton]
    refine ⟨rfl, ⟨Str.lit "c0." ++ stemHash ++ Str.lit ".chunks.txt", ?_⟩, ⟨t, rfl⟩,
      .lit ".chunks.txt", by decide, suffix_append _ _⟩
    have hlit : Str.lit ".c0." = Str.lit "." ++ Str.lit "c0." := by decide
    simp [hlit]

theorem prepareFileToolsText_ok (h : prepareFileToolsText F env stem content lineBudget = .ok set) :
    ∃ refId chunks, IsTextSet F env stem content set refId chunks := by
  obtain ⟨hash, -, h⟩ := bind_eq_ok_iff.1 h
  obtain ⟨chunks, hchunks, h⟩ := bind_eq_ok_iff.1 h
  obtain ⟨m, hm, h⟩ := bind_eq_ok_iff.1 h
  cases h
  exact ⟨_, chunks, rfl, rfl, rfl, textChunks_ok hchunks, m, rfl, buildManifestMember_ok hm⟩

/-- The line budget of a set. -/
def lineBudgetOf (env : Env) (root stem : Str) (modelMaxChars : Int) : Except Fault Nat :=
  readerLineBudget env (pathText root (stem ++ .lit ".c99999999.ffffffff.chunks.txt")) modelMaxChars

/-- **A set of the `file_tools` lane is the set of a value or of a text.** -/
theorem prepareSet_fileTools {root : Str} {modelMaxChars : Int}
    (h : prepareSet F env root stem content .fileTools modelMaxChars = .ok set) :
    ∃ lineBudget, lineBudgetOf env root stem modelMaxChars = .ok lineBudget ∧
      match loads (plainHooks (F := F)) content with
      | .ok v => ∃ y w, IsJsonSet env stem v content.length lineBudget set y w
      | .error _ => ∃ refId chunks, IsTextSet F env stem content set refId chunks := by
  obtain ⟨-, -, h⟩ := bind_eq_ok_iff.1 h
  obtain ⟨lineBudget, hbudget, h⟩ := bind_eq_ok_iff.1 h
  refine ⟨lineBudget, hbudget, ?_⟩
  cases hloads : loads (plainHooks (F := F)) content with
  | ok =>
    rw [hloads] at h
    exact prepareFileToolsJson_ok h
  | error =>
    rw [hloads] at h
    exact prepareFileToolsText_ok h

end AgentGateway.Spill
