import AgentGateway.Spill.Restore

/-!
# Rebuilding a spill from its files

`reconstructSpillManifest` reads a manifest of the `file_tools` lane, checks every member it names
and puts the value together again.
-/

open Py List

namespace AgentGateway.Spill

/-! ## Reading a manifest -/

section Reconstruct

variable (F : Type) [PyFloatNames F] (env : Env)

/-- A member that has been checked. -/
structure LoadedMember where
  role : Role
  text : List Char
deriving DecidableEq

variable {F}

def memberRoles : List Role := [.index, .sidecar, .chunks, .canonical]

/-- `role in {"index", "sidecar", "chunks", "canonical"}` -/
def memberRole (v : Json F) : Except Fault (Option Role) :=
  match v.get? (.lit "role") with
  | some (.str s) => .ok (memberRoles.find? fun r ↦ decide (r.text = s))
  | some (.list _) => .error .unhashable
  | some (.dict _) => .error .unhashable
  | _ => .ok none

def invalidMember : Fault := .error (.lit "invalid spill manifest member")

/-- The checks of one entry of `members`. -/
def loadMember (files : Str → Option (List UInt8)) (stem : Str) (members : Dict Str LoadedMember)
    (entry : Json F) : Except Fault (Str × LoadedMember) := do
  let filename ← requireSome (stringField entry "filename") invalidMember
  require ((members.lookup filename).isNone ∧ (stem ++ .lit ".").isPrefixOf filename) invalidMember
  let role ← requireSome (← memberRole entry) invalidMember
  let bytes ← requireSome (intField entry "bytes") invalidMember
  let chars ← requireSome (intField entry "chars") invalidMember
  let sha256 ← requireSome (stringField entry "sha256") invalidMember
  containedMemberPath filename
  let data ← requireSome (files filename)
    (.error (.lit "spill member is not a regular file: " ++ filename))
  require ((data.length : Int) = bytes ∧ env.sha256 data = sha256)
    (.error (.lit "spill member integrity mismatch: " ++ filename))
  let text ← requireSome (decodeUtf8 data) (.error (.lit "spill member is not UTF-8: " ++ filename))
  require ((text.length : Int) = chars)
    (.error (.lit "spill member character count mismatch: " ++ filename))
  return (filename, ⟨role, text⟩)

def loadMembers (files : Str → Option (List UInt8)) (stem : Str) :
    Dict Str LoadedMember → List (Json F) → Except Fault (Dict Str LoadedMember)
  | members, [] => .ok members
  | members, entry :: entries => do
    let p ← loadMember env files stem members entry
    loadMembers files stem (members ++ [p]) entries

def roleCount (members : Dict Str LoadedMember) (role : Role) : Nat :=
  members.countP fun p ↦ decide (p.2.role = role)

variable (F)

/-- The string a reference stands for. -/
def refValue (refId : Str) (member : LoadedMember) : Except Fault Str :=
  match member.role with
  | .sidecar => .ok (member.text.map .scalar)
  | .canonical => .ok (member.text.map .scalar)
  | .chunks => decodeChunkRecords F env (member.text.map .scalar) refId
  | role => .error (.error (.lit "unsupported spill ref role: " ++ role.text))

variable {F}

def isObject : Json F → Bool
  | .dict _ => true
  | _ => false

/-- The checks of one entry of `refs`: its identifier and string, and the member it names. -/
def loadRef (members : Dict Str LoadedMember) (values : Dict Str Str) (ref : Json F) :
    Except Fault (Str × Str × Str) := do
  require (isObject ref) (.error (.lit "invalid spill ref"))
  let missing := Fault.error (.lit "spill ref target missing")
  let refId ← requireSome (stringField ref "ref_id") missing
  let filename ← requireSome (stringField ref "member_filename") missing
  let member ← requireSome (members.lookup filename) missing
  let invalid := Fault.error (.lit "invalid or duplicate spill ref")
  require ((values.lookup refId).isNone ∧ stringField ref "role" = some member.role.text) invalid
  let chars ← requireSome (intField ref "chars") invalid
  let value ← refValue F env refId member
  require ((value.length : Int) = chars)
    (.error (.lit "spill ref character count mismatch: " ++ refId))
  return (refId, value, filename)

/-- `ref_values`, and the members that references name. -/
def loadRefs (members : Dict Str LoadedMember) :
    Dict Str Str → List Str → List (Json F) → Except Fault (Dict Str Str × List Str)
  | values, targets, [] => .ok (values, targets)
  | values, targets, ref :: refs => do
    let p ← loadRef env members values ref
    loadRefs members (values ++ [(p.1, p.2.1)]) (targets ++ [p.2.2]) refs

def isProjection (member : LoadedMember) : Bool :=
  decide (member.role = .sidecar ∨ member.role = .chunks)

/-- The names of the members that hold strings of the index. -/
def projectionMembers (members : Dict Str LoadedMember) : List Str :=
  (members.filter fun p ↦ isProjection p.2).map Prod.fst

/-- The last part, for a JSON payload. -/
def rebuildJson (members : Dict Str LoadedMember) (values : Dict Str Str) (targets : List Str) :
    Except Fault (Json F) := do
  let expected := projectionMembers members
  let referenced := targets.filter fun t ↦ (members.lookup t).any isProjection
  require ((∀ t ∈ referenced, t ∈ expected) ∧ ∀ t ∈ expected, t ∈ referenced)
    (.error (.lit "JSON spill projection refs do not match members"))
  let index ← requireSome (members.find? fun p ↦ decide (p.2.role = .index))
    (.error (.lit "JSON spill index missing"))
  let value ← loadsMember F "spill index" (index.2.text.map .scalar)
  let (restored, hits) ← restore values value
  require (∀ p ∈ values, hits.count p.1 = 1) (.error (.lit "spill ref occurrence mismatch"))
  return restored

/-- The last part, for a text payload. -/
def rebuildText (values : Dict Str Str) (refs : List (Json F)) : Except Fault (Json F) :=
  match values with
  | [(_, value)] =>
    if refs.head?.bind (fun r ↦ stringField r "role") = some Role.canonical.text then .ok
      (.str value)
    else .error (.error (.lit "text spill must contain exactly one ref"))
  | _ => .error (.error (.lit "text spill must contain exactly one ref"))

variable (F)

/-- `reconstruct_spill_manifest`, in a directory with these files -/
def reconstructSpillManifest (files : Str → Option (List UInt8)) (name : Str) :
    Except Fault (Json F) := do
  let data ← requireSome (files name)
    (.error (.lit "spill manifest must be a regular non-symlink file"))
  let manifest ← parseManifest F data
  require (stringField manifest "lane" = some Lane.fileTools.text)
    (.error (.lit "spill manifest lane mismatch"))
  let mismatch := Fault.error (.lit "spill manifest stem mismatch")
  let stem ← requireSome (stringField manifest "stem") mismatch
  require (name = stem ++ .lit ".manifest.json") mismatch
  let kind := manifest.get? (.lit "payload_kind")
  require (stringField manifest "payload_kind" = some (payloadKind true) ∨
      stringField manifest "payload_kind" = some (payloadKind false))
    (match kind with
      | some (.list _) => .unhashable
      | some (.dict _) => .unhashable
      | _ => .error (.lit "unsupported spill payload kind"))
  let isJson := decide (stringField manifest "payload_kind" = some (payloadKind true))
  let missing := Fault.error (.lit "spill manifest members missing")
  let entries ← requireSome (manifestMembers manifest) missing
  require (intField manifest "member_count" = some (entries.length : Int)) missing
  let members ← loadMembers env files stem [] entries
  if isJson then
    require (roleCount members .index = 1 ∧ roleCount members .canonical = 0)
      (.error (.lit "JSON spill member roles are invalid"))
  else
    require (roleCount members .canonical = 1 ∧ roleCount members .index = 0 ∧
      roleCount members .sidecar = 0) (.error (.lit "text spill member roles are invalid"))
  let refs ← requireSome
    (match manifest.get? (.lit "refs") with
      | some (.list refs) => some refs
      | _ => none)
    (.error (.lit "spill manifest refs missing"))
  let (values, targets) ← loadRefs env members [] [] refs
  if isJson then rebuildJson members values targets else rebuildText values refs

end Reconstruct

/-! ## Members and references of a set that was written -/

variable {lineBudget : Nat} {m : PreparedMember}

section Load

variable {F : Type} [PyFloatNames F] {env : Env}

/-- What is known of the member of a piece. -/
structure PieceSpec (F : Type) [PyFloatNames F] (env : Env) (stem : Str) (p : Piece) : Prop where
  filename : p.member.filename = p.ref.memberFilename
  role : p.member.role = p.ref.role
  projection : p.ref.role = .sidecar ∨ p.ref.role = .chunks
  chars : p.ref.chars = p.value.length
  stem : (stem ++ .lit ".") <+: p.member.filename
  suffix : ∃ e ∈ memberSuffixes, e <:+ p.member.filename
  text : ∃ text, p.member.data = encodeUtf8 text ∧
    (noSurrogatePair p.value = true → refValue F env p.ref.refId ⟨p.ref.role, text⟩ = .ok p.value)

theorem isStemChar_refId {c : Char} (hc : isStemChar (.scalar c) = true) (ordinal : Nat)
    (data : List UInt8) :
    ∀ p ∈ CodePoint.scalar c :: (natText ordinal ++ .scalar '-' :: (env.sha256 data).take 8),
      isStemChar p = true := by
  simp only [forall_mem_cons, forall_mem_append]
  exact ⟨hc, isStemChar_natText, rfl,
    fun p hp ↦ isStemChar_of_isLowerHex (env.isLowerHex_sha256 data p (mem_of_mem_take hp))⟩

theorem stem_append (stem : Str) (c : Char) (s : Str) :
    (stem ++ Str.lit ".") <+: stem ++ (Str.lit "." ++ .scalar c :: s) :=
  ⟨.scalar c :: s, by simp⟩

theorem IsPiece.spec {stem : Str} {p : Piece} (h : IsPiece env stem lineBudget p) :
    PieceSpec F env stem p := by
  obtain ⟨value, ref, member⟩ := p
  obtain ⟨pointer, fieldName, ordinal, h⟩ := h
  dsimp only at h
  obtain ⟨data, -, h⟩ := bind_eq_ok_iff.1 h
  split at h
  · obtain ⟨bytes, hbytes, h⟩ := bind_eq_ok_iff.1 h
    cases h
    obtain ⟨t, rfl, rfl⟩ := encodeText_ok hbytes
    refine ⟨rfl, rfl, .inl rfl, rfl, ?_, ?_, t, rfl, fun _ ↦ rfl⟩
    · have hlit : Str.lit ".s" = Str.lit "." ++ [.scalar 's'] := by decide
      rw [hlit]
      simp
    · have hext : sidecarExt env fieldName = .lit "md" ∨ sidecarExt env fieldName = .lit "txt" := by
        rw [sidecarExt]
        split
        · exact .inl rfl
        · exact .inr rfl
      rw [append_assoc _ (Str.lit ".") (sidecarExt env fieldName)]
      rcases hext with hext | hext
      · rw [hext]
        exact ⟨.lit ".md", by decide, suffix_append _ _⟩
      · rw [hext]
        exact ⟨.lit ".txt", by decide, suffix_append _ _⟩
  · obtain ⟨records, hrecords, h⟩ := bind_eq_ok_iff.1 h
    obtain ⟨bytes, hbytes, h⟩ := bind_eq_ok_iff.1 h
    cases h
    obtain ⟨t, rfl, rfl⟩ := encodeText_ok hbytes
    refine ⟨rfl, rfl, .inr rfl, rfl, ?_, ⟨.lit ".chunks.txt", by decide, suffix_append _ _⟩, t, rfl,
      fun hpair ↦ ?_⟩
    · have hlit : Str.lit ".c" = Str.lit "." ++ [.scalar 'c'] := by decide
      rw [hlit]
      simp
    · exact (decodeChunkRecords_encodeChunkRecords env (fun p hp ↦ isSpace_of_isStemChar
        (isStemChar_refId rfl ordinal data p hp)) (by simp) hpair hrecords).1

theorem isFile_append {suffixes : List Str} (stem : Str) {c : Char} {s : Str}
    (h : (Str.lit "." ++ .scalar c :: s) ∈ suffixes) (role : Role) (text : List Char) :
    IsFile suffixes stem ⟨stem ++ (.lit "." ++ .scalar c :: s), role, encodeUtf8 text⟩ :=
  ⟨stem_append stem c s, ⟨text, rfl⟩, _, h, suffix_append _ _⟩

/-- **What is prepared**: members and a manifest in the `file_tools` lane, one file in the others.
-/
theorem prepareSet_cases {root stem : Str} {content : List Char} {lane : Lane} {modelMaxChars : Int}
    {set : PreparedSet} (h : prepareSet F env root stem content lane modelMaxChars = .ok set) :
    (lane = .fileTools ∧ (∀ m ∈ set.members, IsFile memberSuffixes stem m) ∧
      ∃ manifest isJson n refs, set.commitMember = some manifest ∧
        IsManifest F env stem isJson n set.members refs manifest) ∨
    (lane ≠ .fileTools ∧ set.commitMember = none ∧ ∃ m, set.members = [m] ∧
      ((∃ v text, loads (plainHooks (F := F)) content = .ok v ∧ loads plainHooks text = .ok v ∧
        m.filename = stem ++ .lit ".json" ∧ m.data = encodeUtf8 text) ∨
      m.filename = stem ++ .lit ".txt" ∧ m.data = encodeUtf8 content)) := by
  by_cases hlane : lane = .fileTools
  · left
    refine ⟨hlane, ?_⟩
    rw [hlane] at h
    obtain ⟨lineBudget, -, hcases⟩ := prepareSet_fileTools h
    cases hloads : loads (plainHooks (F := F)) content with
    | ok =>
      rw [hloads] at hcases
      obtain ⟨y, w, hset⟩ := hcases
      obtain ⟨manifest, hcommit, hman⟩ := hset.manifest
      refine ⟨?_, manifest, _, _, _, hcommit, hman⟩
      obtain ⟨text, -, hmembers⟩ := hset.members
      obtain ⟨ps, hwalks, -, hpieces⟩ := walk_spec hset.walk
      rw [hmembers, forall_mem_cons, hpieces, nil_append, forall_mem_map]
      refine ⟨isFile_append stem (by decide) .index text, fun p hp ↦ ?_⟩
      have hspec : PieceSpec F env stem p := (hwalks.pieces p hp).spec
      exact ⟨hspec.stem, hspec.text.imp fun _ h ↦ h.1, hspec.suffix⟩
    | error =>
      rw [hloads] at hcases
      obtain ⟨refId, chunks, hset⟩ := hcases
      obtain ⟨manifest, hcommit, hman⟩ := hset.manifest
      refine ⟨?_, manifest, _, _, _, hcommit, hman⟩
      rw [hset.members, forall_mem_cons]
      exact ⟨isFile_append stem (by decide) .canonical content, fun m hm ↦ (hset.chunks m hm).2⟩
  · right
    refine ⟨hlane, ?_⟩
    rw [prepareSet, if_neg hlane] at h
    cases hloads : loads (plainHooks (F := F)) content with
    | ok v =>
      rw [hloads] at h
      obtain ⟨text, htext, h⟩ := bind_eq_ok_iff.1 h
      cases h
      exact ⟨rfl, _, rfl, .inl ⟨v, text, rfl, dumpsIndented_ok htext (uniqueKeys_of_loads hloads),
        rfl, rfl⟩⟩
    | error =>
      rw [hloads] at h
      cases h
      exact ⟨rfl, _, rfl, .inr ⟨rfl, rfl⟩⟩

theorem not_suffix_of_suffix {a b name : Str} (ha : a <:+ name) (hab : ¬ a <:+ b)
    (hba : ¬ b <:+ a) :
    ¬ b <:+ name := by
  intro hb
  rcases suffix_or_suffix_of_suffix ha hb with h | h
  · exact hab h
  · exact hba h

theorem isManifestName_of_memberSuffix {name : Str} (h : ∃ e ∈ memberSuffixes, e <:+ name) :
    isManifestName name = false := by
  obtain ⟨e, he, hname⟩ := h
  have hall : ∀ e ∈ memberSuffixes, ¬ e <:+ Str.lit ".manifest.json" ∧
    ¬ Str.lit ".manifest.json" <:+ e := by
    decide
  rw [isManifestName, Bool.eq_false_iff, Ne, isSuffixOf_iff_suffix]
  exact not_suffix_of_suffix hname (hall e he).1 (hall e he).2

/-- How the names of the files of a set end. -/
def fileSuffixes : List Str := .lit ".manifest.json" :: .lit ".json" :: memberSuffixes

theorem prepareSet_files {root stem : Str} {content : List Char} {lane : Lane} {modelMaxChars : Int}
    {set : PreparedSet} (h : prepareSet F env root stem content lane modelMaxChars = .ok set) :
    ∀ m ∈ set.publishOrder, IsFile fileSuffixes stem m := by
  rcases prepareSet_cases h with ⟨-, hmembers, manifest, isJson, n, refs, hcommit, hman⟩ |
    ⟨-, hcommit, ⟨filename, role, data⟩, hmembers, hkind⟩
  · rw [PreparedSet.publishOrder, hcommit, Option.toList_some, forall_mem_append,
      forall_mem_singleton]
    refine ⟨fun m hm ↦ ?_, ?_⟩
    · obtain ⟨hstem, htext, e, he, hname⟩ := hmembers m hm
      exact ⟨hstem, htext, e, mem_cons_of_mem _ (mem_cons_of_mem _ he), hname⟩
    · obtain ⟨text, -, hdata, -⟩ := hman.data
      refine ⟨?_, ⟨text, hdata⟩, .lit ".manifest.json", by decide, ?_⟩
      · rw [hman.filename]
        exact stem_append stem 'm' (.lit "anifest.json")
      · rw [hman.filename]
        exact suffix_append _ _
  · rw [PreparedSet.publishOrder, hcommit, hmembers, Option.toList_none, append_nil,
      forall_mem_singleton]
    rcases hkind with ⟨-, text, -, -, rfl, rfl⟩ | ⟨rfl, rfl⟩
    · exact isFile_append stem (by decide) role text
    · exact isFile_append stem (by decide) role content

/-- A member as it is loaded. -/
def loaded (m : PreparedMember) : Str × LoadedMember :=
  (m.filename, ⟨m.role, (decodeUtf8 m.data).getD []⟩)

/-- What the checks of a member ask for. -/
structure Loadable (files : Str → Option (List UInt8)) (stem : Str) (m : PreparedMember) :
    Prop where
  file : files m.filename = some m.data
  valid : validMemberName m.filename = true
  stem : (stem ++ .lit ".") <+: m.filename
  role : m.role ∈ memberRoles
  text : ∃ text, m.data = encodeUtf8 text

theorem lookup_concat_eq_none {α : Type} {d : Dict Str α} {k : Str} {p : Str × α}
    (hd : d.lookup k = none) (hk : k ≠ p.1) : (d ++ [p]).lookup k = none := by
  rw [Dict.lookup_append, hd, Option.none_or, List.lookup, beq_eq_false_iff_ne.2 hk]
  rfl

omit [PyFloatNames F] in
theorem memberRole_entry (h : m.role ∈ memberRoles) :
    memberRole (manifestEntry (F := F) env m) = .ok (some m.role) := by
  have hfind : ∀ r ∈ memberRoles, (memberRoles.find? fun r' ↦ decide (r'.text = r.text)) =
    some r := by
    decide
  rw [memberRole, get?_manifestEntry.2.1]
  dsimp only
  rw [hfind m.role h]

variable {members : Dict Str LoadedMember}

omit [PyFloatNames F] in
theorem loadMember_ok {files : Str → Option (List UInt8)} {stem : Str} (h : Loadable files stem m)
    (hnew : members.lookup m.filename = none) :
    loadMember (F := F) env files stem members (manifestEntry env m) = .ok (loaded m) := by
  obtain ⟨text, htext⟩ := h.text
  have hdecode : decodeUtf8 m.data = some text := by rw [htext, decodeUtf8_encodeUtf8]
  have hchars : m.chars = text.length := by rw [PreparedMember.chars, hdecode, Option.getD_some]
  have hstem : (stem ++ Str.lit ".").isPrefixOf m.filename = true := isPrefixOf_iff_prefix.2 h.stem
  simp [loadMember, stringField, intField, memberRole_entry h.role, requireSome, require,
    hnew, hstem, containedMemberPath, h.valid, h.file, hdecode, hchars, loaded, Bind.bind,
    Except.bind, pure, Except.pure]

omit [PyFloatNames F] in
/-- **The members of a set are loaded as they were prepared.** -/
theorem loadMembers_ok {files : Str → Option (List UInt8)} {stem : Str} {ms : List PreparedMember}
    (h : ∀ m ∈ ms, Loadable files stem m) (hnd : (ms.map PreparedMember.filename).Nodup)
    (hnew : ∀ m ∈ ms, members.lookup m.filename = none) :
    loadMembers (F := F) env files stem members (ms.map (manifestEntry env)) =
      .ok (members ++ ms.map loaded) := by
  induction ms generalizing members with
  | nil => rw [map_nil, loadMembers, map_nil, append_nil]
  | cons m ms ih =>
    rw [forall_mem_cons] at h hnew
    rw [map_cons, nodup_cons] at hnd
    rw [map_cons, loadMembers, loadMember_ok h.1 hnew.1]
    have hnew' : ∀ x ∈ ms, (members ++ [loaded m]).lookup x.filename = none := fun x hx ↦
      lookup_concat_eq_none (hnew.2 x hx) fun heq ↦ hnd.1 (mem_map.2 ⟨x, hx, heq⟩)
    simpa [Bind.bind, Except.bind] using ih h.2 hnd.2 hnew'

/-- **References are loaded with the strings they stand for.** -/
theorem loadRefs_ok (rest : Ref → List (Str × Json F)) {rs : List (Ref × Str)}
    (h : ∀ r ∈ rs, ∃ m, members.lookup r.1.memberFilename = some m ∧ m.role = r.1.role ∧
      refValue F env r.1.refId m = .ok r.2 ∧ r.1.chars = r.2.length)
    (hnd : (rs.map fun r ↦ r.1.refId).Nodup) {values : Dict Str Str} (targets : List Str)
    (hnew : ∀ r ∈ rs, values.lookup r.1.refId = none) :
    loadRefs env members values targets ((rs.map Prod.fst).map fun r ↦ manifestRef r (rest r)) =
      .ok (values ++ rs.map fun r ↦ (r.1.refId, r.2), targets ++ rs.map fun r ↦
        r.1.memberFilename) := by
  induction rs generalizing values targets with
  | nil => simp [loadRefs]
  | cons r rs ih =>
    rw [forall_mem_cons] at h hnew
    rw [map_cons, nodup_cons] at hnd
    obtain ⟨m, hm, hrole, hvalue, hchars⟩ := h.1
    have hone : loadRef env members values (manifestRef r.1 (rest r.1)) =
        .ok (r.1.refId, r.2, r.1.memberFilename) := by
      have hobj : isObject (manifestRef r.1 (rest r.1)) = true := rfl
      simp [loadRef, hobj, stringField, intField, requireSome, require, hm, hrole, hvalue, hchars,
        hnew.1, Bind.bind, Except.bind, pure, Except.pure]
    rw [map_cons, map_cons, loadRefs, hone]
    have hnew' : ∀ x ∈ rs, (values ++ [(r.1.refId, r.2)]).lookup x.1.refId = none := fun x hx ↦
      lookup_concat_eq_none (hnew.2 x hx) fun heq ↦ hnd.1 (mem_map.2 ⟨x, hx, heq⟩)
    simpa [Bind.bind, Except.bind] using ih h.2 hnd.2 (targets ++ [r.1.memberFilename]) hnew'

end Load

/-! ## Rebuilding -/

section Rebuild

variable {F : Type} [PyFloatNames F] {env : Env} {stem : Str} {files : Str → Option (List UInt8)}
  {set : PreparedSet}

/-- A set that stands in a directory. -/
structure InPlace (files : Str → Option (List UInt8)) (members : List PreparedMember) : Prop where
  file : ∀ m ∈ members, files m.filename = some m.data
  valid : ∀ m ∈ members, validMemberName m.filename = true
  nodup : (members.map PreparedMember.filename).Nodup

variable {members : List PreparedMember}

/-- The reader comes as far as the references of a set that is in place. -/
theorem reconstructSpillManifest_eq {isJson : Bool} {originalChars : Nat} {refs : List Ref}
    (hm : IsManifest F env stem isJson originalChars members refs m)
    (hfile : files m.filename = some m.data) (hload : ∀ x ∈ members, Loadable files stem x)
    (hnd : (members.map PreparedMember.filename).Nodup) {values : Dict Str Str} {targets : List Str}
    (hrefs : ∀ rest : Ref → List (Str × Json F),
      loadRefs env (members.map loaded) [] [] (refs.map fun r ↦ manifestRef r (rest r)) =
        .ok (values, targets)) :
    ∃ rest : Ref → List (Str × Json F), reconstructSpillManifest F env files m.filename =
      if isJson then
        require (roleCount (members.map loaded) .index = 1 ∧
          roleCount (members.map loaded) .canonical = 0)
          (.error (.lit "JSON spill member roles are invalid")) >>= fun _ ↦
            rebuildJson (members.map loaded) values targets
      else
        require (roleCount (members.map loaded) .canonical = 1 ∧
            roleCount (members.map loaded) .index = 0 ∧ roleCount (members.map loaded) .sidecar = 0)
          (.error (.lit "text spill member roles are invalid")) >>= fun _ ↦
            rebuildText values (refs.map fun r ↦ manifestRef r (rest r)) := by
  obtain ⟨text, rest, hdata, hloads⟩ := hm.data
  refine ⟨rest, ?_⟩
  have hparse := parseManifest_ok hloads
  rw [← hdata] at hparse
  have hmembers : loadMembers (F := F) env files stem [] (members.map (manifestEntry env)) =
      .ok (members.map loaded) := loadMembers_ok hload hnd fun _ _ ↦ rfl
  have hkind : payloadKind false ≠ payloadKind true := by decide
  rw [reconstructSpillManifest, hfile]
  cases isJson with
  | true =>
    simp [requireSome, require, hparse, stringField, intField, manifestMembers, hm.filename,
      hmembers, hrefs rest, Bind.bind, Except.bind]
  | false =>
    simp [requireSome, require, hparse, stringField, intField, manifestMembers, hm.filename,
      hmembers, hrefs rest, hkind, Bind.bind, Except.bind]

/-- The members of pieces. -/
def pieceMembers (ps : List Piece) : List PreparedMember := ps.map Piece.member

/-- `ref_values`, for pieces -/
def pieceValues (ps : List Piece) : Dict Str Str := ps.map fun p ↦ (p.ref.refId, p.value)

theorem isProjection_loaded {p : Piece} (h : PieceSpec F env stem p) :
    isProjection (loaded p.member).2 = true := by
  rw [isProjection, decide_eq_true_eq, loaded, h.role]
  exact h.projection

theorem lookup_loaded (hnd : (members.map PreparedMember.filename).Nodup) (hm : m ∈ members) :
    (members.map loaded).lookup m.filename = some (loaded m).2 :=
  Dict.lookup_map_of_mem hnd hm

variable {y v : Json F} {ps : List Piece}

omit [PyFloatNames F] in
/-- Every piece is known by its reference, and no own object of the value looks like the marker of
one. -/
theorem restore_walks (hw : Walks env stem lineBudget v y ps)
    (hcount : ∀ p ∈ ps, countRefMarkers p.ref.refId y = 1) :
    restore (pieceValues ps) y =
      if hashableMarkers lineBudget v then .ok (v, refIds ps) else .error .unhashable := by
  obtain ⟨hnd, hown⟩ := hw.unambiguous hcount
  refine hw.restores _ (fun p hp ↦ Dict.lookup_map_of_mem hnd hp) fun id hid ↦ ?_
  obtain ⟨value, hvalue⟩ := Option.isSome_iff_exists.1 hid
  obtain ⟨p, hp, hpair⟩ := mem_map.1 (Dict.mem_of_lookup hvalue)
  cases hpair
  exact hown p hp

/-- The last part of the reader's work on the set of a value. -/
theorem rebuildJson_walks {index : PreparedMember} {text : List Char}
    (hw : Walks env stem lineBudget v y ps) (hcount : ∀ p ∈ ps, countRefMarkers p.ref.refId y = 1)
    (hnd : ((index :: pieceMembers ps).map PreparedMember.filename).Nodup)
    (hindex : index.role = .index) (htext : index.data = encodeUtf8 text)
    (hloads : loads plainHooks text = .ok y) :
    rebuildJson ((index :: pieceMembers ps).map loaded) (pieceValues ps)
        (ps.map fun p ↦ p.ref.memberFilename) =
      if hashableMarkers lineBudget v then .ok v else .error .unhashable := by
  have hspec (p : Piece) (hp : p ∈ ps) : PieceSpec F env stem p := (hw.pieces p hp).spec
  have hnot : isProjection (loaded index).2 = false := by
    rw [isProjection, loaded, hindex]
    rfl
  have hexpected : projectionMembers ((index :: pieceMembers ps).map loaded) =
      ps.map fun p ↦ p.ref.memberFilename := by
    have hall : ((pieceMembers ps).map loaded).filter (fun p ↦ isProjection p.2) =
        (pieceMembers ps).map loaded := by
      rw [filter_eq_self, pieceMembers, map_map, forall_mem_map]
      exact fun p hp ↦ isProjection_loaded (hspec p hp)
    rw [projectionMembers, map_cons, filter_cons_of_neg (by rw [hnot]; simp), hall,
      pieceMembers, map_map, map_map]
    exact map_congr_left fun p hp ↦ (hspec p hp).filename
  have hreferenced : (ps.map fun p ↦ p.ref.memberFilename).filter (fun t ↦
      (((index :: pieceMembers ps).map loaded).lookup t).any isProjection) =
        ps.map fun p ↦ p.ref.memberFilename := by
    rw [filter_eq_self, forall_mem_map]
    intro p hp
    rw [← (hspec p hp).filename, lookup_loaded hnd (mem_cons_of_mem _ (mem_map.2 ⟨p, hp, rfl⟩))]
    exact isProjection_loaded (hspec p hp)
  have hfind : ((index :: pieceMembers ps).map loaded).find? (fun p ↦ decide (p.2.role = .index)) =
      some (loaded index) := by
    simp [loaded, hindex]
  have hmember : loadsMember F "spill index" ((loaded index).2.text.map .scalar) = .ok y := by
    simp [loaded, htext, loadsMember, Str.chars?_map_scalar, hloads]
  have hhits : ∀ p ∈ pieceValues ps, (refIds ps).count p.1 = 1 := by
    rw [pieceValues, forall_mem_map]
    exact fun p hp ↦ count_eq_one_of_mem (hw.unambiguous hcount).1 (mem_map.2 ⟨p, hp, rfl⟩)
  rw [rebuildJson, hexpected, hreferenced, hfind, require, if_pos ⟨fun _ h ↦ h, fun _ h ↦ h⟩]
  simp only [requireSome, hmember, restore_walks hw hcount, Bind.bind, Except.bind]
  by_cases hmarkers : hashableMarkers lineBudget v = true
  · simp only [hmarkers, if_true]
    rw [require, if_pos hhits]
    rfl
  · simp [hmarkers]

theorem InPlace.loadable (h : InPlace files members) {x : PreparedMember} (hx : x ∈ members)
    (hstem : (stem ++ .lit ".") <+: x.filename) (hrole : x.role ∈ memberRoles)
    (htext : ∃ text, x.data = encodeUtf8 text) : Loadable files stem x :=
  ⟨h.file x hx, h.valid x hx, hstem, hrole, htext⟩

/-- The references of pieces whose members are loaded. -/
theorem loadRefs_pieces (hnd : (members.map PreparedMember.filename).Nodup)
    (hmem : ∀ p ∈ ps, p.member ∈ members) (hspec : ∀ p ∈ ps, PieceSpec F env stem p)
    (hpair : ∀ p ∈ ps, noSurrogatePair p.value = true) (hids : (refIds ps).Nodup)
    (rest : Ref → List (Str × Json F)) :
    loadRefs env (members.map loaded) [] []
    ((ps.map Piece.ref).map fun r ↦ manifestRef r (rest r)) =
      .ok (pieceValues ps, ps.map fun p ↦ p.ref.memberFilename) := by
  have hall : ∀ r ∈ ps.map (fun p ↦ (p.ref, p.value)), ∃ m, (members.map loaded).lookup
      r.1.memberFilename = some m ∧ m.role = r.1.role ∧ refValue F env r.1.refId m = .ok r.2 ∧
        r.1.chars = r.2.length := by
    rw [forall_mem_map]
    intro p hp
    obtain ⟨t, ht, hvalue⟩ := (hspec p hp).text
    refine ⟨(loaded p.member).2, ?_, (hspec p hp).role, ?_, (hspec p hp).chars⟩
    · rw [← (hspec p hp).filename]
      exact lookup_loaded hnd (hmem p hp)
    · simpa [loaded, ht, (hspec p hp).role] using hvalue (hpair p hp)
  have hids' : ((ps.map fun p ↦ (p.ref, p.value)).map fun r ↦ r.1.refId).Nodup := by
    rwa [map_map]
  have h := loadRefs_ok rest hall hids' [] fun _ _ ↦ lookup_nil
  simp only [map_map, nil_append] at h
  rw [map_map]
  exact h

theorem roleCount_eq_zero {role : Role}
    (h : ∀ m ∈ members, m.role ≠ role) : roleCount (members.map loaded) role = 0 := by
  rw [roleCount, countP_eq_zero, forall_mem_map]
  exact fun m hm hrole ↦ h m hm (of_decide_eq_true hrole)

theorem roleCount_cons (m : PreparedMember) (members : List PreparedMember) (role : Role) :
    roleCount ((m :: members).map loaded) role =
      roleCount (members.map loaded) role + if m.role = role then 1 else 0 := by
  rw [roleCount, map_cons, countP_cons, roleCount]
  simp only [decide_eq_true_eq]
  rfl

/-- **The set of a value is rebuilt as the value**, unless an object of it that looks like a marker
cannot be looked up. -/
theorem reconstruct_json {w : Walked} {content : List Char}
    (hset : IsJsonSet env stem v content.length lineBudget set y w)
    (hloads : loads plainHooks content = .ok v) (hin : InPlace files set.publishOrder) :
    ∃ m, set.commitMember = some m ∧ reconstructSpillManifest F env files m.filename =
      if hashableMarkers lineBudget v then .ok v else .error .unhashable := by
  obtain ⟨ps, hw, hrefs, hmembers⟩ := walk_spec hset.walk
  obtain ⟨text, htext, hset'⟩ := hset.members
  obtain ⟨m, hm, hman⟩ := hset.manifest
  rw [nil_append] at hrefs hmembers
  rw [hmembers] at hset'
  have hspec (p : Piece) (hp : p ∈ ps) : PieceSpec F env stem p := (hw.pieces p hp).spec
  have hcount : ∀ p ∈ ps, countRefMarkers p.ref.refId y = 1 := fun p hp ↦
    hset.unambiguous _ (hrefs ▸ mem_map.2 ⟨p, hp, rfl⟩)
  have hnd : (set.members.map PreparedMember.filename).Nodup :=
    hin.nodup.sublist ((sublist_append_left _ _).map _)
  have hmem : ∀ p ∈ ps, p.member ∈ set.members := fun p hp ↦ by
    rw [hset']
    exact mem_cons_of_mem _ (mem_map.2 ⟨p, hp, rfl⟩)
  have hload : ∀ x ∈ set.members, Loadable files stem x := by
    intro x hx
    have hx' : x ∈ set.publishOrder := mem_append_left _ hx
    rw [hset'] at hx
    rcases mem_cons.1 hx with rfl | hx
    · exact hin.loadable hx' (stem_append stem 'i' (.lit "ndex.json")) (by simp [memberRoles])
        ⟨text, rfl⟩
    · obtain ⟨p, hp, rfl⟩ := mem_map.1 hx
      obtain ⟨t, ht, -⟩ := (hspec p hp).text
      refine hin.loadable hx' (hspec p hp).stem ?_ ⟨t, ht⟩
      rw [(hspec p hp).role]
      rcases (hspec p hp).projection with h | h <;> rw [h] <;> decide
  obtain ⟨rest, hrec⟩ := reconstructSpillManifest_eq hman
    (hin.file m (mem_append_right _ (by simp [hm]))) hload hnd
    (hrefs ▸ loadRefs_pieces hnd hmem hspec (hw.values _ (allStr_of_loads hloads))
      (hw.unambiguous hcount).1)
  have hzero (r : Role) (hr : r = .index ∨ r = .canonical) :
      roleCount ((ps.map Piece.member).map loaded) r = 0 := by
    refine roleCount_eq_zero ?_
    rw [forall_mem_map]
    intro p hp
    rw [(hspec p hp).role]
    rcases hr with rfl | rfl <;> rcases (hspec p hp).projection with h | h <;> rw [h] <;> decide
  have hroles : roleCount (set.members.map loaded) .index = 1 ∧
      roleCount (set.members.map loaded) .canonical = 0 := by
    rw [hset', roleCount_cons, roleCount_cons, hzero .index (.inl rfl), hzero .canonical (.inr rfl)]
    exact ⟨rfl, rfl⟩
  refine ⟨m, hm, ?_⟩
  rw [hrec, if_pos rfl, require, if_pos hroles, hset']
  exact rebuildJson_walks hw hcount (hset' ▸ hnd) rfl rfl
    (dumpsIndented_ok htext (hw.uniqueKeys (uniqueKeys_of_loads hloads)))

/-- **The set of a text is rebuilt as the text.** -/
theorem reconstruct_text {content : List Char} {refId : Str} {chunks : List PreparedMember}
    (hset : IsTextSet F env stem content set refId chunks) (hin : InPlace files set.publishOrder) :
    ∃ m, set.commitMember = some m ∧
      reconstructSpillManifest F env files m.filename = .ok (.str (content.map .scalar)) := by
  obtain ⟨m, hm, hman⟩ := hset.manifest
  have hset' := hset.members
  have hnd : (set.members.map PreparedMember.filename).Nodup :=
    hin.nodup.sublist ((sublist_append_left _ _).map _)
  have hload : ∀ x ∈ set.members, Loadable files stem x := by
    intro x hx
    have hx' : x ∈ set.publishOrder := mem_append_left _ hx
    rw [hset'] at hx
    rcases mem_cons.1 hx with rfl | hx
    · exact hin.loadable hx' (stem_append stem 't' (.lit "xt")) (by simp [memberRoles])
        ⟨content, rfl⟩
    · obtain ⟨hrole, hstem, htext, -⟩ := hset.chunks x hx
      exact hin.loadable hx' hstem (by rw [hrole]; decide) htext
  have hloadRefs (rest : Ref → List (Str × Json F)) :
      loadRefs env (set.members.map loaded) [] []
          ([⟨refId, stem ++ .lit ".txt", .canonical, content.length, .lit "$"⟩].map fun r ↦
            manifestRef r (rest r)) =
        .ok ([(refId, content.map .scalar)], [stem ++ .lit ".txt"]) := by
    have hall : ∀ r ∈ [((⟨refId, stem ++ .lit ".txt", .canonical, content.length, .lit "$"⟩ : Ref),
        content.map CodePoint.scalar)], ∃ m, (set.members.map loaded).lookup r.1.memberFilename =
          some m ∧ m.role = r.1.role ∧ refValue F env r.1.refId m = .ok r.2 ∧
            r.1.chars = r.2.length := by
      rw [forall_mem_singleton]
      refine ⟨_, lookup_loaded hnd (hset' ▸ mem_cons_self), rfl, ?_, by simp⟩
      simp [loaded, refValue]
    exact loadRefs_ok rest hall (by simp) [] fun _ _ ↦ lookup_nil
  obtain ⟨rest, hrec⟩ := reconstructSpillManifest_eq hman
    (hin.file m (mem_append_right _ (by simp [hm]))) hload hnd hloadRefs
  have hzero (r : Role) (hr : r ≠ .chunks) : roleCount (chunks.map loaded) r = 0 :=
    roleCount_eq_zero fun x hx ↦ by
      rw [(hset.chunks x hx).1]
      exact hr.symm
  have hroles : roleCount (set.members.map loaded) .canonical = 1 ∧
      roleCount (set.members.map loaded) .index = 0 ∧
      roleCount (set.members.map loaded) .sidecar = 0 := by
    rw [hset', roleCount_cons, roleCount_cons, roleCount_cons, hzero .index (by decide),
      hzero .canonical (by decide), hzero .sidecar (by decide)]
    exact ⟨rfl, rfl, rfl⟩
  refine ⟨m, hm, ?_⟩
  rw [hrec, if_neg Bool.false_ne_true, require, if_pos hroles]
  simp [rebuildText, stringField, Bind.bind, Except.bind]

end Rebuild

/-! ## Writing and rebuilding -/

section Round

variable {F : Type} [PyFloatNames F] {env : Env} {sink : SpillSink} {weather : Weather}
  {toolName : Str} {toolUseId : Option Str} {content : List Char} {modelMaxChars : Int}
  {s s' : Store} {pub : Publication}

/-- The files of a sink's directory. -/
def filesIn (disk : Disk) (root : Str) : Str → Option (List UInt8) :=
    fun name ↦ disk.lookup (root, name)

/-- The files of a set are as a call left them. -/
def Unchanged (root : Str) (set : PreparedSet) (left now : Disk) : Prop :=
  ∀ m ∈ set.publishOrder, now.lookup (root, m.filename) = left.lookup (root, m.filename)

/-- What the reader makes of a set of the `file_tools` lane. -/
theorem reconstruct_written (hlane : sink.capabilities.lane = .fileTools)
    (h : writeSpillSet F env sink weather toolName toolUseId content modelMaxChars s =
      (.ok pub, s')) :
    ∃ set, writtenSet F env sink weather toolName toolUseId content modelMaxChars s =
      (.ok set, s') ∧
      ∃ lineBudget, lineBudgetOf env sink.root set.stem modelMaxChars = .ok lineBudget ∧
      ∀ disk, Unchanged sink.root set s'.disk disk →
        reconstructSpillManifest F env (filesIn disk sink.root) pub.filename =
          match loads (plainHooks (F := F)) content with
          | .ok v => if hashableMarkers lineBudget v then .ok v else .error .unhashable
          | .error _ => .ok (.str (content.map .scalar)) := by
  obtain ⟨set, pointer, hset, hpointer, rfl⟩ := writeSpillSet_ok h
  obtain ⟨suffix, -, hwritten⟩ := writtenSet_ok hset
  have hprep := hwritten.prepared
  rw [hlane] at hprep
  obtain ⟨lineBudget, hbudget, hcases⟩ := prepareSet_fileTools hprep
  have hin (disk : Disk) (hdisk : Unchanged sink.root set s'.disk disk) :
      InPlace (filesIn disk sink.root) set.publishOrder :=
    ⟨fun m hm ↦ (hdisk m hm).trans (hwritten.published.lookup m hm), hwritten.published.valid,
      hwritten.published.nodup⟩
  have hfilename {m : PreparedMember} (hm : set.commitMember = some m) :
      (publicationOf env sink set pointer).filename = m.filename := by
    rw [PreparedSet.pointer?, hm, Option.some_or, Option.some.injEq] at hpointer
    rw [hpointer]
    rfl
  cases hloads : loads (plainHooks (F := F)) content with
  | ok =>
    rw [hloads] at hcases
    obtain ⟨y, w, hjson⟩ := hcases
    refine ⟨set, hset, lineBudget, hjson.stem_eq ▸ hbudget, fun disk hdisk ↦ ?_⟩
    obtain ⟨m, hm, hrec⟩ := reconstruct_json hjson hloads (hin disk hdisk)
    rw [hfilename hm, hrec]
  | error =>
    rw [hloads] at hcases
    obtain ⟨refId, chunks, htext⟩ := hcases
    refine ⟨set, hset, lineBudget, htext.stem_eq ▸ hbudget, fun disk hdisk ↦ ?_⟩
    obtain ⟨m, hm, hrec⟩ := reconstruct_text htext (hin disk hdisk)
    rw [hfilename hm, hrec]

/-- **A published set of the `file_tools` lane is rebuilt from its files as what was written.**  A
text always is.  A value is exactly if no object of it whose only key is `$spill_ref` holds a list,
an object or a string that is too long for a line. -/
theorem spill_rebuilt_iff (hlane : sink.capabilities.lane = .fileTools)
    (h : writeSpillSet F env sink weather toolName toolUseId content modelMaxChars s =
      (.ok pub, s')) :
    ∃ set, writtenSet F env sink weather toolName toolUseId content modelMaxChars s =
      (.ok set, s') ∧
      ∃ lineBudget, lineBudgetOf env sink.root set.stem modelMaxChars = .ok lineBudget ∧
      ∀ disk, Unchanged sink.root set s'.disk disk →
        match loads (plainHooks (F := F)) content with
        | .ok v => reconstructSpillManifest F env (filesIn disk sink.root) pub.filename = .ok v ↔
            hashableMarkers lineBudget v = true
        | .error _ => reconstructSpillManifest F env (filesIn disk sink.root) pub.filename =
            .ok (.str (content.map .scalar)) := by
  obtain ⟨set, hset, lineBudget, hbudget, hrec⟩ := reconstruct_written hlane h
  refine ⟨set, hset, lineBudget, hbudget, fun disk hdisk ↦ ?_⟩
  rw [hrec disk hdisk]
  cases loads (plainHooks (F := F)) content with
  | ok v =>
    by_cases hmarkers : hashableMarkers lineBudget v = true
    · simp [hmarkers]
    · simp [hmarkers]
  | error => rfl

end Round

/-- A sink of the `file_tools` lane. -/
def fileToolsSink : SpillSink := ⟨.lit "/spill", { fileRead := true }, none⟩

/-- A call of the tool `search`, in an empty tree. -/
def sampleCall (content : String) : Except Fault Publication × Store :=
  writeSpillSet TokenFloat sampleEnv fileToolsSink calm (.lit "search") (some (.lit "1"))
    content.toList
    100000 emptyStore

/-- A value is what `json.loads` reads in its text. -/
theorem loads_sample {v : Json TokenFloat} {content : String}
    (htext : content.toList = v.render (Json.oneLine escapeAscii) 0)
    (hadm : v.admits noSurrogatePair (fun _ ↦ true) = true) (hu : v.UniqueKeys) :
    loads plainHooks content.toList = .ok v := by
  rw [htext]
  exact loads_oneLine stringsReadBack_escapeAscii hadm hu


theorem spill_rebuilt_sample : ∃ pub s', sampleCall "\x7b\"a\": 7\x7d" = (.ok pub, s') ∧
    reconstructSpillManifest TokenFloat sampleEnv (filesIn s'.disk fileToolsSink.root)
      pub.filename =
      .ok (.dict [(.lit "a", .int 7)]) := by
  obtain ⟨pub, s', h, -⟩ :=
    exists_ok_of_any_fst (x := sampleCall "\x7b\"a\": 7\x7d") (p := fun _ ↦ true)
    (by decide +kernel)
  obtain ⟨set, -, lineBudget, -, hrec⟩ := spill_rebuilt_iff (by rfl) h
  have hloads : loads plainHooks "\x7b\"a\": 7\x7d".toList =
      .ok (.dict [(.lit "a", .int 7)] : Json TokenFloat) :=
    loads_sample (by decide +kernel) (by decide +kernel) (by simp)
  rw [hloads] at hrec
  have hread := hrec s'.disk fun _ _ ↦ rfl
  have hmarkers : hashableMarkers lineBudget (.dict [(.lit "a", .int 7)] : Json TokenFloat) =
    true := rfl
  exact ⟨pub, s', h, hread.2 hmarkers⟩

/-- An object that looks like a marker and holds a list is published, and rebuilding raises. -/
theorem marker_with_list_not_rebuilt : ∃ pub s', sampleCall "\x7b\"$spill_ref\": []\x7d" =
    (.ok pub, s') ∧
    loads plainHooks "\x7b\"$spill_ref\": []\x7d".toList =
      .ok (.dict [(markerKey, .list [])] : Json TokenFloat) ∧
    reconstructSpillManifest TokenFloat sampleEnv (filesIn s'.disk fileToolsSink.root)
      pub.filename =
      .error .unhashable := by
  obtain ⟨pub, s', h, -⟩ := exists_ok_of_any_fst (x := sampleCall "\x7b\"$spill_ref\": []\x7d")
    (p := fun _ ↦ true) (by decide +kernel)
  obtain ⟨set, -, lineBudget, -, hrec⟩ := reconstruct_written (by rfl) h
  have hloads : loads plainHooks "\x7b\"$spill_ref\": []\x7d".toList =
      .ok (.dict [(markerKey, .list [])] : Json TokenFloat) :=
    loads_sample (by decide +kernel) (by decide +kernel)
      (by simp)
  have hread := hrec s'.disk fun _ _ ↦ rfl
  rw [hloads] at hread
  have hmarkers : hashableMarkers lineBudget (.dict [(markerKey, .list [])] : Json TokenFloat) =
    false :=
    rfl
  refine ⟨pub, s', h, hloads, ?_⟩
  simpa only [hmarkers, Bool.false_eq_true, if_false] using hread

end AgentGateway.Spill
