import AgentGateway.Spill.Prepare

/-!
# Writing a spill

`writeSpillSet` prepares a set, reserves its bytes in the budget of the run tree, publishes its
files one by one and, if one of them cannot be published, takes back what it has published and gives
back the bytes.  It tries twice, the second time under another stem.

A file is published by a hard link from a temporary file, so an existing name is never overwritten.
What the file system makes of an attempt is its `PublishFate`: the steps before the link fail, or
the file is there and the guard on it cannot be opened, or the temporary file cannot be removed.
Temporary files are not part of a `Disk`.

* The budget is rehydrated by the first reservation: `scanExistingSpillBytes` counts what it finds
  of committed sets and removes what belongs to none.
* `writeSpillSet_ok`: what a call that returned has left on the disk.
-/

open Py

namespace AgentGateway.Spill

/-! ## Disks -/

/-- A file is named by its directory and its name in it. -/
abbrev Path := Str × Str

/-- The regular files of a tree of spill roots. -/
abbrev Disk := Dict Path (List UInt8)

/-- What the file system does about one publication. -/
inductive PublishFate where
  | done
  /-- a step before the link raises, or the link does -/
  | before (e : Fault)
  /-- the name is linked and its guard cannot be opened; is the name removed again? -/
  | guard (removed : Bool)
  /-- the name is linked and the temporary file cannot be removed -/
  | tempStays
deriving DecidableEq

def publishNoClobber (fate : PublishFate) (disk : Disk) (path : Path) (data : List UInt8) :
    Except Fault Unit × Disk :=
  match fate with
  | .before e => (.error e, disk)
  | .done => if (disk.lookup path).isSome then (.error .fileExists, disk)
    else (.ok (), disk.set path data)
  | .guard removed => if (disk.lookup path).isSome then (.error .fileExists, disk)
    else (.error .os, if removed then disk else disk.set path data)
  | .tempStays => if (disk.lookup path).isSome then (.error .fileExists, disk)
    else (.error .os, disk.set path data)

/-- One file of `_remove_attempt_members`: the bytes that stay, and the disk.  A file that another
one has replaced is left alone, and so is one that is gone. -/
def removeMember (unlinks : Bool) (disk : Disk) (path : Path) (size : Nat) : Nat × Disk :=
  if unlinks then (0, disk.pop path) else (size, disk)

/-- `_remove_attempt_members`, in the order in which it goes over the files -/
def removeAttemptMembers (unlinks : Path → Bool) : List (Path × Nat) → Disk → Nat × Disk
  | [], disk => (0, disk)
  | (path, size) :: linked, disk =>
    let r := removeMember (unlinks path) disk path size
    let rest := removeAttemptMembers unlinks linked r.2
    (r.1 + rest.1, rest.2)

/-! ## Rehydration -/

section Scan

variable (F : Type) [PyFloatNames F]

/-- `Path(name).name == name` -/
def isPlainName (name : Str) : Bool := !name.contains (.scalar '/') && decide (name ≠ .lit ".")

/-- `json.loads(manifest_path.read_text(encoding="utf-8"))` -/
def loadsFile (data : List UInt8) : Option (Json F) :=
  (decodeUtf8 data).bind fun text ↦ (loads plainHooks text).toOption

variable {F}

/-- `entry["filename"]`, if it is a string -/
def entryFilename (entry : Json F) : Option Str :=
  match entry.get? (.lit "filename") with
  | some (.str name) => some name
  | _ => none

/-- `payload["members"]`, if it is a list -/
def manifestMembers (payload : Json F) : Option (List (Json F)) :=
  match payload.get? (.lit "members") with
  | some (.list entries) => some entries
  | _ => none

/-- An integer that is at least one; `True` is one. -/
def isVersion (v : Option (Json F)) : Bool :=
  match v with
  | some (.int n) => decide (1 ≤ n)
  | some (.bool b) => b
  | _ => false

variable (F)

/-- The names a manifest claims, whether or not it is valid. -/
def claimedNames (data : List UInt8) : List Str :=
  (((loadsFile F data).bind manifestMembers).getD []).filterMap fun entry ↦
    (entryFilename entry).filter isPlainName

/-- The names of a valid manifest whose members are all there. -/
def committedNames (disk : Disk) (root : Str) (data : List UInt8) : Option (List Str) := do
  let payload ← loadsFile F data
  let entries ← manifestMembers payload
  let names ← entries.mapM entryFilename
  if isVersion (payload.get? (.lit "schema_version")) &&
    names.all (fun n ↦ isPlainName n && validMemberName n
      && (disk.lookup (root, n)).isSome) then some names else none

/-- `root.glob("*.manifest.json")` -/
def isManifestName (name : Str) : Bool := (Str.lit ".manifest.json").isSuffixOf name

def controlFiles : List Str := [.lit ".lease", .lit ".spill_fresh"]

/-- The manifests of a directory. -/
def manifestsOf (disk : Disk) (root : Str) : List (Path × List UInt8) :=
  disk.filter fun e ↦ decide (e.1.1 = root) && isManifestName e.1.2

/-- What the manifests of a directory commit, with the manifests themselves. -/
def committedIn (disk : Disk) (root : Str) : List Str :=
  (manifestsOf disk root).flatMap fun e ↦
    match committedNames F disk root e.2 with
    | some names => e.1.2 :: names
    | none => []

/-- What the manifests of a directory claim, with the manifests themselves. -/
def protectedIn (disk : Disk) (root : Str) : List Str :=
  (manifestsOf disk root).flatMap fun e ↦ e.1.2 :: claimedNames F e.2

/-- `path.stat().st_size` -/
def sizeAt (disk : Disk) (path : Path) : Nat := ((disk.lookup path).getD []).length

/-- The bytes of the committed sets of a directory. -/
def committedBytes (disk : Disk) (root : Str) : Nat :=
  ((committedIn F disk root).map fun name ↦ sizeAt disk (root, name)).sum

/-- Does the scan of the `file_tools` lane try to remove the file? -/
def isOrphan (disk : Disk) (path : Path) : Bool :=
  !(controlFiles.contains path.2 || (committedIn F disk path.1).contains path.2 ||
    (protectedIn F disk path.1).contains path.2)

/-- Does the scan of the other lanes try to remove the file? -/
def isTemp (path : Path) : Bool :=
  !controlFiles.contains path.2 && (Str.lit ".tmp").isSuffixOf path.2

/-- The directories of a tree. -/
def jobRoots (disk : Disk) : List Str := (disk.map fun e ↦ e.1.1).dedup

/-- `_scan_existing_spill_bytes`: the bytes it counts and the disk it leaves.  `unlinks` says which
files can be removed. -/
def scanExistingSpillBytes (lane : Lane) (unlinks : Path → Bool) (disk : Disk) : Nat × Disk :=
  if lane = .fileTools then
    (((jobRoots disk).map (committedBytes F disk)).sum +
        ((disk.filter fun e ↦ isOrphan F disk e.1 && !unlinks e.1).map fun e ↦ e.2.length).sum,
      disk.filter fun e ↦ !(isOrphan F disk e.1 && unlinks e.1))
  else
    (((disk.filter fun e ↦ !controlFiles.contains e.1.2 && !(isTemp e.1 && unlinks e.1)).map
        fun e ↦ e.2.length).sum,
      disk.filter fun e ↦ !(isTemp e.1 && unlinks e.1))

end Scan

/-! ## Budgets -/

/-- The one budget of a run tree; `usedBytes` is `none` before the first reservation. -/
structure SpillBudget where
  maxBytes : Option Nat
  usedBytes : Option Nat
deriving DecidableEq

/-- The files of a tree, and its budget. -/
structure Store where
  disk : Disk
  budget : SpillBudget
deriving DecidableEq

namespace Store

variable (F : Type) [PyFloatNames F]

def ensureInitialized (s : Store) (lane : Lane) (unlinks : Path → Bool) : Nat × Store :=
  match s.budget.usedBytes with
  | some used => (used, s)
  | none =>
    let r := scanExistingSpillBytes F lane unlinks s.disk
    (r.1, ⟨r.2, { s.budget with usedBytes := some r.1 }⟩)

def reserve (s : Store) (lane : Lane) (unlinks : Path → Bool) (amount : Nat) : Bool × Store :=
  let (used, s') := s.ensureInitialized F lane unlinks
  if s'.budget.maxBytes.any fun m ↦ decide (m < used + amount) then (false, s')
  else (true, { s' with budget := { s'.budget with usedBytes := some (used + amount) } })

def rollback (s : Store) (amount : Nat) : Store :=
  { s with budget := { s.budget with usedBytes := s.budget.usedBytes.map (· - amount) } }

end Store

/-! ## Writing -/

/-- What the file system and the clock do during a call, for each of its two attempts. -/
structure Weather where
  publish : Nat → Str → PublishFate
  /-- a name of more than 255 characters cannot be made (`ENAMETOOLONG`) -/
  publish_long : ∀ n name, 255 < name.length → publish n name ≠ .done
  unlinks : Nat → Path → Bool
  scanUnlinks : Nat → Path → Bool
  /-- `uuid_factory().hex`, one for the stem and one for the second attempt -/
  uuidHex : Nat → Str
  isLowerHex_uuidHex : ∀ n, ∀ p ∈ uuidHex n, isLowerHex p = true
  /-- what `after_commit` raises -/
  afterCommit : Option Fault := none

structure SpillSink where
  root : Str
  capabilities : SpillCapabilities
  maxFileBytes : Option Int

/-- `SpillPublication` -/
structure Publication where
  filename : Str
  abspath : Str
  spillRef : Str
  lane : Lane
  isJson : Bool
  memberCount : Nat
  totalChars : Nat
  largestMembers : List (Str × Role × Nat)

/-- `[A-Za-z0-9._-]` -/
def isStemChar : CodePoint → Bool
  | .scalar c => decide ('A' ≤ c ∧ c ≤ 'Z') || decide ('a' ≤ c ∧ c ≤ 'z') || c.isDigit || c = '.' ||
    c = '_' || c = '-'
  | .surrogate _ => false

/-- `re.sub(r"[^A-Za-z0-9._-]", "_", raw)[:120]` -/
def baseStem (raw : Str) : Str :=
  (raw.map fun p ↦ if isStemChar p then p else .scalar '_').take 120

def formatSpillRef (env : Env) (m : PreparedMember) : Str :=
  .lit "spill:v1:" ++ m.filename ++ .lit ":" ++ env.sha256 m.data

/-- The order of `(-chars, filename)`. -/
def longerMember (a b : PreparedMember) : Bool :=
  decide (b.chars < a.chars) || (decide (a.chars = b.chars) && decide (a.filename.le b.filename))

def publicationOf (env : Env) (sink : SpillSink) (set : PreparedSet) (pointer : PreparedMember) :
    Publication where
  filename := pointer.filename
  abspath := pathText sink.root pointer.filename
  spillRef := formatSpillRef env pointer
  lane := sink.capabilities.lane
  isJson := set.isJson
  memberCount := set.publishOrder.length
  totalChars := (set.publishOrder.map PreparedMember.chars).sum
  largestMembers := ((set.publishOrder.mergeSort longerMember).take 3).map fun m ↦
    (m.filename, m.role, m.chars)

/-- `prepared.commit_member or prepared.members[0]` -/
def PreparedSet.pointer? (set : PreparedSet) : Option PreparedMember :=
  set.commitMember.or set.members.head?

section Write

variable (F : Type) [PyFloatNames F] (env : Env) (sink : SpillSink)

/-- The loop over the members: those it has linked, the last one first, and what ended it. -/
def publishAll (fate : Str → PublishFate) (root : Str) :
    List PreparedMember → List (Path × Nat) → Disk → Except Fault Unit × List (Path × Nat) × Disk
  | [], linked, disk => (.ok (), linked, disk)
  | m :: ms, linked, disk =>
    match containedMemberPath m.filename with
    | .error e => (.error e, linked, disk)
    | .ok () =>
      match publishNoClobber (fate m.filename) disk (root, m.filename) m.data with
      | (.error e, disk') => (.error e, linked, disk')
      | (.ok (), disk') => publishAll fate root ms (((root, m.filename), m.data.length) :: linked)
        disk'

def totalBytes (members : List PreparedMember) : Nat := (members.map fun m ↦ m.data.length).sum

/-- The member that is too large. -/
def oversized (members : List PreparedMember) : Option PreparedMember :=
  match sink.maxFileBytes with
  | none => none
  | some cap => members.find? fun m ↦ decide (cap < m.data.length)

def oversizedMessage (m : PreparedMember) : Str :=
  .lit "spill member " ++ m.filename ++ .lit " exceeds per-file cap (" ++ natText m.data.length ++
    .lit " > " ++ (intText (sink.maxFileBytes.getD 0)).map .scalar ++ .lit ")"

/-- One pass of the loop in `write_spill_set`: the set that was published, and what is left. -/
def attempt (w : Weather) (n : Nat) (stem : Str) (content : List Char) (modelMaxChars : Int)
    (s : Store) : Except Fault PreparedSet × Store :=
  match prepareSet F env sink.root stem content sink.capabilities.lane modelMaxChars with
  | .error e => (.error e, s)
  | .ok set =>
    match oversized sink set.publishOrder with
    | some m => (.error (.limit (oversizedMessage sink m)), s)
    | none =>
      match s.reserve F sink.capabilities.lane (w.scanUnlinks n) (totalBytes set.publishOrder) with
      | (false, s') => (.error (.limit (.lit "spill run budget exceeded")), s')
      | (true, s') =>
        match publishAll (w.publish n) sink.root set.publishOrder [] s'.disk with
        | (.ok (), _, disk) => (.ok set, { s' with disk })
        | (.error e, linked, disk) =>
          let (retained, disk') := removeAttemptMembers (w.unlinks n) linked disk
          (.error e, Store.rollback { s' with disk := disk' }
            (totalBytes set.publishOrder - retained))

/-- What is returned for a published set. -/
def publicationFor (w : Weather) (set : PreparedSet) : Except Fault Publication :=
  match w.afterCommit with
  | some e => .error e
  | none =>
    match set.pointer? with
    | some pointer => .ok (publicationOf env sink set pointer)
    | none => .error (.error (.lit "empty set"))

/-- `f"{tool_name}_{tool_use_id or uuid_factory().hex}"`; the id is `none` if it is falsy -/
def rawStem (w : Weather) (toolName : Str) (toolUseId : Option Str) : Str :=
  toolName ++ .lit "_" ++ toolUseId.getD (w.uuidHex 0)

/-- The set a call publishes, and what it leaves. -/
def writtenSet (w : Weather) (toolName : Str) (toolUseId : Option Str) (content : List Char)
    (modelMaxChars : Int) (s : Store) : Except Fault PreparedSet × Store :=
  let stem := baseStem (rawStem w toolName toolUseId)
  match attempt F env sink w 0 stem content modelMaxChars s with
  | (.error .fileExists, s') =>
    attempt F env sink w 1 (stem ++ .lit "_" ++ (w.uuidHex 1).take 8) content modelMaxChars s'
  | r => r

def writeSpillSet (w : Weather) (toolName : Str) (toolUseId : Option Str) (content : List Char)
    (modelMaxChars : Int) (s : Store) : Except Fault Publication × Store :=
  match writtenSet F env sink w toolName toolUseId content modelMaxChars s with
  | (.error e, s') => (.error e, s')
  | (.ok set, s') => (publicationFor env sink w set, s')

end Write

/-! ## A quiet day -/

/-- An environment to run the functions in: every hash is the same. -/
def sampleEnv : Env where
  sha256 _ := List.replicate 64 (.scalar '0')
  length_sha256 _ := List.length_replicate
  isLowerHex_sha256 _ p hp := by rw [List.eq_of_mem_replicate hp]; rfl
  lower s := s
  scaled n := max 0 n * 4 / 5
  digit
    | .scalar c => if c.isDigit then some (c.toNat - '0'.toNat) else none
    | .surrogate _ => none
  digit_ascii _ _ := rfl

/-- Nothing fails. -/
def calm : Weather where
  publish _ name := if name.length ≤ 255 then .done else .before .os
  publish_long _ name h := by rw [if_neg (by omega)]; simp
  unlinks _ _ := true
  scanUnlinks _ _ := true
  uuidHex _ := List.replicate 32 (.scalar '0')
  isLowerHex_uuidHex _ p hp := by rw [List.eq_of_mem_replicate hp]; rfl

theorem exists_ok_of_any_fst {ε α σ : Type} {x : Except ε α × σ} {p : α × σ → Bool}
    (h : (x.1.toOption.any fun a ↦ p (a, x.2)) = true) : ∃ a s, x = (.ok a, s) ∧
      p (a, s) = true := by
  obtain ⟨r, s⟩ := x
  obtain ⟨a, rfl, ha⟩ := exists_ok_of_any h
  exact ⟨a, s, rfl, ha⟩

/-- A tree with no files and no limit. -/
def emptyStore : Store := ⟨[], ⟨none, none⟩⟩

/-! ## What a call leaves -/

/-- The members stand under their names, which are different. -/
structure Published (root : Str) (members : List PreparedMember) (disk : Disk) : Prop where
  valid : ∀ m ∈ members, validMemberName m.filename = true
  short : ∀ m ∈ members, m.filename.length ≤ 255
  lookup : ∀ m ∈ members, disk.lookup (root, m.filename) = some m.data
  nodup : (members.map PreparedMember.filename).Nodup

theorem publishNoClobber_ok {fate : PublishFate} {disk disk' : Disk} {path : Path}
    {data : List UInt8}
    (h : publishNoClobber fate disk path data = (.ok (), disk')) :
    fate = .done ∧ disk.lookup path = none ∧ disk' = disk.set path data := by
  rw [publishNoClobber.eq_def] at h
  cases fate with
  | done =>
    dsimp only at h
    split at h
    · cases h
    next hnone =>
      rw [Option.not_isSome_iff_eq_none] at hnone
      cases h
      exact ⟨rfl, hnone, rfl⟩
  | before => cases h
  | guard =>
    dsimp only at h
    split at h <;> cases h
  | tempStays =>
    dsimp only at h
    split at h <;> cases h

theorem containedMemberPath_ok {filename : Str} (h : containedMemberPath filename = .ok ()) :
    validMemberName filename = true := by
  simpa [containedMemberPath] using h

/-- A loop that went to its end has published all members, under names that were free, and has left
the other files alone. -/
theorem publishAll_ok {fate : Str → PublishFate} {root : Str}
    (hlong : ∀ name, 255 < name.length → fate name ≠ .done) {ms : List PreparedMember}
    {linked linked' : List (Path × Nat)} {disk disk' : Disk}
    (h : publishAll fate root ms linked disk = (.ok (), linked', disk')) :
    Published root ms disk' ∧ (∀ m ∈ ms, disk.lookup (root, m.filename) = none) ∧
      ∀ path, (∀ m ∈ ms, path ≠ (root, m.filename)) → disk'.lookup path = disk.lookup path := by
  induction ms generalizing linked disk with
  | nil =>
    cases h
    exact ⟨⟨by simp, by simp, by simp, by simp⟩, by simp, fun _ _ ↦ rfl⟩
  | cons m ms ih =>
    rw [publishAll] at h
    split at h
    · cases h
    next hname =>
      split at h
      · cases h
      next disk₁ hpub =>
        obtain ⟨hdone, hfree, rfl⟩ := publishNoClobber_ok hpub
        have hshort : m.filename.length ≤ 255 := Nat.le_of_not_lt fun h ↦ hlong _ h hdone
        obtain ⟨hall, hnone, hother⟩ := ih h
        have hne : ∀ x ∈ ms, (root, x.filename) ≠ (root, m.filename) := by
          intro x hx heq
          have := hnone x hx
          rw [heq, Dict.lookup_set, if_pos rfl] at this
          cases this
        refine ⟨⟨?_, ?_, ?_, ?_⟩, ?_, ?_⟩
        · exact List.forall_mem_cons.2 ⟨containedMemberPath_ok hname, hall.valid⟩
        · exact List.forall_mem_cons.2 ⟨hshort, hall.short⟩
        · refine List.forall_mem_cons.2 ⟨?_, hall.lookup⟩
          rw [hother _ fun x hx ↦ (hne x hx).symm, Dict.lookup_set, if_pos rfl]
        · rw [List.map_cons, List.nodup_cons]
          refine ⟨fun hmem ↦ ?_, hall.nodup⟩
          obtain ⟨x, hx, hxm⟩ := List.mem_map.1 hmem
          exact hne x hx (by rw [hxm])
        · refine List.forall_mem_cons.2 ⟨hfree, fun x hx ↦ ?_⟩
          have := hnone x hx
          rwa [Dict.lookup_set, if_neg (hne x hx)] at this
        · intro path hpath
          rw [List.forall_mem_cons] at hpath
          rw [hother path hpath.2, Dict.lookup_set, if_neg hpath.1]

/-- What the set of a call that published it is. -/
structure Written (F : Type) [PyFloatNames F] (env : Env) (sink : SpillSink) (content : List Char)
    (modelMaxChars : Int) (stem : Str) (set : PreparedSet) (disk : Disk) : Prop where
  prepared : prepareSet F env sink.root stem content sink.capabilities.lane modelMaxChars = .ok set
  sizes : oversized sink set.publishOrder = none
  published : Published sink.root set.publishOrder disk

section Written

variable {F : Type} [PyFloatNames F] {env : Env} {sink : SpillSink} {content : List Char}
  {modelMaxChars : Int} {w : Weather} {s s' : Store} {set : PreparedSet}

theorem attempt_ok {n : Nat} {stem : Str}
    (h : attempt F env sink w n stem content modelMaxChars s = (.ok set, s')) :
    Written F env sink content modelMaxChars stem set s'.disk := by
  rw [attempt] at h
  split at h
  · cases h
  next set' hprep =>
    split at h
    · cases h
    next hsizes =>
      split at h
      · cases h
      · split at h
        next hpub =>
          cases h
          exact ⟨hprep, hsizes, (publishAll_ok (w.publish_long n) hpub).1⟩
        · cases h

/-- The stem of the first attempt, or the one of the second. -/
theorem writtenSet_ok {toolName : Str} {toolUseId : Option Str}
    (h : writtenSet F env sink w toolName toolUseId content modelMaxChars s = (.ok set, s')) :
    ∃ suffix : Str, (suffix = [] ∨ suffix = .lit "_" ++ (w.uuidHex 1).take 8) ∧
      Written F env sink content modelMaxChars (baseStem (rawStem w toolName toolUseId) ++ suffix)
        set
        s'.disk := by
  rw [writtenSet] at h
  split at h
  · rw [List.append_assoc] at h
    exact ⟨_, .inr rfl, attempt_ok h⟩
  · refine ⟨[], .inl rfl, ?_⟩
    rw [List.append_nil]
    exact attempt_ok h

/-- **A call that returned has published a set**, and its publication is about that set. -/
theorem writeSpillSet_ok {toolName : Str} {toolUseId : Option Str} {pub : Publication}
    (h : writeSpillSet F env sink w toolName toolUseId content modelMaxChars s = (.ok pub, s')) :
    ∃ set pointer, writtenSet F env sink w toolName toolUseId content modelMaxChars s =
      (.ok set, s') ∧
      set.pointer? = some pointer ∧ pub = publicationOf env sink set pointer := by
  rw [writeSpillSet] at h
  split at h
  · cases h
  next set s'' hset =>
    obtain ⟨hpub, rfl⟩ := Prod.mk.inj h
    rw [publicationFor] at hpub
    split at hpub
    · cases hpub
    · split at hpub
      next pointer hpointer =>
        cases hpub
        exact ⟨set, pointer, hset, hpointer, rfl⟩
      · cases hpub

end Written

/-! ## Stems -/

theorem isStemChar_of_isLowerHex {p : CodePoint} (h : isLowerHex p = true) :
    isStemChar p = true := by
  cases p with
  | surrogate => cases h
  | scalar c =>
    simp only [isLowerHex, Bool.or_eq_true, decide_eq_true_eq] at h
    simp only [isStemChar, Bool.or_eq_true, decide_eq_true_eq]
    rcases h with h | ⟨h1, h2⟩
    · simp [h]
    · have : c ≤ 'z' := Char.le_trans h2 (by decide)
      simp [h1, this]

theorem isStemChar_baseStem {raw : Str} : ∀ p ∈ baseStem raw, isStemChar p = true := by
  intro p hp
  obtain ⟨q, -, rfl⟩ := List.mem_map.1 (List.mem_of_mem_take hp)
  split
  next h => exact h
  · rfl

theorem length_baseStem_le (raw : Str) : (baseStem raw).length ≤ 120 := by
  rw [baseStem, List.length_take]
  omega

/-- Every stem is made of the characters the names of spills have, and is short. -/
theorem isStemChar_stem {w : Weather} {raw suffix : Str}
    (h : suffix = [] ∨ suffix = .lit "_" ++ (w.uuidHex 1).take 8) :
    (∀ p ∈ baseStem raw ++ suffix, isStemChar p = true) ∧
      (baseStem raw ++ suffix).length ≤ 129 := by
  have hbase := length_baseStem_le raw
  rcases h with rfl | rfl
  · rw [List.append_nil]
    exact ⟨isStemChar_baseStem, by omega⟩
  · constructor
    · intro p hp
      rcases List.mem_append.1 hp with hp | hp
      · exact isStemChar_baseStem p hp
      · rcases List.mem_append.1 hp with hp | hp
        · rw [List.mem_singleton.1 (by simpa [Str.lit] using hp : p ∈ [CodePoint.scalar '_'])]
          rfl
        · exact isStemChar_of_isLowerHex (w.isLowerHex_uuidHex 1 p (List.mem_of_mem_take hp))
    · simp only [List.length_append, List.length_take, Str.lit, List.length_map]
      have : ("_".toList).length = 1 := by decide
      omega

end AgentGateway.Spill
