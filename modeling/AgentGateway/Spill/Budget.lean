import AgentGateway.Py.Runs
import AgentGateway.Spill.Rebuild

/-!
# The budget of a run tree

All sinks of one run tree, the root's and those of its jobs, reserve bytes in one `SpillBudget`.
Their calls run in threads of their own, so a reservation, the publication of a file, the removal of
one and a rollback of one call may stand between those of another, and the process may be killed
between any two of them.  `Tree.step` is one such step, made of the functions `attempt` is made of,
and a run of the tree is a list of them.

A `Tree` also remembers the sets that were published as a whole, and what the last rehydration
counted.

* `Tree.Inv` holds along every run in which no publication raises and leaves its name behind: what
  the budget counts covers the files on the disk and what the calls under way still have to publish.
* `spill_budget_covers_disk` and `manifest_has_its_files` are what follows for the disk, and
  `failed_publication_is_not_counted` is a run with such a publication.
-/

open Py

namespace AgentGateway.Spill

/-! ## Steps -/

/-- How far an attempt is that has reserved its bytes. -/
inductive Phase where
  /-- these members are still to be published -/
  | publishing (pending : List PreparedMember)
  /-- a publication has failed; so many bytes could not be removed -/
  | cleaning (retained : Nat)
deriving DecidableEq

/-- An attempt of a call of `write_spill_set`. -/
structure Writer where
  root : Str
  set : PreparedSet
  /-- what it has linked, the last one first; while it cleans up, what it has not yet come to -/
  linked : List PreparedMember
  phase : Phase

/-- The files of a tree, its budget, and the attempts under way. -/
structure Tree where
  store : Store
  writers : List Writer
  /-- the sets that were published, with their directories -/
  committed : List (Str × PreparedSet)
  /-- what the budget started with in this process -/
  rehydrated : Nat

inductive Op where
  /-- an attempt reserves its bytes; `stray` are the bytes of temporary files that the first
reservation could not remove -/
  | reserve (sink : SpillSink) (stem : Str) (content : List Char) (modelMaxChars : Int)
    (unlinks : Path → Bool) (stray : Nat)
  /-- the first reservation raises while it looks at the files -/
  | scanRaises (unlinks : Path → Bool)
  | publish (i : Nat) (fate : PublishFate)
  | clean (i : Nat) (unlinks : Bool)
  | rollback (i : Nat)
  /-- the process dies, and another one builds a budget -/
  | restart (maxBytes : Option Nat)

namespace Tree

variable (F : Type) [PyFloatNames F] (env : Env) (lane : Lane)

/-- A tree without files. -/
def start (maxBytes : Option Nat) : Tree := ⟨⟨[], ⟨maxBytes, none⟩⟩, [], [], 0⟩

/-- `_ensure_initialized` -/
def rehydrate (t : Tree) (unlinks : Path → Bool) (stray : Nat) : Tree :=
  match t.store.budget.usedBytes with
  | some _ => t
  | none =>
    let r := scanExistingSpillBytes F lane unlinks t.store.disk
    { t with store := ⟨r.2, { t.store.budget with usedBytes := some (r.1 + stray) }⟩,
             rehydrated := r.1 + stray }

/-- An attempt reserves the bytes of its set.  The sinks of a tree have one lane. -/
def reserve (t : Tree) (sink : SpillSink) (stem : Str) (content : List Char) (modelMaxChars : Int)
    (unlinks : Path → Bool) (stray : Nat) : Tree :=
  if sink.capabilities.lane ≠ lane then t else
  match prepareSet F env sink.root stem content lane modelMaxChars with
  | .error _ => t
  | .ok set =>
    if (oversized sink set.publishOrder).isSome then t else
    let t' := t.rehydrate F lane unlinks stray
    match t'.store.reserve F lane unlinks (totalBytes set.publishOrder) with
    | (false, store) => { t' with store := store }
    | (true, store) => { t' with
        store := store,
        writers := t'.writers ++ [⟨sink.root, set, [], .publishing set.publishOrder⟩] }

/-- An attempt publishes its next member. -/
def publish (t : Tree) (i : Nat) (fate : PublishFate) : Tree :=
  match t.writers[i]? with
  | some ⟨root, set, linked, .publishing (m :: pending)⟩ =>
    match containedMemberPath m.filename with
    | .error _ => { t with writers := t.writers.set i ⟨root, set, linked, .cleaning 0⟩ }
    | .ok () =>
      match publishNoClobber fate t.store.disk (root, m.filename) m.data with
      | (.error _, disk) => { t with
          store := { t.store with disk }, writers :=
            t.writers.set i ⟨root, set, linked, .cleaning 0⟩ }
      | (.ok (), disk) =>
        if pending = [] then { t with
          store := { t.store with disk }, writers := t.writers.eraseIdx i,
          committed := (root, set) :: t.committed }
        else { t with
          store := { t.store with disk },
          writers := t.writers.set i ⟨root, set, m :: linked, .publishing pending⟩ }
  | _ => t

/-- An attempt that has failed removes the next file. -/
def clean (t : Tree) (i : Nat) (unlinks : Bool) : Tree :=
  match t.writers[i]? with
  | some ⟨root, set, m :: linked, .cleaning retained⟩ =>
    let r := removeMember unlinks t.store.disk (root, m.filename) m.data.length
    { t with store := { t.store with disk := r.2 },
             writers := t.writers.set i ⟨root, set, linked, .cleaning (retained + r.1)⟩ }
  | _ => t

/-- An attempt that has cleaned up gives its bytes back. -/
def rollback (t : Tree) (i : Nat) : Tree :=
  match t.writers[i]? with
  | some ⟨_, set, [], .cleaning retained⟩ =>
    { t with store := t.store.rollback (totalBytes set.publishOrder - retained),
             writers := t.writers.eraseIdx i }
  | _ => t

def step (t : Tree) : Op → Tree
  | .reserve sink stem content modelMaxChars unlinks stray =>
    t.reserve F env lane sink stem content modelMaxChars unlinks stray
  | .scanRaises unlinks =>
    if t.store.budget.usedBytes.isSome then t
    else { t with store := { t.store with
      disk := (scanExistingSpillBytes F lane unlinks t.store.disk).2 } }
  | .publish i fate => t.publish i fate
  | .clean i unlinks => t.clean i unlinks
  | .rollback i => t.rollback i
  | .restart maxBytes => ⟨⟨t.store.disk, ⟨maxBytes, none⟩⟩, [], t.committed, 0⟩

end Tree

/-- The bytes of the files of a tree. -/
def diskBytes (disk : Disk) : Nat := (disk.map fun e ↦ e.2.length).sum

/-- If it raises after the name was linked, the name is removed again. -/
def PublishFate.tidy : PublishFate → Bool
  | .done | .before _ | .guard true => true
  | .guard false | .tempStays => false

def Op.tidy : Op → Bool
  | .publish _ fate => fate.tidy
  | _ => true

open List

/-! ## Names -/

section Names

variable {F : Type} [PyFloatNames F] {env : Env} {lane : Lane} {root stem : Str}
  {content : List Char}
  {modelMaxChars : Int} {set : PreparedSet}

/-- A set of the `file_tools` lane: its members, whose names are not those of manifests, and its
manifest. -/
theorem prepareSet_names (h : prepareSet F env root stem content .fileTools modelMaxChars =
      .ok set) :
    (∀ m ∈ set.members, IsFile memberSuffixes stem m) ∧
      ∃ manifest isJson n refs, set.commitMember = some manifest ∧
        IsManifest F env stem isJson n set.members refs manifest := by
  rcases prepareSet_cases h with ⟨-, h⟩ | ⟨h, -⟩
  · exact h
  · exact absurd rfl h

/-- A name that no scan skips and the scan of the other lanes does not remove. -/
def IsSpillName (name : Str) : Prop := name ∉ controlFiles ∧ isTemp ([], name) = false

theorem isSpillName_of_suffix {name : Str} (h : ∃ e ∈ fileSuffixes, e <:+ name) :
    IsSpillName name := by
  obtain ⟨e, he, hname⟩ := h
  have hcontrol : ∀ e ∈ fileSuffixes, ∀ c ∈ controlFiles, ¬ e <:+ c := by decide
  have htmp : ∀ e ∈ fileSuffixes, ¬ e <:+ Str.lit ".tmp" ∧ ¬ Str.lit ".tmp" <:+ e := by decide
  refine ⟨fun hc ↦ hcontrol e he name hc hname, ?_⟩
  have hsuffix : (Str.lit ".tmp").isSuffixOf name = false := by
    rw [Bool.eq_false_iff, Ne, isSuffixOf_iff_suffix]
    exact not_suffix_of_suffix hname (htmp e he).1 (htmp e he).2
  rw [isTemp, hsuffix, Bool.and_false]

theorem prepareSet_isSpillName (h : prepareSet F env root stem content lane modelMaxChars =
      .ok set) :
    ∀ m ∈ set.publishOrder, IsSpillName m.filename :=
  fun m hm ↦ isSpillName_of_suffix (prepareSet_files h m hm).suffix

end Names

/-! ## What a manifest commits -/

section Manifests

variable {F : Type} [PyFloatNames F] {env : Env} {stem : Str} {isJson : Bool} {n : Nat}
  {members : List PreparedMember} {refs : List Ref} {manifest : PreparedMember} {disk : Disk}
    {root : Str}

theorem isPlainName_of_valid {name : Str} (h : validMemberName name = true) :
    isPlainName name = true := by
  simp only [validMemberName, isPlainName, Bool.and_eq_true, contains_cons, Bool.not_eq_true',
    Bool.or_eq_false_iff, beq_eq_false_iff_ne, decide_eq_true_eq] at h ⊢
  exact ⟨h.1, h.2.2.1⟩

section

variable (hman : IsManifest F env stem isJson n members refs manifest)

include hman

theorem loadsFile_manifest :
    ∃ rest : List (Json F), loadsFile F manifest.data =
      some (manifestPayload env stem isJson n members rest) := by
  obtain ⟨text, rest, hdata, hloads⟩ := hman.data
  refine ⟨refs.map fun r ↦ manifestRef r (rest r), ?_⟩
  rw [loadsFile, hdata, decodeUtf8_encodeUtf8, Option.bind_some, hloads]
  rfl

omit hman in
omit [PyFloatNames F] in
theorem mapM_entryFilename (members : List PreparedMember) :
    (members.map (manifestEntry (F := F) env)).mapM entryFilename =
      some (members.map PreparedMember.filename) := by
  induction members with
  | nil => rfl
  | cons m members ih =>
    rw [map_cons, mapM_cons, ih]
    simp [entryFilename]

theorem committedNames_manifest (hall : ∀ m ∈ members, validMemberName m.filename = true ∧
      (disk.lookup (root, m.filename)).isSome = true) :
    committedNames F disk root manifest.data = some (members.map PreparedMember.filename) := by
  obtain ⟨rest, hfile⟩ := loadsFile_manifest hman
  have hnames : (members.map PreparedMember.filename).all (fun name ↦ isPlainName name &&
      validMemberName name && (disk.lookup (root, name)).isSome) = true := by
    simp only [all_map, all_eq_true, Function.comp_apply, Bool.and_eq_true]
    exact fun m hm ↦ ⟨⟨isPlainName_of_valid (hall m hm).1, (hall m hm).1⟩, (hall m hm).2⟩
  rw [committedNames, hfile]
  simp only [Option.bind_eq_bind, Option.bind_some, manifestMembers, get?_manifestPayload,
    mapM_entryFilename, isVersion, hnames]
  rfl

theorem claimedNames_manifest :
    claimedNames F manifest.data ⊆ members.map PreparedMember.filename := by
  obtain ⟨rest, hfile⟩ := loadsFile_manifest hman
  intro name hname
  rw [claimedNames, hfile] at hname
  simp only [Option.bind_some, manifestMembers, get?_manifestPayload, Option.getD_some,
    mem_filterMap, mem_map, Option.filter_eq_some_iff] at hname
  obtain ⟨entry, ⟨m, hm, rfl⟩, hentry, -⟩ := hname
  simp only [entryFilename, get?_manifestEntry, Option.some.injEq] at hentry
  exact mem_map.2 ⟨m, hm, hentry⟩

end

end Manifests

/-! ## Rehydration -/

variable {path : Path}

theorem diskBytes_set {disk : Disk} (h : disk.lookup path = none) (data : List UInt8) :
    diskBytes (disk.set path data) = diskBytes disk + data.length := by
  have hnot : path ∉ disk.map Prod.fst := by
    intro hmem
    obtain ⟨e, he, rfl⟩ := mem_map.1 hmem
    simpa using lookup_eq_none_iff.1 h e he
  rw [Dict.set, if_neg hnot, diskBytes, map_append, sum_append]
  rfl

theorem diskBytes_pop {disk : Disk} (hnd : (disk.map Prod.fst).Nodup) {data : List UInt8}
    (h : disk.lookup path = some data) :
    diskBytes (disk.pop path) + data.length = diskBytes disk := by
  have hmem := Dict.mem_of_lookup h
  have hpop : disk.pop path = disk.erase (path, data) := by
    rw [hnd.of_map.erase_eq_filter, Dict.pop]
    refine filter_congr fun e he ↦ Bool.eq_iff_iff.2 ?_
    rw [decide_eq_true_iff, bne_iff_ne]
    exact not_congr ⟨inj_on_of_nodup_map hnd he hmem, fun heq ↦ by rw [heq]⟩
  rw [diskBytes, hpop, Nat.add_comm]
  exact ((perm_cons_erase hmem).map fun e ↦ e.2.length).sum_eq.symm

theorem sum_filter_not_and {α : Type} (l : List α) (p q : α → Bool) (f : α → Nat) :
    ((l.filter fun x ↦ !(p x && q x)).map f).sum =
      ((l.filter fun x ↦ !p x).map f).sum + ((l.filter fun x ↦ p x && !q x).map f).sum := by
  have hperm := (filter_append_perm (fun x ↦ !p x) (l.filter fun x ↦ !(p x && q x))).map f
  rw [filter_filter, filter_filter] at hperm
  rw [← hperm.sum_eq, map_append, sum_append]
  congr 4
  · funext x
    cases p x <;> simp
  · funext x
    cases p x <;> simp

section Scan

variable {F : Type} [PyFloatNames F] {lane : Lane} {disk : Disk}

/-- Files whose names are among those of a list are no larger than the files of the list. -/
theorem sum_length_le_sum_sizeAt {l : Disk} (hl : l.Sublist disk) (hnd : (disk.map Prod.fst).Nodup)
    {paths : List Path} (h : ∀ e ∈ l, e.1 ∈ paths) :
    (l.map fun e ↦ e.2.length).sum ≤ (paths.map (sizeAt disk)).sum := by
  have hsize : (l.map fun e ↦ e.2.length) = (l.map Prod.fst).map (sizeAt disk) := by
    rw [map_map]
    refine map_congr_left fun e he ↦ ?_
    rw [Function.comp_apply, sizeAt, Dict.lookup_of_mem hnd (hl.subset he), Option.getD_some]
  have hkeys : (l.map Prod.fst).Nodup := hnd.sublist (hl.map _)
  have hsub : l.map Prod.fst ⊆ paths := by
    intro path hpath
    obtain ⟨e, he, rfl⟩ := mem_map.1 hpath
    exact h e he
  obtain ⟨l', hperm, hl'⟩ := List.Nodup.subperm hkeys hsub
  rw [hsize, ← (hperm.map (sizeAt disk)).sum_eq]
  exact (hl'.map _).sum_le_sum (by simp)

/-- Every manifest on the disk is valid, and its members are there. -/
def AllCommitted (F : Type) [PyFloatNames F] (disk : Disk) : Prop :=
  ∀ e ∈ disk, isManifestName e.1.2 = true →
    ∃ names, committedNames F disk e.1.1 e.2 = some names ∧ claimedNames F e.2 ⊆ names

theorem mem_manifestsOf {root : Str} {e : Path × List UInt8} :
    e ∈ manifestsOf disk root ↔ e ∈ disk ∧ e.1.1 = root ∧ isManifestName e.1.2 = true := by
  simp [manifestsOf]

theorem protectedIn_subset_committedIn (h : AllCommitted F disk) (root : Str) :
    protectedIn F disk root ⊆ committedIn F disk root := by
  intro name hname
  obtain ⟨e, he, hclaims⟩ := mem_flatMap.1 hname
  obtain ⟨hdisk, rfl, hmanifest⟩ := mem_manifestsOf.1 he
  obtain ⟨names, hnames, hclaimed⟩ := h e hdisk hmanifest
  refine mem_flatMap.2 ⟨e, he, ?_⟩
  rw [hnames]
  rcases mem_cons.1 hclaims with rfl | hclaims
  · exact mem_cons_self
  · exact mem_cons_of_mem _ (hclaimed hclaims)

/-- If the manifests are valid, what the scan leaves alone is counted among the committed sets. -/
theorem mem_committedIn_of_not_isOrphan (h : AllCommitted F disk) (hname : IsSpillName path.2)
    (horphan : isOrphan F disk path = false) :
    path.2 ∈ committedIn F disk path.1 := by
  simp only [isOrphan, Bool.not_eq_false', Bool.or_eq_true, contains_iff_mem] at horphan
  rcases horphan with (hcontrol | hcommitted) | hprotected
  · exact absurd hcontrol hname.1
  · exact hcommitted
  · exact protectedIn_subset_committedIn h _ hprotected

theorem scan_sublist (unlinks : Path → Bool) :
    (scanExistingSpillBytes F lane unlinks disk).2.Sublist disk := by
  rw [scanExistingSpillBytes]
  split
  · exact filter_sublist
  · exact filter_sublist

/-- **What a rehydration counts covers what it leaves.** -/
theorem diskBytes_scan_le (hnd : (disk.map Prod.fst).Nodup) (hnames : ∀ e ∈ disk, IsSpillName e.1.2)
    (hall : lane = .fileTools → AllCommitted F disk) (unlinks : Path → Bool) :
    diskBytes (scanExistingSpillBytes F lane unlinks disk).2 ≤
      (scanExistingSpillBytes F lane unlinks disk).1 := by
  by_cases hlane : lane = .fileTools
  · rw [scanExistingSpillBytes, if_pos hlane]
    dsimp only
    -- the files it leaves are those of committed sets, and orphans it could not remove
    have hsplit : diskBytes (disk.filter fun e ↦ !(isOrphan F disk e.1 && unlinks e.1)) =
        ((disk.filter fun e ↦ !isOrphan F disk e.1).map fun e ↦ e.2.length).sum +
          ((disk.filter fun e ↦ isOrphan F disk e.1 && !unlinks e.1).map fun e ↦
            e.2.length).sum := by
      exact sum_filter_not_and disk _ _ _
    have hcommitted : ((disk.filter fun e ↦ !isOrphan F disk e.1).map fun e ↦ e.2.length).sum ≤
        (((jobRoots disk).flatMap fun root ↦
          (committedIn F disk root).map fun name ↦ (root, name)).map (sizeAt disk)).sum := by
      refine sum_length_le_sum_sizeAt filter_sublist hnd fun e he ↦ ?_
      obtain ⟨hdisk, horphan⟩ := mem_filter.1 he
      rw [Bool.not_eq_true'] at horphan
      refine mem_flatMap.2 ⟨e.1.1, ?_, mem_map.2 ⟨e.1.2, ?_, rfl⟩⟩
      · exact mem_dedup.2 (mem_map.2 ⟨e, hdisk, rfl⟩)
      · exact mem_committedIn_of_not_isOrphan (hall hlane) (hnames e hdisk) horphan
    have hbytes : (((jobRoots disk).flatMap fun root ↦
          (committedIn F disk root).map fun name ↦ (root, name)).map (sizeAt disk)).sum =
        ((jobRoots disk).map (committedBytes F disk)).sum := by
      generalize jobRoots disk = roots
      induction roots with
      | nil => rfl
      | cons root roots ih =>
        rw [flatMap_cons, map_append, sum_append, ih, map_cons, sum_cons,
          committedBytes, map_map]
        rfl
    omega
  · rw [scanExistingSpillBytes, if_neg hlane, diskBytes]
    have hcongr :
      (disk.filter fun e ↦ !controlFiles.contains e.1.2 && !(isTemp e.1 && unlinks e.1)) =
        disk.filter fun e ↦ !(isTemp e.1 && unlinks e.1) := by
      refine filter_congr fun e he ↦ ?_
      have hcontrol : controlFiles.contains e.1.2 = false := by
        simpa using (hnames e he).1
      rw [hcontrol]
      rfl
    rw [hcongr]

/-- A rehydration keeps what is not an orphan. -/
theorem lookup_scan {unlinks : Path → Bool}
    (h : if lane = .fileTools then isOrphan F disk path = false else isTemp path = false) :
    (scanExistingSpillBytes F lane unlinks disk).2.lookup path = disk.lookup path := by
  rw [scanExistingSpillBytes]
  by_cases hlane : lane = .fileTools
  · rw [if_pos hlane] at h ⊢
    rw [Dict.lookup_filter disk fun path ↦ !(isOrphan F disk path && unlinks path), h]
    rfl
  · rw [if_neg hlane] at h ⊢
    rw [Dict.lookup_filter disk fun path ↦ !(isTemp path && unlinks path), h]
    rfl

end Scan

/-! ## The invariant -/

/-- Files of a directory, with their contents. -/
def filesOf (root : Str) (members : List PreparedMember) : List (Path × List UInt8) :=
  members.map fun m ↦ ((root, m.filename), m.data)

def Writer.files (w : Writer) : List (Path × List UInt8) := filesOf w.root w.linked

/-- The bytes an attempt has reserved for files that are not on the disk. -/
def Writer.slack (w : Writer) : Nat :=
  match w.phase with
  | .publishing pending => totalBytes pending
  | .cleaning retained => totalBytes w.set.publishOrder - (totalBytes w.linked + retained)

/-- The files that belong to an attempt under way or to a published set. -/
def heldBy (writers : List Writer) (committed : List (Str × PreparedSet)) :
    List (Path × List UInt8) :=
  writers.flatMap Writer.files ++ committed.flatMap fun c ↦ filesOf c.1 c.2.publishOrder

/-- The files are on the disk, each under a name of its own. -/
structure Held (disk : Disk) (files : List (Path × List UInt8)) : Prop where
  nodup : (files.map Prod.fst).Nodup
  there : ∀ f ∈ files, disk.lookup f.1 = some f.2
  valid : ∀ f ∈ files, validMemberName f.1.2 = true

namespace Held

variable {disk disk' : Disk} {files files' : List (Path × List UInt8)} {f : Path × List UInt8}

theorem perm (h : Held disk files) (hperm : files'.Perm files) : Held disk files' :=
  ⟨(hperm.map _).nodup_iff.2 h.nodup, fun x hx ↦ h.there x (hperm.subset hx),
    fun x hx ↦ h.valid x (hperm.subset hx)⟩

theorem sublist (h : Held disk files) (hsub : files'.Sublist files) : Held disk files' :=
  ⟨h.nodup.sublist (hsub.map _), fun x hx ↦ h.there x (hsub.subset hx),
    fun x hx ↦ h.valid x (hsub.subset hx)⟩

theorem of_lookup (h : Held disk files) (hsame : ∀ f ∈ files, disk'.lookup f.1 = disk.lookup f.1) :
    Held disk' files :=
  ⟨h.nodup, fun x hx ↦ (hsame x hx).trans (h.there x hx), h.valid⟩

/-- A file is published under a name that was free. -/
theorem add (h : Held disk files) (hfree : disk.lookup path = none)
    (hvalid : validMemberName path.2 = true) (data : List UInt8) :
    Held (disk.set path data) ((path, data) :: files) := by
  have hne : ∀ x ∈ files, x.1 ≠ path := by
    intro x hx heq
    have := h.there x hx
    rw [heq, hfree] at this
    cases this
  refine ⟨?_, ?_, forall_mem_cons.2 ⟨hvalid, h.valid⟩⟩
  · rw [map_cons, nodup_cons]
    refine ⟨fun hmem ↦ ?_, h.nodup⟩
    obtain ⟨x, hx, heq⟩ := mem_map.1 hmem
    exact hne x hx heq
  · refine forall_mem_cons.2 ⟨?_, fun x hx ↦ ?_⟩
    · rw [Dict.lookup_set, if_pos rfl]
    · rw [Dict.lookup_set, if_neg (hne x hx)]
      exact h.there x hx

/-- A file is removed. -/
theorem remove (h : Held disk (f :: files)) : Held (disk.pop f.1) files := by
  have hnd := h.nodup
  rw [map_cons, nodup_cons] at hnd
  refine (h.sublist (sublist_cons_self _ _)).of_lookup fun x hx ↦ ?_
  have hne : x.1 ≠ f.1 := fun heq ↦ hnd.1 (heq ▸ mem_map.2 ⟨x, hx, rfl⟩)
  rw [Dict.lookup_pop, if_neg hne]

end Held

section Invariant

variable (F : Type) [PyFloatNames F] (env : Env) (lane : Lane)

/-- The set was prepared for a file of the tree. -/
def IsPrepared (root : Str) (set : PreparedSet) : Prop :=
  ∃ stem content modelMaxChars, prepareSet F env root stem content lane modelMaxChars = .ok set

/-- An attempt goes over the members of its set in their order, and has reserved what it holds and
what it could not remove. -/
structure Writer.Ok (w : Writer) : Prop where
  prepared : IsPrepared F env lane w.root w.set
  phase : match w.phase with
    | .publishing pending => w.set.publishOrder = w.linked.reverse ++ pending
    | .cleaning retained => totalBytes w.linked + retained ≤ totalBytes w.set.publishOrder

/-- What is on the disk. -/
structure FilesInv (disk : Disk) (writers : List Writer) (committed : List (Str × PreparedSet)) :
    Prop where
  keys : (disk.map Prod.fst).Nodup
  names : ∀ e ∈ disk, IsSpillName e.1.2
  held : Held disk (heldBy writers committed)
  attempts : ∀ w ∈ writers, w.Ok F env lane
  sets : ∀ c ∈ committed, IsPrepared F env lane c.1 c.2
  /-- a manifest is there only if its set was published -/
  manifests : lane = .fileTools → ∀ e ∈ disk, isManifestName e.1.2 = true →
    ∃ c ∈ committed, c.1 = e.1.1 ∧ ∃ m, c.2.commitMember = some m ∧ m.filename = e.1.2

/-- What the budget counts. -/
structure BytesInv (store : Store) (writers : List Writer) (rehydrated : Nat) : Prop where
  idle : store.budget.usedBytes = none → writers = []
  covers : ∀ used ∈ store.budget.usedBytes,
    diskBytes store.disk + (writers.map Writer.slack).sum ≤ used
  limit : ∀ used ∈ store.budget.usedBytes, ∀ m ∈ store.budget.maxBytes, rehydrated ≤ m → used ≤ m

structure Tree.Inv (t : Tree) : Prop where
  files : FilesInv F env lane t.store.disk t.writers t.committed
  bytes : BytesInv t.store t.writers t.rehydrated

end Invariant

section Steps

variable {F : Type} [PyFloatNames F] {env : Env} {lane : Lane} {disk : Disk} {writers : List Writer}
  {committed : List (Str × PreparedSet)} {t : Tree}

variable {c : Str × PreparedSet}

theorem mem_heldBy_of_committed (hc : c ∈ committed) {m : PreparedMember}
    (hm : m ∈ c.2.publishOrder) : ((c.1, m.filename), m.data) ∈ heldBy writers committed :=
  mem_append_right _ (mem_flatMap.2 ⟨c, hc, mem_map.2 ⟨m, hm, rfl⟩⟩)

/-- The manifest of a published set commits its members. -/
theorem FilesInv.committedNames_eq (h : FilesInv F env .fileTools disk writers committed)
    (hc : c ∈ committed) :
    ∃ m, c.2.commitMember = some m ∧ c.2.publishOrder = c.2.members ++ [m] ∧
      isManifestName m.filename = true ∧
      committedNames F disk c.1 m.data = some (c.2.members.map PreparedMember.filename) ∧
      claimedNames F m.data ⊆ c.2.members.map PreparedMember.filename := by
  obtain ⟨stem, content, modelMaxChars, hset⟩ := h.sets c hc
  obtain ⟨-, m, isJson, n, refs, hcommit, hman⟩ := prepareSet_names hset
  have horder : c.2.publishOrder = c.2.members ++ [m] := by
    rw [PreparedSet.publishOrder, hcommit, Option.toList_some]
  refine ⟨m, hcommit, horder, ?_, committedNames_manifest hman fun x hx ↦ ?_,
    claimedNames_manifest hman⟩
  · rw [hman.filename]
    exact isSuffixOf_iff_suffix.2 (suffix_append _ _)
  · have hheld : ((c.1, x.filename), x.data) ∈ heldBy writers committed :=
      mem_heldBy_of_committed hc (by rw [horder]; exact mem_append_left _ hx)
    exact ⟨h.held.valid _ hheld, by rw [h.held.there _ hheld]; rfl⟩

/-- **A manifest on the disk is that of a published set**, and lists its members. -/
theorem FilesInv.of_manifest (h : FilesInv F env .fileTools disk writers committed)
    {e : Path × List UInt8} (he : e ∈ disk) (hmanifest : isManifestName e.1.2 = true) :
    ∃ c ∈ committed, c.1 = e.1.1 ∧
      (∃ m, c.2.commitMember = some m ∧ m.filename = e.1.2 ∧ m.data = e.2) ∧
      committedNames F disk e.1.1 e.2 = some (c.2.members.map PreparedMember.filename) ∧
      claimedNames F e.2 ⊆ c.2.members.map PreparedMember.filename := by
  obtain ⟨c, hc, hroot, m, hcommit, hname⟩ := h.manifests rfl e he hmanifest
  obtain ⟨m', hcommit', horder, -, hnames, hclaimed⟩ := h.committedNames_eq hc
  rw [hcommit] at hcommit'
  cases hcommit'
  have hm : m ∈ c.2.publishOrder := by rw [horder]; simp
  have hthere := h.held.there _ (mem_heldBy_of_committed hc hm)
  have hdata : e.2 = m.data := by
    rw [hroot, hname, Dict.lookup_of_mem h.keys he, Option.some.injEq] at hthere
    exact hthere
  rw [hdata, ← hroot]
  exact ⟨c, hc, rfl, ⟨m, hcommit, hname, rfl⟩, hnames, hclaimed⟩

theorem FilesInv.allCommitted (h : FilesInv F env lane disk writers committed)
    (hlane : lane = .fileTools) : AllCommitted F disk := by
  subst hlane
  intro e he hmanifest
  obtain ⟨c, -, -, -, hnames, hclaimed⟩ := h.of_manifest he hmanifest
  exact ⟨_, hnames, hclaimed⟩

/-- A file of a published set is not removed by a scan. -/
theorem FilesInv.kept (h : FilesInv F env lane disk writers committed) (hc : c ∈ committed)
    {m : PreparedMember} (hm : m ∈ c.2.publishOrder) :
    if lane = .fileTools then isOrphan F disk (c.1, m.filename) = false
    else isTemp (c.1, m.filename) = false := by
  by_cases hlane : lane = .fileTools
  · rw [if_pos hlane]
    subst hlane
    obtain ⟨manifest, hcommit, horder, hname, hnames, -⟩ := h.committedNames_eq hc
    have hmanifest : manifest ∈ c.2.publishOrder := by rw [horder]; simp
    have hthere := h.held.there _ (mem_heldBy_of_committed hc hmanifest)
    have hmem : m.filename ∈ committedIn F disk c.1 := by
      refine mem_flatMap.2 ⟨((c.1, manifest.filename), manifest.data),
        mem_manifestsOf.2 ⟨Dict.mem_of_lookup hthere, rfl, hname⟩, ?_⟩
      rw [hnames]
      rw [horder, mem_append, mem_singleton] at hm
      rcases hm with hm | rfl
      · exact mem_cons_of_mem _ (mem_map.2 ⟨m, hm, rfl⟩)
      · exact mem_cons_self
    simp [isOrphan, hmem]
  · rw [if_neg hlane]
    obtain ⟨stem, content, modelMaxChars, hset⟩ := h.sets c hc
    exact (prepareSet_isSpillName hset m hm).2

/-- A scan keeps the published sets. -/
theorem FilesInv.scan (h : FilesInv F env lane disk [] committed) (unlinks : Path → Bool) :
    FilesInv F env lane (scanExistingSpillBytes F lane unlinks disk).2 [] committed where
  keys := h.keys.sublist ((scan_sublist unlinks).map _)
  names e he := h.names e ((scan_sublist unlinks).subset he)
  held := by
    refine h.held.of_lookup fun f hf ↦ ?_
    obtain ⟨c, hc, hf⟩ := mem_flatMap.1 hf
    obtain ⟨m, hm, rfl⟩ := mem_map.1 hf
    exact lookup_scan (h.kept hc hm)
  attempts := h.attempts
  sets := h.sets
  manifests hlane e he := h.manifests hlane e ((scan_sublist unlinks).subset he)

theorem exists_split_of_getElem? {α : Type} {l : List α} {i : Nat} {x : α} (h : l[i]? = some x) :
    ∃ before after, l = before ++ x :: after ∧ (∀ y, l.set i y = before ++ y :: after) ∧
      l.eraseIdx i = before ++ after := by
  obtain ⟨hi, rfl⟩ := List.getElem?_eq_some_iff.1 h
  refine ⟨l.take i, l.drop (i + 1), ?_, fun y ↦ ?_, eraseIdx_eq_take_drop_succ l i⟩
  · rw [getElem_cons_drop, take_append_drop]
  · rw [set_eq_take_append_cons_drop, if_pos hi]

theorem heldBy_perm (before after : List Writer) (w : Writer) :
    (heldBy (before ++ w :: after) committed).Perm
      (w.files ++ heldBy (before ++ after) committed) := by
  simp only [heldBy, flatMap_append, flatMap_cons, append_assoc]
  rw [← append_assoc, ← append_assoc w.files]
  exact List.Perm.append_right _ perm_append_comm

theorem heldBy_commit_perm (root : Str) (set : PreparedSet) :
    (heldBy writers ((root, set) :: committed)).Perm
      (filesOf root set.publishOrder ++ heldBy writers committed) := by
  simp only [heldBy, flatMap_cons, ← append_assoc]
  exact List.Perm.append_right _ perm_append_comm

section Replace

variable {before after : List Writer} {w w' : Writer}

theorem attempts_replace (h : ∀ x ∈ before ++ w :: after, x.Ok F env lane) (hw : w'.Ok F env lane) :
    ∀ x ∈ before ++ w' :: after, x.Ok F env lane := by
  simp only [forall_mem_append, forall_mem_cons] at h ⊢
  exact ⟨h.1, hw, h.2.2⟩

theorem attempts_erase (h : ∀ x ∈ before ++ w :: after, x.Ok F env lane) :
    ∀ x ∈ before ++ after, x.Ok F env lane := by
  simp only [forall_mem_append, forall_mem_cons] at h ⊢
  exact ⟨h.1, h.2.2⟩

theorem FilesInv.replace (h : FilesInv F env lane disk (before ++ w :: after) committed)
    (hw : w'.Ok F env lane) (hfiles : w'.files = w.files) :
    FilesInv F env lane disk (before ++ w' :: after) committed where
  keys := h.keys
  names := h.names
  held := by
    refine h.held.perm ((heldBy_perm before after w').trans ?_)
    rw [hfiles]
    exact (heldBy_perm before after w).symm
  attempts := attempts_replace h.attempts hw
  sets := h.sets
  manifests := h.manifests

/-- What the set of an attempt that is about to publish a member says about it. -/
theorem Writer.Ok.member {root : Str} {set : PreparedSet} {linked pending : List PreparedMember}
    {m : PreparedMember}
    (h : Writer.Ok F env lane ⟨root, set, linked, .publishing (m :: pending)⟩) :
    IsSpillName m.filename ∧
      (lane = .fileTools → pending ≠ [] → isManifestName m.filename = false) ∧
      (lane = .fileTools → pending = [] → set.commitMember = some m) := by
  have horder : set.publishOrder = linked.reverse ++ m :: pending := h.phase
  obtain ⟨stem, content, modelMaxChars, hset⟩ := h.prepared
  refine ⟨prepareSet_isSpillName hset m (by rw [horder]; simp), ?_, ?_⟩
  · rintro rfl hpending
    obtain ⟨hmembers, manifest, isJson, n, refs, hcommit, -⟩ := prepareSet_names hset
    refine isManifestName_of_memberSuffix (hmembers m ?_).suffix
    have hdrop := congrArg dropLast horder
    rw [PreparedSet.publishOrder, hcommit, Option.toList_some, dropLast_concat,
      dropLast_append_of_ne_nil (by simp), dropLast_cons_of_ne_nil hpending] at hdrop
    rw [hdrop]
    simp
  · rintro rfl rfl
    obtain ⟨-, manifest, isJson, n, refs, hcommit, -⟩ := prepareSet_names hset
    have hlast := congrArg getLast? horder
    rw [PreparedSet.publishOrder, hcommit, Option.toList_some, getLast?_concat,
      getLast?_concat] at hlast
    rw [hcommit, hlast]

section Publish

variable {root : Str} {set : PreparedSet} {linked pending : List PreparedMember}
  {m : PreparedMember}

theorem names_set (h : ∀ e ∈ disk, IsSpillName e.1.2) (hname : IsSpillName path.2)
    (data : List UInt8) : ∀ e ∈ disk.set path data, IsSpillName e.1.2 := by
  intro e he
  rcases Dict.mem_set.1 he with rfl | ⟨he, -⟩
  · exact hname
  · exact h e he

/-- A member is published that is not the last one of its set. -/
theorem FilesInv.publish (h : FilesInv F env lane disk
      (before ++ ⟨root, set, linked, .publishing (m :: pending)⟩ :: after) committed)
    (hfree : disk.lookup (root, m.filename) = none) (hvalid : validMemberName m.filename = true)
    (hpending : pending ≠ []) :
    FilesInv F env lane (disk.set (root, m.filename) m.data)
      (before ++ ⟨root, set, m :: linked, .publishing pending⟩ :: after) committed := by
  have hw := h.attempts ⟨root, set, linked, .publishing (m :: pending)⟩ (by simp)
  obtain ⟨hname, hmanifest, -⟩ := hw.member
  have horder : set.publishOrder = linked.reverse ++ m :: pending := hw.phase
  refine ⟨Dict.nodup_keys_set h.keys _ _, names_set h.names hname _, ?_,
    attempts_replace h.attempts ⟨hw.prepared, by simp [horder]⟩, h.sets, ?_⟩
  · have hadd := h.held.add hfree hvalid m.data
    refine hadd.perm ((heldBy_perm before after _).trans ?_)
    exact .cons _ (heldBy_perm before after ⟨root, set, linked, .publishing (m :: pending)⟩).symm
  · intro hlane e he hname
    rcases Dict.mem_set.1 he with rfl | ⟨he, -⟩
    · rw [hmanifest hlane hpending] at hname
      cases hname
    · exact h.manifests hlane e he hname

/-- The last member of a set is published. -/
theorem FilesInv.publish_last (h : FilesInv F env lane disk
      (before ++ ⟨root, set, linked, .publishing [m]⟩ :: after) committed)
    (hfree : disk.lookup (root, m.filename) = none) (hvalid : validMemberName m.filename = true) :
    FilesInv F env lane (disk.set (root, m.filename) m.data) (before ++ after)
      ((root, set) :: committed) := by
  have hw := h.attempts ⟨root, set, linked, .publishing [m]⟩ (by simp)
  obtain ⟨hname, -, hcommit⟩ := hw.member
  have horder : set.publishOrder = linked.reverse ++ [m] := hw.phase
  refine ⟨Dict.nodup_keys_set h.keys _ _, names_set h.names hname _, ?_, attempts_erase h.attempts,
    forall_mem_cons.2 ⟨hw.prepared, h.sets⟩, ?_⟩
  · have hadd := h.held.add hfree hvalid m.data
    have hfiles : (filesOf root set.publishOrder).Perm
        (((root, m.filename), m.data) :: filesOf root linked) := by
      rw [horder]
      exact ((perm_append_singleton m _).trans (.cons m (reverse_perm linked))).map _
    refine hadd.perm ((heldBy_commit_perm root set).trans ?_)
    exact (hfiles.append_right _).trans
      (.cons _ (heldBy_perm before after ⟨root, set, linked, .publishing [m]⟩).symm)
  · intro hlane e he hname
    rcases Dict.mem_set.1 he with rfl | ⟨he, -⟩
    · exact ⟨(root, set), mem_cons_self, rfl, m, hcommit hlane rfl, rfl⟩
    · obtain ⟨c, hc, hrest⟩ := h.manifests hlane e he hname
      exact ⟨c, mem_cons_of_mem _ hc, hrest⟩

/-- An attempt that has failed is done with a file, which it has removed or not. -/
theorem FilesInv.drop {retained retained' : Nat} {disk' : Disk} (h : FilesInv F env lane disk
      (before ++ ⟨root, set, m :: linked, .cleaning retained⟩ :: after) committed)
    (hsub : disk'.Sublist disk)
    (hheld : ∀ {files}, Held disk (((root, m.filename), m.data) :: files) →
      Held disk' files) (hretained : retained' ≤ retained + m.data.length) :
    FilesInv F env lane disk' (before ++ ⟨root, set, linked, .cleaning retained'⟩ :: after)
      committed := by
  have hw := h.attempts ⟨root, set, m :: linked, .cleaning retained⟩ (by simp)
  have hbytes : totalBytes (m :: linked) + retained ≤ totalBytes set.publishOrder := hw.phase
  have hfiles := h.held.perm (heldBy_perm before after _).symm
  refine ⟨h.keys.sublist (hsub.map _), fun e he ↦ h.names e (hsub.subset he),
    (hheld hfiles).perm (heldBy_perm before after _),
    attempts_replace h.attempts ⟨hw.prepared, ?_⟩, h.sets,
    fun hlane e he ↦ h.manifests hlane e (hsub.subset he)⟩
  simp only [totalBytes, map_cons, sum_cons] at hbytes ⊢
  omega

end Publish

end Replace

/-! ## Runs -/

theorem disk_eq_of_tidy {fate : PublishFate} (hfate : fate.tidy = true) {data : List UInt8}
    {e : Fault} {disk' : Disk} (h : publishNoClobber fate disk path data = (.error e, disk')) :
    disk' = disk := by
  rw [publishNoClobber.eq_def] at h
  cases fate with
  | done =>
    dsimp only at h
    split at h
    · cases h
      rfl
    · cases h
  | before =>
    cases h
    rfl
  | guard removed =>
    cases removed with
    | false => cases hfate
    | true =>
      dsimp only at h
      split at h
      · cases h
        rfl
      · cases h
        rfl
  | tempStays => cases hfate

/-- Bytes that move between the disk and the attempts stay covered. -/
theorem BytesInv.move {store : Store} {before after writers : List Writer} {w : Writer}
    {rehydrated : Nat}
    (h : BytesInv store (before ++ w :: after) rehydrated) (disk : Disk)
    (hle : diskBytes disk + (writers.map Writer.slack).sum ≤
      diskBytes store.disk + ((before ++ w :: after).map Writer.slack).sum) :
    BytesInv { store with disk := disk } writers rehydrated where
  idle hnone := by simpa using h.idle hnone
  covers used hused := hle.trans (h.covers used hused)
  limit := h.limit

theorem totalBytes_cons (m : PreparedMember) (ms : List PreparedMember) :
    totalBytes (m :: ms) = m.data.length + totalBytes ms := by
  rw [totalBytes, map_cons, sum_cons, totalBytes]

namespace Tree

theorem inv_start (maxBytes : Option Nat) : (start maxBytes).Inv F env lane := by
  refine ⟨⟨nodup_nil, by simp [start], ⟨nodup_nil, ?_, ?_⟩, by simp [start], by simp [start],
    by simp [start]⟩, ⟨fun _ ↦ rfl, by simp [start], by simp [start]⟩⟩
  · simp [start, heldBy]
  · simp [start, heldBy]

section

variable (h : t.Inv F env lane)

include h

/-- An attempt starts to clean up. -/
theorem inv_fail {before after : List Writer} {root : Str} {set : PreparedSet}
    {linked pending : List PreparedMember}
    (hwriters : t.writers = before ++ ⟨root, set, linked, .publishing pending⟩ :: after) :
    ({ t with writers := before ++ ⟨root, set, linked, .cleaning 0⟩ :: after } : Tree).Inv F env
      lane := by
  obtain ⟨hfiles, hbytes⟩ := h
  rw [hwriters] at hfiles hbytes
  have hw := hfiles.attempts ⟨root, set, linked, .publishing pending⟩ (by simp)
  have htotal : totalBytes set.publishOrder = totalBytes linked + totalBytes pending := by
    rw [hw.phase, totalBytes, map_append, sum_append, map_reverse, sum_reverse, totalBytes,
      totalBytes]
  refine ⟨hfiles.replace ⟨hw.prepared, ?_⟩ rfl, hbytes.move t.store.disk ?_⟩
  · show totalBytes linked + 0 ≤ totalBytes set.publishOrder
    omega
  · simp only [map_append, map_cons, sum_append, sum_cons, Writer.slack]
    omega

theorem inv_publish (i : Nat) {fate : PublishFate} (hfate : fate.tidy = true) :
    (t.publish i fate).Inv F env lane := by
  rw [publish]
  split
  next root set linked m pending hget =>
    obtain ⟨before, after, hwriters, hset, herase⟩ := exists_split_of_getElem? hget
    split
    · rw [hset]
      exact inv_fail h hwriters
    next hname =>
      split
      next e disk hpub =>
        rw [disk_eq_of_tidy hfate hpub, hset]
        exact inv_fail h hwriters
      next disk hpub =>
        obtain ⟨-, hfree, rfl⟩ := publishNoClobber_ok hpub
        have hvalid := containedMemberPath_ok hname
        have hdisk := diskBytes_set hfree m.data
        obtain ⟨hfiles, hbytes⟩ := h
        rw [hwriters] at hfiles hbytes
        split
        next hpending =>
          subst hpending
          rw [herase]
          refine ⟨hfiles.publish_last hfree hvalid, hbytes.move _ ?_⟩
          simp only [map_append, map_cons, sum_append, sum_cons, Writer.slack,
            totalBytes_cons]
          omega
        next hpending =>
          rw [hset]
          refine ⟨hfiles.publish hfree hvalid hpending, hbytes.move _ ?_⟩
          simp only [map_append, map_cons, sum_append, sum_cons, Writer.slack,
            totalBytes_cons]
          omega
  · exact h

theorem inv_clean (i : Nat) (unlinks : Bool) : (t.clean i unlinks).Inv F env lane := by
  rw [clean]
  split
  next root set m linked retained hget =>
    obtain ⟨before, after, hwriters, hset, -⟩ := exists_split_of_getElem? hget
    dsimp only
    rw [hset]
    obtain ⟨hfiles, hbytes⟩ := h
    rw [hwriters] at hfiles hbytes
    have hw := hfiles.attempts ⟨root, set, m :: linked, .cleaning retained⟩ (by simp)
    have hreserved : totalBytes (m :: linked) + retained ≤ totalBytes set.publishOrder := hw.phase
    cases unlinks with
    | true =>
      have hthere : t.store.disk.lookup (root, m.filename) = some m.data :=
        hfiles.held.there ((root, m.filename), m.data) (by simp [heldBy, Writer.files, filesOf])
      have hdisk := diskBytes_pop hfiles.keys hthere
      refine ⟨hfiles.drop filter_sublist Held.remove (Nat.le_add_right _ _), hbytes.move _ ?_⟩
      simp only [map_append, map_cons, sum_append, sum_cons, Writer.slack,
        totalBytes_cons, removeMember, if_true]
      omega
    | false =>
      refine ⟨hfiles.drop (.refl _) (·.sublist (sublist_cons_self _ _)) le_rfl, hbytes.move _ ?_⟩
      simp only [map_append, map_cons, sum_append, sum_cons, Writer.slack,
        totalBytes_cons, removeMember, Bool.false_eq_true, if_false]
      omega
  · exact h

theorem inv_rollback (i : Nat) : (t.rollback i).Inv F env lane := by
  rw [rollback]
  split
  next root set retained hget =>
    obtain ⟨before, after, hwriters, -, herase⟩ := exists_split_of_getElem? hget
    rw [herase]
    obtain ⟨hfiles, hbytes⟩ := h
    rw [hwriters] at hfiles hbytes
    have hheld := hfiles.held.perm (heldBy_perm before after _).symm
    refine ⟨⟨hfiles.keys, hfiles.names, hheld, attempts_erase hfiles.attempts, hfiles.sets,
      hfiles.manifests⟩, ⟨fun hnone ↦ ?_, fun used hused ↦ ?_, fun used hused m hm hle ↦ ?_⟩⟩
    · simpa using hbytes.idle (by simpa [Store.rollback] using hnone)
    · obtain ⟨used', hused', rfl⟩ := Option.map_eq_some_iff.1 hused
      have := hbytes.covers used' hused'
      simp only [map_append, map_cons, sum_append, sum_cons, Writer.slack,
        Store.rollback] at this ⊢
      have hnil : totalBytes [] = 0 := rfl
      omega
    · obtain ⟨used', hused', rfl⟩ := Option.map_eq_some_iff.1 hused
      exact (Nat.sub_le _ _).trans (hbytes.limit used' hused' m hm hle)
  · exact h

/-- While nothing is under way, a scan may run. -/
theorem inv_rehydrate (unlinks : Path → Bool) (stray : Nat) :
    (t.rehydrate F lane unlinks stray).Inv F env lane := by
  rw [rehydrate]
  split
  · exact h
  next hnone =>
    obtain ⟨hfiles, hbytes⟩ := h
    have hidle := hbytes.idle hnone
    have hscan := diskBytes_scan_le hfiles.keys hfiles.names hfiles.allCommitted unlinks
    rw [hidle] at hfiles ⊢
    refine ⟨hfiles.scan unlinks, ⟨fun _ ↦ rfl, fun used hused ↦ ?_, fun used hused m hm hle ↦ ?_⟩⟩
    · cases hused
      simp only [map_nil, sum_nil]
      omega
    · cases hused
      exact hle

omit h in
theorem usedBytes_rehydrate (t : Tree) (lane : Lane) (unlinks : Path → Bool) (stray : Nat) :
    ∃ used, (t.rehydrate F lane unlinks stray).store.budget.usedBytes = some used := by
  rw [rehydrate]
  split
  next used hused => exact ⟨used, hused⟩
  · exact ⟨_, rfl⟩

theorem inv_reserve (sink : SpillSink) (stem : Str) (content : List Char) (modelMaxChars : Int)
    (unlinks : Path → Bool) (stray : Nat) :
    (t.reserve F env lane sink stem content modelMaxChars unlinks stray).Inv F env lane := by
  rw [reserve]
  split
  · exact h
  · split
    · exact h
    next set hset =>
      split
      · exact h
      · have hinv := inv_rehydrate h unlinks stray
        obtain ⟨used, hused⟩ := usedBytes_rehydrate (F := F) t lane unlinks stray
        obtain ⟨hfiles, hbytes⟩ := hinv
        have hcovers := hbytes.covers used hused
        dsimp only
        rw [Store.reserve, Store.ensureInitialized, hused]
        dsimp only
        split
        next store heq =>
          split at heq
          · cases heq
            exact ⟨hfiles, hbytes⟩
          · cases heq
        next store heq =>
          split at heq
          · cases heq
          · next hlimit =>
            cases heq
            refine ⟨⟨hfiles.keys, hfiles.names, ?_, ?_, hfiles.sets, hfiles.manifests⟩,
              ⟨(by simp), fun used' hused' ↦ ?_, fun used' hused' m hm _ ↦ ?_⟩⟩
            · simpa [heldBy, Writer.files, filesOf] using hfiles.held
            · rw [forall_mem_append, forall_mem_singleton]
              exact ⟨hfiles.attempts, ⟨stem, content, modelMaxChars, hset⟩, rfl⟩
            · cases hused'
              simp only [map_append, map_cons, map_nil, sum_append, sum_cons,
                sum_nil, Writer.slack]
              omega
            · cases hused'
              rw [Option.mem_def.1 hm, Option.any_some, decide_eq_true_eq] at hlimit
              omega

/-- **Every step preserves the invariant**, if a publication that raises does not leave its name
behind. -/
theorem inv_step {o : Op} (ho : o.tidy = true) : (t.step F env lane o).Inv F env lane := by
  cases o with
  | reserve sink stem content modelMaxChars unlinks stray =>
    exact inv_reserve h sink stem content modelMaxChars unlinks stray
  | scanRaises unlinks =>
    rw [step]
    split
    · exact h
    next hnone =>
      rw [Option.not_isSome_iff_eq_none] at hnone
      obtain ⟨hfiles, hbytes⟩ := h
      have hidle := hbytes.idle hnone
      rw [hidle] at hfiles
      refine ⟨?_, ⟨fun _ ↦ hidle, fun used hused ↦ ?_, hbytes.limit⟩⟩
      · dsimp only
        rw [hidle]
        exact hfiles.scan unlinks
      · rw [hnone] at hused
        cases hused
  | publish i => exact inv_publish h i ho
  | clean i unlinks => exact inv_clean h i unlinks
  | rollback i => exact inv_rollback h i
  | restart =>
    obtain ⟨hfiles, -⟩ := h
    refine ⟨⟨hfiles.keys, hfiles.names, ?_, by simp [step], hfiles.sets, hfiles.manifests⟩,
      ⟨fun _ ↦ rfl, by simp [step], by simp [step]⟩⟩
    exact hfiles.held.sublist (sublist_append_right _ _)

end

end Tree

end Steps

section Runs

variable {F : Type} [PyFloatNames F] {env : Env} {lane : Lane}

theorem Tree.inv_runs (maxBytes : Option Nat) {ops : List Op} (h : ∀ o ∈ ops, o.tidy = true) :
    (runs (Tree.step F env lane) (.start maxBytes) ops).Inv F env lane :=
  runs_of_meets (C := fun _ o ↦ o.tidy = true) (P := Tree.Inv F env lane)
    (fun _ _ ho hs ↦ inv_step hs ho) (meets_of_forall_mem fun _ ↦ h) (inv_start maxBytes)

/-- **The budget of a tree covers its disk** along every run, from a tree without files, in which a
publication that raises does not leave its name behind: once it is rehydrated it counts at least the
bytes of all files, and no more than its limit unless the rehydration found more.  The files of the
sets that were published are all there. -/
theorem spill_budget_covers_disk (maxBytes : Option Nat) {ops : List Op}
    (h : ∀ o ∈ ops, o.tidy = true) :
    let t := runs (Tree.step F env lane) (.start maxBytes) ops
    (∀ used ∈ t.store.budget.usedBytes, diskBytes t.store.disk ≤ used ∧
      ∀ m ∈ t.store.budget.maxBytes, t.rehydrated ≤ m → used ≤ m) ∧
    ∀ c ∈ t.committed, ∀ m ∈ c.2.publishOrder,
      t.store.disk.lookup (c.1, m.filename) = some m.data := by
  have hinv : (runs (Tree.step F env lane) (.start maxBytes) ops).Inv F env lane :=
    Tree.inv_runs maxBytes h
  refine ⟨fun used hused ↦ ⟨?_, hinv.bytes.limit used hused⟩, fun c hc m hm ↦ ?_⟩
  · exact (Nat.le_add_right _ _).trans (hinv.bytes.covers used hused)
  · exact hinv.files.held.there _ (mem_heldBy_of_committed hc hm)

/-- **A manifest is on the disk only with all the files of its set**, wherever the calls were cut
short, in every run of tidy steps.  It is the manifest of a set that was published as a whole, the
names that it lists are those of the members of the set, and each of them is there with its data. -/
theorem manifest_has_its_files (maxBytes : Option Nat) {ops : List Op}
    (h : ∀ o ∈ ops, o.tidy = true) :
    let t := runs (Tree.step F env .fileTools) (.start maxBytes) ops
    ∀ e ∈ t.store.disk, isManifestName e.1.2 = true → ∃ c ∈ t.committed, c.1 = e.1.1 ∧
      (∃ manifest, c.2.commitMember = some manifest ∧ manifest.filename = e.1.2 ∧
        manifest.data = e.2) ∧
      committedNames F t.store.disk e.1.1 e.2 = some (c.2.members.map PreparedMember.filename) ∧
      ∀ m ∈ c.2.members, t.store.disk.lookup (e.1.1, m.filename) = some m.data := by
  intro t e he hname
  have hinv : t.Inv F env .fileTools := Tree.inv_runs maxBytes h
  obtain ⟨c, hc, hroot, hmanifest, hnames, -⟩ := hinv.files.of_manifest he hname
  refine ⟨c, hc, hroot, hmanifest, hnames, fun m hm ↦ ?_⟩
  rw [← hroot]
  exact hinv.files.held.there _ (mem_heldBy_of_committed hc (mem_append_left _ hm))

end Runs

/-- The first attempt of a call in a tree of the lane without readers: `hi` is published as it is.
-/
def sampleReserve : Op :=
  .reserve ⟨.lit "/spill", {}, none⟩ (.lit "search") "hi".toList 100000 (fun _ ↦ true) 0

theorem spill_budget_covers_disk_sample :
    ∃ used, (runs (Tree.step TokenFloat sampleEnv .noReader) (.start (some 10))
        [sampleReserve, .publish 0 .done]).store.budget.usedBytes = some used ∧
      diskBytes (runs (Tree.step TokenFloat sampleEnv .noReader) (.start (some 10))
        [sampleReserve, .publish 0 .done]).store.disk ≤ used := by
  have hused : (runs (Tree.step TokenFloat sampleEnv .noReader) (.start (some 10))
      [sampleReserve, .publish 0 .done]).store.budget.usedBytes = some 2 := by decide +kernel
  exact ⟨2, hused, ((spill_budget_covers_disk (some 10) (by decide)).1 2 hused).1⟩

/-- The text `hi` is published, with a manifest that lists its file. -/
theorem manifest_has_its_files_sample :
    let ops := [.reserve fileToolsSink (.lit "search") "hi".toList 100000 (fun _ ↦ true) 0,
      .publish 0 .done, .publish 0 .done]
    let t := runs (Tree.step TokenFloat sampleEnv .fileTools) (.start none) ops
    t.store.disk.length = 2 ∧ t.committed.length = 1 ∧ ∃ e ∈ t.store.disk, ∃ c ∈ t.committed,
      committedNames TokenFloat t.store.disk e.1.1 e.2 =
        some (c.2.members.map PreparedMember.filename) ∧
      ∀ m ∈ c.2.members, t.store.disk.lookup (e.1.1, m.filename) = some m.data := by
  intro ops
  have hall := @manifest_has_its_files TokenFloat _ sampleEnv none ops (by decide)
  have hrun : let t := runs (Tree.step TokenFloat sampleEnv .fileTools) (.start none) ops
      t.store.disk.length = 2 ∧ t.committed.length = 1 ∧
        t.store.disk.any (fun e ↦ isManifestName e.1.2) = true := by decide +kernel
  generalize runs (Tree.step TokenFloat sampleEnv .fileTools) (.start none) ops = t at hall hrun ⊢
  obtain ⟨hdisk, hcommitted, hany⟩ := hrun
  obtain ⟨e, he, hname⟩ := any_eq_true.1 hany
  obtain ⟨c, hc, -, -, hnames, hmembers⟩ := hall e he hname
  exact ⟨hdisk, hcommitted, e, he, c, hc, hnames, hmembers⟩

/-- The name is linked and the temporary file cannot be removed: the call gives back all its bytes,
and the file stays. -/
theorem failed_publication_is_not_counted :
    (runs (Tree.step TokenFloat sampleEnv .noReader) (.start (some 10))
        [sampleReserve, .publish 0 .tempStays, .rollback 0]).store.budget.usedBytes = some 0 ∧
      diskBytes (runs (Tree.step TokenFloat sampleEnv .noReader) (.start (some 10))
        [sampleReserve, .publish 0 .tempStays, .rollback 0]).store.disk = 2 := by
  decide +kernel

end AgentGateway.Spill
