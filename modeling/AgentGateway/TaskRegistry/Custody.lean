import AgentGateway.Py.Dict
import AgentGateway.Py.Json
import AgentGateway.Py.Worklist

/-!
# Read custody

`job_read_subtree` derives from the registrations in the journal what a job may read: the jobs below
it.  There are two kinds of edges, from a parent to its child and from a task to the one that
continues it.  The second kind only counts if the admitted task of the registration is valid and
names the task it is registered for.  A job that resumed a task may read from that task on; nobody
else may, not even a job above it.

* `Edge` and `Seed` say this about a list of registrations, in whatever order they come.
* `mem_jobReadSubtree`: the loop returns what can be reached from a seed.

What makes an admitted task valid is left open (`TaskSchema`), as is the order in which Python goes
over a `set`.
-/

open Py List

namespace AgentGateway.TaskRegistry

variable {F : Type}

/-- A nonempty string. -/
def nameOf (v : Option (Json F)) : Option Str :=
  match v with
  | some (.str s) => if s = [] then none else some s
  | _ => none

/-- `registration["metadata"]["admitted_task"]` -/
def rawTask (registration : Json F) : Option (Json F) :=
  (registration.get? (.lit "metadata")).bind fun metadata ↦ metadata.get? (.lit "admitted_task")

def registrationParentJobId (registration : Json F) : Option Str :=
  nameOf do
    let task ← rawTask registration
    let snapshot ← task.get? (.lit "execution_snapshot")
    let context ← snapshot.get? (.lit "admitted_context")
    let lineage ← context.get? (.lit "lineage")
    lineage.get? (.lit "parent_job_id")

/-- Does the raw attempt name a task it resumes? -/
def resumesTask (task : Json F) : Bool :=
  match (task.get? (.lit "attempt")).bind fun attempt ↦ attempt.get? (.lit "resume_of_task_id") with
  | none | some .null => false
  | some _ => true

/-- What is read of the attempt of an admitted task. -/
structure Attempt where
  physicalTaskId : Str
  resumeOfTaskId : Option Str
  resumerJobId : Option Str
deriving DecidableEq

/-- `AdmittedTask.model_validate`: the attempt of the task, or `none` if it raises. -/
structure TaskSchema (F : Type) where
  validate : Json F → Option Attempt
  /-- a task that is resumed is named in the raw attempt -/
  resumes : ∀ task attempt, validate task = some attempt → attempt.resumeOfTaskId.isSome = true →
    resumesTask task = true

section Subtree

variable (schema : TaskSchema F) (jobId : Str)

/-- The predecessor of a registered task, and who resumed it, if the registration proves them. -/
def continuation (taskId : Str) (registration : Json F) : Option (Str × Option Str) :=
  (rawTask registration).bind fun task ↦
    if resumesTask task then
      (schema.validate task).bind fun attempt ↦
        if attempt.physicalTaskId = taskId then
          attempt.resumeOfTaskId.map fun predecessor ↦ (predecessor, attempt.resumerJobId)
        else none
    else none

/-- `children.setdefault(parent, set()).add(child)` -/
def addChild (children : Dict Str (List Str)) (parent child : Str) : Dict Str (List Str) :=
  children.set parent (((children.lookup parent).getD []).insert child)

/-- The state of the loop over the registrations. -/
structure Journal where
  children : Dict Str (List Str)
  /-- the stack, its top first -/
  pending : List Str

def Journal.addParent (j : Journal) (taskId : Str) (registration : Json F) : Journal :=
  match registrationParentJobId registration with
  | some parent => { j with children := addChild j.children parent taskId }
  | none => j

def Journal.addContinuation (j : Journal) (taskId : Str) (registration : Json F) : Journal :=
  match continuation schema taskId registration with
  | some (predecessor, resumer) =>
    ⟨addChild j.children predecessor taskId,
      if resumer = some jobId then predecessor :: j.pending else j.pending⟩
  | none => j

/-- One registration. -/
def Journal.register (j : Journal) (registration : Json F) : Journal :=
  match nameOf (registration.get? (.lit "task_id")) with
  | some taskId => (j.addParent taskId registration).addContinuation schema jobId taskId
    registration
  | none => j

def readJournal (registrations : List (Json F)) : Journal :=
  registrations.foldl (Journal.register schema jobId) ⟨[], [jobId]⟩

/-- The children of a node, in the order in which Python goes over them. -/
def childGraph (children : Dict Str (List Str)) (order : List Str → List Str)
    (hmem : ∀ l x, x ∈ order l ↔ x ∈ l) : Graph Str where
  children a := order ((children.lookup a).getD [])
  targets := (children.flatMap Prod.snd).toFinset
  mem_targets a b hb := by
    rw [hmem] at hb
    rw [mem_toFinset, mem_flatMap]
    cases hlookup : children.lookup a with
    | none => simp [hlookup] at hb
    | some l =>
      rw [hlookup, Option.getD_some] at hb
      exact ⟨(a, l), Dict.mem_of_lookup hlookup, hb⟩

def jobReadSubtree (order : List Str → List Str) (hmem : ∀ l x, x ∈ order l ↔ x ∈ l)
    (registrations : List (Json F)) : Finset Str :=
  let journal := readJournal schema jobId registrations
  (childGraph journal.children order hmem).visit journal.pending ∅

/-! ## What the registrations say -/

/-- The registration proves that its task continues another one: its admitted task is valid and
names the task as its own. -/
def Continues (registration : Json F) (taskId predecessor : Str) (resumer : Option Str) : Prop :=
  ∃ task, rawTask registration = some task ∧
    schema.validate task = some ⟨taskId, some predecessor, resumer⟩

/-- An edge: to a child from its parent, or to a task from the one it continues. -/
def Edge (registrations : List (Json F)) (a b : Str) : Prop :=
  ∃ r ∈ registrations, nameOf (r.get? (.lit "task_id")) = some b ∧
    (registrationParentJobId r = some a ∨ ∃ resumer, Continues schema r b a resumer)

/-- Where the job may start: with itself, and with what it has resumed. -/
def Seed (registrations : List (Json F)) (s : Str) : Prop :=
  s = jobId ∨ ∃ r ∈ registrations, ∃ b, nameOf (r.get? (.lit "task_id")) = some b ∧
    Continues schema r b s (some jobId)

variable {schema jobId}

variable {r : Json F} {taskId : Str}

theorem continuation_eq_some_iff {predecessor : Str} {resumer : Option Str} :
    continuation schema taskId r = some (predecessor, resumer) ↔
      Continues schema r taskId predecessor resumer := by
  rw [Continues, continuation]
  constructor
  · intro h
    obtain ⟨task, htask, h⟩ := Option.bind_eq_some_iff.1 h
    split at h
    · obtain ⟨⟨physical, resumeOf, resumer'⟩, hvalid, h⟩ := Option.bind_eq_some_iff.1 h
      split at h
      next hphysical =>
        obtain ⟨p, hp, heq⟩ := Option.map_eq_some_iff.1 h
        cases heq
        dsimp only at hphysical hp
        exact ⟨task, htask, by rw [hvalid, hphysical, hp]⟩
      · cases h
    · cases h
  · rintro ⟨task, htask, hvalid⟩
    rw [htask, Option.bind_some, if_pos (schema.resumes _ _ hvalid rfl), hvalid, Option.bind_some,
      if_pos rfl, Option.map_some]

/-! ## The loop over the registrations -/

variable {b a : Str}

theorem mem_addChild {children : Dict Str (List Str)} {parent child : Str} :
    b ∈ ((addChild children parent child).lookup a).getD [] ↔
      a = parent ∧ b = child ∨ b ∈ (children.lookup a).getD [] := by
  rw [addChild, Dict.lookup_set]
  by_cases ha : a = parent
  · subst ha
    simp
  · rw [if_neg ha]
    simp [ha]

/-- What the loop knows after some registrations. -/
structure Journal.Reads (schema : TaskSchema F) (jobId : Str) (registrations : List (Json F))
    (j : Journal) : Prop where
  children : ∀ a b, b ∈ (j.children.lookup a).getD [] ↔ Edge schema registrations a b
  pending : ∀ s, s ∈ j.pending ↔ Seed schema jobId registrations s

theorem Edge.append_iff {rs rs' : List (Json F)} :
    Edge schema (rs ++ rs') a b ↔ Edge schema rs a b ∨ Edge schema rs' a b := by
  simp only [Edge, mem_append, or_and_right, exists_or]

theorem Edge.singleton_iff :
    Edge schema [r] a b ↔ nameOf (r.get? (.lit "task_id")) = some b ∧
      (registrationParentJobId r = some a ∨ ∃ resumer, Continues schema r b a resumer) := by
  simp only [Edge, mem_singleton, exists_eq_left]

theorem Seed.concat_iff {rs : List (Json F)} {s : Str} :
    Seed schema jobId (rs ++ [r]) s ↔ Seed schema jobId rs s ∨
      ∃ b, nameOf (r.get? (.lit "task_id")) = some b ∧ Continues schema r b s (some jobId) := by
  simp only [Seed, mem_append, mem_singleton, or_and_right, exists_or, exists_eq_left, or_assoc]

variable {j : Journal}

theorem mem_children_addParent :
    b ∈ ((j.addParent taskId r).children.lookup a).getD [] ↔
      b ∈ (j.children.lookup a).getD [] ∨ b = taskId ∧ registrationParentJobId r = some a := by
  rw [Journal.addParent]
  cases hparent : registrationParentJobId r with
  | none => simp
  | some parent =>
    rw [mem_addChild, or_comm, and_comm, Option.some.injEq, eq_comm (a := parent)]

theorem mem_children_addContinuation :
    b ∈ ((j.addContinuation schema jobId taskId r).children.lookup a).getD [] ↔
      b ∈ (j.children.lookup a).getD [] ∨
        b = taskId ∧ ∃ resumer, Continues schema r taskId a resumer := by
  simp only [← continuation_eq_some_iff]
  rw [Journal.addContinuation]
  cases hcontinuation : continuation schema taskId r with
  | none => simp
  | some p =>
    obtain ⟨predecessor, resumer⟩ := p
    rw [mem_addChild, or_comm, and_comm]
    simp [eq_comm]

theorem mem_pending_addContinuation {s : Str} :
    s ∈ (j.addContinuation schema jobId taskId r).pending ↔
      s ∈ j.pending ∨ Continues schema r taskId s (some jobId) := by
  rw [← continuation_eq_some_iff, Journal.addContinuation]
  cases hcontinuation : continuation schema taskId r with
  | none => simp
  | some p =>
    obtain ⟨predecessor, resumer⟩ := p
    dsimp only
    by_cases hresumer : resumer = some jobId
    · rw [if_pos hresumer, mem_cons, hresumer, or_comm]
      simp [eq_comm]
    · rw [if_neg hresumer]
      simp [hresumer]

theorem pending_addParent (j : Journal) (taskId : Str) (r : Json F) :
    (j.addParent taskId r).pending = j.pending := by
  rw [Journal.addParent]
  split <;> rfl

theorem Journal.Reads.register {registrations : List (Json F)}
    (h : j.Reads schema jobId registrations) (r : Json F) :
    (j.register schema jobId r).Reads schema jobId (registrations ++ [r]) := by
  rw [Journal.register]
  cases hname : nameOf (r.get? (.lit "task_id")) with
  | none =>
    refine ⟨fun a b ↦ ?_, fun s ↦ ?_⟩
    · rw [h.children, Edge.append_iff, Edge.singleton_iff, hname]
      simp
    · rw [h.pending, Seed.concat_iff, hname]
      simp
  | some taskId =>
    refine ⟨fun a b ↦ ?_, fun s ↦ ?_⟩
    · rw [mem_children_addContinuation, mem_children_addParent, h.children, Edge.append_iff,
        Edge.singleton_iff, hname, Option.some.injEq, or_assoc, ← and_or_left,
        eq_comm (a := taskId)]
      constructor
      · rintro (h | ⟨rfl, h⟩)
        · exact .inl h
        · exact .inr ⟨rfl, h⟩
      · rintro (h | ⟨rfl, h⟩)
        · exact .inl h
        · exact .inr ⟨rfl, h⟩
    · rw [mem_pending_addContinuation, pending_addParent, h.pending, Seed.concat_iff, hname]
      simp

theorem readJournal_reads (schema : TaskSchema F) (jobId : Str) (registrations : List (Json F)) :
    (readJournal schema jobId registrations).Reads schema jobId registrations := by
  induction registrations using List.reverseRecOn with
  | nil => exact ⟨fun a b ↦ by simp [readJournal, Edge], fun s ↦ by simp [readJournal, Seed]⟩
  | append_singleton rs r ih =>
    rw [readJournal, foldl_append, ← readJournal]
    exact ih.register r

end Subtree

section Main

variable (schema : TaskSchema F) (order : List Str → List Str) (hmem : ∀ l x, x ∈ order l ↔ x ∈ l)

/-- **The subtree of a job is what can be reached from its seeds** along the edges of the
registrations, and if nothing was resumed by the job itself, what is above it is only in there if
the edges lead around to the job. -/
theorem mem_jobReadSubtree (registrations : List (Json F)) (jobId : Str) :
    (∀ x, x ∈ jobReadSubtree schema jobId order hmem registrations ↔
      ∃ s, Seed schema jobId registrations s ∧
        Relation.ReflTransGen (Edge schema registrations) s x) ∧
    ((∀ r ∈ registrations, ∀ b p, ¬ Continues schema r b p (some jobId)) →
      ∀ a ∈ jobReadSubtree schema jobId order hmem registrations, a ≠ jobId →
        Relation.TransGen (Edge schema registrations) a jobId →
          Relation.TransGen (Edge schema registrations) jobId jobId) := by
  have hreads := readJournal_reads schema jobId registrations
  have hiff : ∀ x, x ∈ jobReadSubtree schema jobId order hmem registrations ↔
      ∃ s, Seed schema jobId registrations s ∧ Relation.ReflTransGen (Edge schema registrations)
        s x := by
    intro x
    have hedges : (fun a b ↦ b ∈ (childGraph (readJournal schema jobId registrations).children order
        hmem).children a) = Edge schema registrations := by
      funext a b
      rw [← hreads.children]
      exact propext (hmem _ _)
    rw [jobReadSubtree, Graph.mem_visit]
    simp only [Graph.Reach, hedges, hreads.pending]
  refine ⟨hiff, fun hnone a ha hne habove ↦ ?_⟩
  obtain ⟨s, hs | ⟨r, hr, b, -, hcontinues⟩, hpath⟩ := (hiff a).1 ha
  · subst hs
    exact Relation.TransGen.trans_right hpath habove
  · exact absurd hcontinues (hnone r hr b s)

end Main

/-- No admitted task is valid. -/
def strictSchema : TaskSchema Unit := ⟨fun _ ↦ none, nofun⟩

/-- The registration of a task below a job. -/
def registrationOf (taskId parent : String) : Json Unit :=
  .dict [(.lit "task_id", .str (.lit taskId)),
    (.lit "metadata", .dict [(.lit "admitted_task", .dict [(.lit "execution_snapshot",
      .dict [(.lit "admitted_context", .dict [(.lit "lineage",
        .dict [(.lit "parent_job_id", .str (.lit parent))])])])])])]

theorem mem_jobReadSubtree_cycle :
    let registrations := [registrationOf "b" "a", registrationOf "a" "b"]
    Str.lit "b" ∈ jobReadSubtree strictSchema (.lit "a") id (fun _ _ ↦ Iff.rfl) registrations ∧
      Relation.TransGen (Edge strictSchema registrations) (.lit "a") (.lit "a") := by
  intro registrations
  have hdown : Edge strictSchema registrations (.lit "a") (.lit "b") :=
    ⟨registrationOf "b" "a", by simp [registrations], by decide, .inl (by decide)⟩
  have hup : Edge strictSchema registrations (.lit "b") (.lit "a") :=
    ⟨registrationOf "a" "b", by simp [registrations], by decide, .inl (by decide)⟩
  have hmain := mem_jobReadSubtree strictSchema id (fun _ _ ↦ Iff.rfl) registrations (.lit "a")
  have hmem : Str.lit "b" ∈ jobReadSubtree strictSchema (.lit "a") id (fun _ _ ↦ Iff.rfl)
    registrations :=
    (hmain.1 _).2 ⟨_, .inl rfl, .single hdown⟩
  refine ⟨hmem, hmain.2 ?_ _ hmem (by decide) (.single hup)⟩
  rintro r - b p ⟨task, -, hvalid⟩
  cases hvalid

end AgentGateway.TaskRegistry
