import AgentGateway.Py.Calls
import AgentGateway.Py.Dict

/-!
# Spawn admission

`admitSpawn` is the one producer of the context of a child job.  It reads the context of the parent,
the registration of the operation that is to be started, the request, and the owners of the
decisions it does not make itself; it narrows what the parent has, or refuses.  `contextForChild`
makes of what was admitted the context that the child's own children are narrowed from.

The owners are left open in `Host`, `Resolver` and `AdmissionOwners`: the selection of a model, the
policy of a role, the registry of routes, and `resolve_tool_authority`, which compiles a grant from
a set of tools and is only trusted not to put a tool into the grant that is not in the set
(`AdmissionOwners.Honest`).

Each of the authorities of a child is computed by itself, from the parent's in the same step.  What
the step does to each is said in `Narrowed`, and the result about chains of spawns
(`authority_narrows_along_spawns`) carries what it says about tenant, withheld tools, research file
and depth along the chain.
-/

namespace AgentGateway.Admission

open Py

/-! ## Contexts -/

/-- What admission takes from the packages of model selection and of approvals. -/
structure Host where
  /-- `CapabilityBind` -/
  Bind : Type
  /-- `SelectionSnapshot` -/
  Snapshot : Type
  /-- its JSON form -/
  SnapshotJson : Type
  /-- what a durable local approval route holds: a store, a policy and a session -/
  Ledger : Type
  /-- the inherited channel of a parent-delegated route, with its session -/
  Channel : Type
  /-- `private_capture_writer` -/
  Writer : Type
  toJson : Snapshot → SnapshotJson
  fromJson : SnapshotJson → Option Snapshot
  policyRevision : Snapshot → String
  runMode : Bind → String
  /-- `CHILD_ENVIRONMENT_ALLOWLISTS[AUTONOMOUS_CHILD_ENVIRONMENT]` -/
  autonomousChildEnvironment : Finset String
  /-- `repr` -/
  repr : String → String

structure AdmittedTenant where
  tenantId : Option String
  storageId : String
  role : String
deriving DecidableEq

structure AdmittedResearchBinding where
  researchFileId : Option Int
  ticker : Option String
deriving DecidableEq

structure SelectionPresetProvenance where
  name : String
  scope : String
  policyRevision : String
deriving DecidableEq

structure SelectionProvenance where
  role : Option String
  roleSource : Option String
  effortSource : Option String
  preset : Option SelectionPresetProvenance
  presetLayer : Option String
deriving DecidableEq

variable {H : Host}

inductive ApprovalRoute (H : Host) where
  | durableLocal (ledger : H.Ledger)
  | parentDelegated (channel : H.Channel) (privateCaptureWriter : Option H.Writer)
  | inProcessDelegated (parentLedger : H.Ledger)
  | controlPlane (ledger : H.Ledger)
  | noApprovalRoute

def childApprovalRoute : ApprovalRoute H → ApprovalRoute H
  | .durableLocal ledger => .inProcessDelegated ledger
  | .parentDelegated channel _ => .parentDelegated channel none
  | route => route

def approvalRouteName : ApprovalRoute H → String
  | .noApprovalRoute => "no_approval_route"
  | .durableLocal _ => "durable_local"
  | _ => "parent_delegated"

structure ParentContext (H : Host) where
  tenant : Option AdmittedTenant
  researchBinding : AdmittedResearchBinding
  children : Option (List String)
  toolIds : Option (Finset String)
  withheld : Finset String
  handleGrants : Finset String
  remainingUsd : Option Rat
  jobId : Option String
  depth : Int
  approvalRoute : ApprovalRoute H
  selectionSnapshot : Option H.Snapshot
  selectionProvenance : Option SelectionProvenance

/-- `SpawnRequest`, as far as admission reads it -/
structure SpawnRequest where
  operation : String
  handles : List String
  binding : Option AdmittedResearchBinding
  effort : Option String
  role : Option String
  modelPreset : Option String

structure OperationRegistration where
  name : String
  executionClass : String
  routeCeiling : Finset String
  operationRoutes : Finset String
  routeToolNames : Dict String String
  children : List String
  role : Option String
  effort : Option String

/-- The name by which policies know a tool. -/
def OperationRegistration.policyName (r : OperationRegistration) (toolId : String) : String :=
  (r.routeToolNames.lookup toolId).getD toolId

/-- `AdmittedChildIdentity`, as far as admission reads it -/
structure AdmittedChildIdentity where
  userId : String
  role : String

/-! ## Owners -/

structure Refusal where
  reason : String
  owner : String
  detail : String
  classification : Option String := none
  nextCall : Option String := none
deriving DecidableEq

/-- How an admission ends that admits nothing. -/
inductive Stop where
  | refusal (r : Refusal)
  /-- `OperationUnavailable` -/
  | unavailable
  /-- `ValueError` -/
  | value (message : String)
  /-- whatever an owner raises -/
  | raised

/-- `CapabilityExecutionResolver`, with `preset_selection_snapshot` and the slot defaults that
`_tier_selected_for_bind` reads -/
structure Resolver (H : Host) where
  presetSelectionSnapshot : String → Except Stop H.Snapshot
  selectBind : String → Option String → Option String → Option H.Snapshot → Except Stop H.Bind
  selectionLane : H.Bind → Except Stop String
  defaultTier : String → Option H.Snapshot → Option String

structure AdmissionOwners (H : Host) where
  operation : OperationRegistration
  resolver : Resolver H
  /-- `role_denied_tools_for_session`, of the session, by role and profile -/
  roleDeniedTools : String → Option String → Except Stop (Finset String)
  routeRegistered : String → Bool
  /-- the tools of the grant that is compiled from a set of tools -/
  resolveToolAuthority : Finset String → Except Stop (List String)
  maxSpawnDepth : Int
  envNames : Finset String
  outputs : Finset String
  frozenBind : Option H.Bind
  identity : Option AdmittedChildIdentity
  profileName : Option String

/-- A grant is compiled from the tools that were given. -/
def AdmissionOwners.Honest (o : AdmissionOwners H) : Prop :=
  ∀ tools grant, o.resolveToolAuthority tools = .ok grant → ∀ t ∈ grant, t ∈ tools

structure AdmittedContextWire (H : Host) where
  tenant : Option AdmittedTenant
  researchBinding : AdmittedResearchBinding
  capabilityBind : H.Bind
  selectionSnapshot : Option H.SnapshotJson
  selectionProvenance : Option SelectionProvenance
  selectionLane : String
  children : List String
  toolGrant : List String
  withheldTools : List String
  budgetShare : Option Rat
  envProjection : List String
  approvalRoute : String
  handleGrants : List String
  placement : String
  parentJobId : Option String
  depth : Int

structure AdmittedContext (H : Host) where
  wire : AdmittedContextWire H
  approvalRoute : ApprovalRoute H
  identity : Option AdmittedChildIdentity

def contextForChild (admitted : AdmittedContext H) (jobId : String) :
    Except Stop (ParentContext H) := do
  let wire := admitted.wire
  let selectionSnapshot ← wire.selectionSnapshot.mapM fun json ↦
    requireSome (H.fromJson json) .raised
  .ok
    { tenant := wire.tenant, researchBinding := wire.researchBinding, children := some wire.children
      toolIds := some wire.toolGrant.toFinset, withheld := wire.withheldTools.toFinset
      handleGrants := wire.handleGrants.toFinset, remainingUsd := wire.budgetShare
      jobId := some jobId, depth := wire.depth, approvalRoute := admitted.approvalRoute
      selectionSnapshot, selectionProvenance := wire.selectionProvenance }

/-! ## Admission -/

/-- The spawn is not too deep. -/
def checkDepth (parent : ParentContext H) (maxSpawnDepth : Int) : Except Stop Unit :=
  require (¬(0 ≤ maxSpawnDepth ∧ maxSpawnDepth ≤ parent.depth)) (.refusal
    { reason := "depth_exceeded", owner := "admission spawn containment"
      detail := "Spawn depth " ++ toString parent.depth ++ " has reached the configured maximum " ++
        toString maxSpawnDepth ++ "."
      classification := some "resource"
      nextCall := some ("Return an ordinary final response with your partial work to your " ++
        "parent; the parent can spawn the remaining work.") })

def requireExactRole (role : String) : Except Stop Unit :=
  require (role = "owner" ∨ role = "invite") (.value "role must be exactly 'owner' or 'invite'")

/-- The identity of an autonomous child is that of the tenant. -/
def checkIdentity (parent : ParentContext H) : Option AdmittedChildIdentity → Except Stop Unit
  | none => .ok ()
  | some identity => do
    requireExactRole identity.role
    require (parent.tenant.any (fun t ↦
        decide (identity.userId = t.storageId ∧ identity.role = t.role)) = true) (.refusal
      { reason := "tenant_mismatch", owner := "admission tenant"
        detail := "child identity " ++ H.repr identity.userId ++ " (" ++ identity.role ++
          ") is not the parent tenant's owner" })

/-- The operation is one of the parent's children. -/
def checkOperation (parent : ParentContext H) (operation : String) : Except Stop Unit :=
  require (∀ children ∈ parent.children, operation ∈ children) (.refusal
    { reason := "grant_exceeds_parent", owner := "admission tool_grant"
      detail := "operation " ++ H.repr operation ++ " is not among the parent's children" })

/-- Every handle was granted to the parent, or is an output. -/
def checkHandles (parent : ParentContext H) (handles : List String) (outputs : Finset String) :
    Except Stop Unit :=
  let ungrantedHandles := (handles.toFinset \ parent.handleGrants) \ outputs
  require (ungrantedHandles = ∅) (.refusal
    { reason := "handle_not_granted", owner := "admission handle_grants"
      detail := "handles not granted to the parent: " ++ ", ".intercalate ungrantedHandles.sort })

/-- The research binding of the child. -/
def narrowBinding (parent : AdmittedResearchBinding) :
    Option AdmittedResearchBinding → Except Stop AdmittedResearchBinding
  | none => .ok parent
  | some requested => do
    require (∀ p ∈ parent.researchFileId, ∀ r ∈ requested.researchFileId, r = p) (.refusal
      { reason := "binding_not_granted", owner := "admission research_binding"
        detail := "research_file_id " ++ toString (requested.researchFileId.getD 0) ++
          " is not the parent's bound research file " ++ toString (parent.researchFileId.getD 0) })
    require (¬(parent.researchFileId.isSome = true ∧ requested.researchFileId = none ∧
        requested.ticker.isSome = true ∧ requested.ticker ≠ parent.ticker)) (.refusal
      { reason := "binding_ambiguous", owner := "admission research_binding"
        detail := "ticker-only child delegation requested for '" ++ requested.ticker.getD "" ++
          "' under research-bound parent (" ++ toString (parent.researchFileId.getD 0) ++
          "); cross-issuer work requires explicit research_file_id or coverage-set authority" })
    .ok
      { researchFileId := requested.researchFileId.or parent.researchFileId
        ticker := requested.ticker.or parent.ticker }

/-- The preset that starts a scope of its own, unless the bind is frozen. -/
def subtreeSnapshot (owners : AdmissionOwners H) (request : SpawnRequest) :
    Except Stop (Option H.Snapshot) :=
  match owners.frozenBind, request.modelPreset with
  | none, some preset => (owners.resolver.presetSelectionSnapshot preset).map some
  | _, _ => .ok none

/-- `_PLACEMENT_BY_RUN_MODE` -/
def placementForRunMode (runMode : String) : Except Stop String :=
  if runMode ∈ ["interactive", "fleet", "batch"] then .ok "in_process"
  else if runMode ∈ ["autonomous", "cron"] then .ok "local_stub"
  else .error .raised

def environmentProjection (H : Host) (placement : String) (envNames : Finset String) :
    List String :=
  if placement = "local_stub" then
    envNames.sort.filter fun name ↦ decide (name ∈ H.autonomousChildEnvironment)
  else []

def tierSelectedForBind (requestedRole : Option String) (resolver : Resolver H)
    (capability : String)
    (selectionSnapshot : Option H.Snapshot) : Option String :=
  requestedRole.or (resolver.defaultTier capability selectionSnapshot)

/-- The provenance of the child's bind. -/
def provenanceFor (parent : ParentContext H) (request : SpawnRequest) (owners : AdmissionOwners H)
    (subtree selectionSnapshot : Option H.Snapshot) : Option SelectionProvenance :=
  if owners.frozenBind.isSome then none
  else
    let registration := owners.operation
    let subtreePreset := subtree.bind fun snapshot ↦ request.modelPreset.map fun name ↦
      SelectionPresetProvenance.mk name "subtree" (H.policyRevision snapshot)
    some
      { role := tierSelectedForBind (request.role.or registration.role) owners.resolver
          registration.executionClass selectionSnapshot
        roleSource :=
          if request.role.isSome then some "spawn"
          else if registration.role.isSome then some "operation"
          else parent.selectionProvenance.bind SelectionProvenance.roleSource
        effortSource :=
          if request.effort.isSome then some "spawn"
          else if registration.effort.isSome then some "operation"
          else none
        preset := subtreePreset.or (parent.selectionProvenance.bind SelectionProvenance.preset)
        presetLayer :=
          if subtreePreset.isSome then some "request"
          else parent.selectionProvenance.bind SelectionProvenance.presetLayer }

def runAgentToolName : String := "run_agent"

/-- The parent holds the tool, or the operation brings it itself. -/
def parentHolds (parent : ParentContext H) (registration : OperationRegistration)
    (toolId : String) :
    Prop :=
  toolId ∈ registration.operationRoutes ∨ ∀ ids ∈ parent.toolIds, toolId ∈ ids

instance (parent : ParentContext H) (registration : OperationRegistration) (toolId : String) :
    Decidable (parentHolds parent registration toolId) :=
  inferInstanceAs (Decidable (_ ∨ _))

/-- A tool of the ceiling that the child gets. -/
def isGranted (parent : ParentContext H) (owners : AdmissionOwners H) (roleDenied : Finset String)
    (toolId : String) : Bool :=
  let registration := owners.operation
  let policyName := registration.policyName toolId
  owners.routeRegistered toolId &&
    decide (parentHolds parent registration toolId ∧ toolId ∉ parent.withheld ∧
      policyName ∉ parent.withheld ∧ policyName ∉ roleDenied) &&
    !decide (toolId = runAgentToolName ∧ (registration.children = [] ∨
      0 ≤ owners.maxSpawnDepth ∧ owners.maxSpawnDepth ≤ parent.depth + 1))

/-- `frozenset(granted)`, after the loop over the ceiling of the operation -/
def grantedTools (parent : ParentContext H) (owners : AdmissionOwners H)
    (roleDenied : Finset String) :
    Finset String :=
  owners.operation.routeCeiling.filter fun toolId ↦ isGranted parent owners roleDenied toolId = true

def admitSpawn (request : SpawnRequest) (parent : ParentContext H) (owners : AdmissionOwners H) :
    Except Stop (AdmittedContext H) := do
  checkDepth parent owners.maxSpawnDepth
  checkIdentity parent owners.identity
  let registration := owners.operation
  checkOperation parent request.operation
  checkHandles parent request.handles owners.outputs
  let researchBinding ← narrowBinding parent.researchBinding request.binding
  let subtree ← subtreeSnapshot owners request
  let selectionSnapshot := subtree.or parent.selectionSnapshot
  let capabilityBind ← owners.frozenBind.elim
    (owners.resolver.selectBind registration.executionClass (request.role.or registration.role)
      (request.effort.or registration.effort) selectionSnapshot) Except.ok
  let selectionLane ← owners.resolver.selectionLane capabilityBind
  let placement ← placementForRunMode (H.runMode capabilityBind)
  let roleDenied ← owners.roleDeniedTools (parent.tenant.elim "invite" AdmittedTenant.role)
    owners.profileName
  let toolGrant ← owners.resolveToolAuthority (grantedTools parent owners roleDenied)
  let approvalRoute := childApprovalRoute parent.approvalRoute
  .ok
    { approvalRoute, identity := owners.identity
      wire :=
        { tenant := parent.tenant, researchBinding, capabilityBind
          selectionSnapshot := selectionSnapshot.map H.toJson
          selectionProvenance := provenanceFor parent request owners subtree selectionSnapshot
          selectionLane, children := registration.children, toolGrant
          withheldTools := parent.withheld.sort, budgetShare := parent.remainingUsd
          envProjection := environmentProjection H placement owners.envNames
          approvalRoute := approvalRouteName approvalRoute
          handleGrants := request.handles.insertionSort (· ≤ ·), placement
          parentJobId := parent.jobId, depth := parent.depth + 1 } }

/-! ## One spawn -/

/-- What a spawn makes of the authority of the parent. -/
structure Narrowed (parent : ParentContext H) (owners : AdmissionOwners H)
    (wire : AdmittedContextWire H) : Prop where
  tenant : wire.tenant = parent.tenant
  withheld : wire.withheldTools.toFinset = parent.withheld
  ceiling : ∀ t ∈ wire.toolGrant, t ∈ owners.operation.routeCeiling
  held : ∀ t ∈ wire.toolGrant, parentHolds parent owners.operation t
  notWithheld : ∀ t ∈ wire.toolGrant,
    t ∉ parent.withheld ∧ owners.operation.policyName t ∉ parent.withheld
  handles : ∀ h ∈ wire.handleGrants, h ∈ parent.handleGrants ∨ h ∈ owners.outputs
  bound : ∀ id, parent.researchBinding.researchFileId = some id →
    wire.researchBinding.researchFileId = some id
  depth : wire.depth = parent.depth + 1
  shallow : 0 ≤ owners.maxSpawnDepth → parent.depth < owners.maxSpawnDepth
  noSpawnAtBottom : 0 ≤ owners.maxSpawnDepth → owners.maxSpawnDepth ≤ wire.depth →
    runAgentToolName ∉ wire.toolGrant

variable {parent : ParentContext H}

theorem mem_grantedTools {owners : AdmissionOwners H} {roleDenied : Finset String} {t : String}
    (h : t ∈ grantedTools parent owners roleDenied) :
    t ∈ owners.operation.routeCeiling ∧ parentHolds parent owners.operation t ∧
      t ∉ parent.withheld ∧ owners.operation.policyName t ∉ parent.withheld ∧
      ¬(t = runAgentToolName ∧ 0 ≤ owners.maxSpawnDepth ∧
        owners.maxSpawnDepth ≤ parent.depth + 1) := by
  rw [grantedTools, Finset.mem_filter] at h
  obtain ⟨hceiling, h⟩ := h
  simp only [isGranted, Bool.and_eq_true, decide_eq_true_eq, Bool.not_eq_true',
    decide_eq_false_iff_not] at h
  obtain ⟨⟨-, hheld, hid, hname, -⟩, hspawn⟩ := h
  exact ⟨hceiling, hheld, hid, hname, fun hagent ↦ hspawn ⟨hagent.1, .inr hagent.2⟩⟩

theorem mem_of_checkHandles {handles : List String} {outputs : Finset String} {u : Unit}
    (h : checkHandles parent handles outputs = .ok u) {x : String}
    (hx : x ∈ handles) : x ∈ parent.handleGrants ∨ x ∈ outputs := by
  by_contra hnot
  push Not at hnot
  rw [checkHandles, require_eq_ok_iff] at h
  have hmem : x ∈ (handles.toFinset \ parent.handleGrants) \ outputs := by
    simp [hx, hnot.1, hnot.2]
  rw [h] at hmem
  exact absurd hmem (Finset.notMem_empty x)

/-- A binding to a research file is kept. -/
theorem researchFileId_narrowBinding {parent b : AdmittedResearchBinding}
    {requested : Option AdmittedResearchBinding} (h : narrowBinding parent requested = .ok b)
    {id : Int}
    (hid : parent.researchFileId = some id) : b.researchFileId = some id := by
  cases requested with
  | none =>
    cases h
    exact hid
  | some r =>
    simp only [narrowBinding, bind_eq_ok_iff, require_eq_ok_iff] at h
    obtain ⟨-, hsame, -, -, h⟩ := h
    cases h
    cases hr : r.researchFileId with
    | none => exact hid
    | some id' => exact congrArg some (hsame id hid id' hr)

variable {admitted : AdmittedContext H}

/-- **A spawn narrows every authority of the parent.** -/
theorem narrowed_of_admitSpawn {request : SpawnRequest} {owners : AdmissionOwners H}
    (hhonest : owners.Honest)
    (h : admitSpawn request parent owners = .ok admitted) :
    Narrowed parent owners admitted.wire := by
  simp only [admitSpawn, bind_eq_ok_iff] at h
  obtain ⟨_, hdepth, -, -, -, -, _, hhandles, binding, hbinding, subtree, -, bind, -, lane, -,
    placement, -, roleDenied, -, grant, hgrant, h⟩ := h
  cases h
  have hgranted : ∀ t ∈ grant, t ∈ grantedTools parent owners roleDenied :=
    hhonest _ grant hgrant
  rw [checkDepth, require_eq_ok_iff] at hdepth
  refine
    { tenant := rfl
      withheld := Finset.sort_toFinset _ _
      ceiling := fun t ht ↦ (mem_grantedTools (hgranted t ht)).1
      held := fun t ht ↦ (mem_grantedTools (hgranted t ht)).2.1
      notWithheld := fun t ht ↦ ?_
      handles := fun x hx ↦ mem_of_checkHandles hhandles ((List.mem_insertionSort _).1 hx)
      bound := fun id hid ↦ researchFileId_narrowBinding hbinding hid
      depth := rfl
      shallow := fun hmax ↦ by omega
      noSpawnAtBottom := fun hmax hbottom hmem ↦ ?_ }
  · obtain ⟨-, -, hid, hname, -⟩ := mem_grantedTools (hgranted t ht)
    exact ⟨hid, hname⟩
  · exact (mem_grantedTools (hgranted _ hmem)).2.2.2.2 ⟨rfl, hmax, hbottom⟩

/-! ## Chains of spawns -/

/-- A spawn: what is asked for, the owners that are asked, and the job the child becomes. -/
structure Spawn (H : Host) where
  request : SpawnRequest
  owners : AdmissionOwners H
  jobId : String

/-- `admit`, and then `context_for_child` -/
def Spawn.run (s : Spawn H) (parent : ParentContext H) :
    Except Stop (AdmittedContext H × ParentContext H) := do
  let admitted ← admitSpawn s.request parent s.owners
  let child ← contextForChild admitted s.jobId
  .ok (admitted, child)

/-- The spawn was admitted, under the bound `m` and with owners that compile grants honestly. -/
def Spawns (m : Int) (parent child : ParentContext H) : Prop :=
  ∃ s : Spawn H, ∃ admitted, s.owners.maxSpawnDepth = m ∧ s.owners.Honest ∧
    s.run parent = .ok (admitted, child)

/-- `c` is reached from `root` by a chain of spawns. -/
abbrev Descends (m : Int) (root c : ParentContext H) : Prop :=
  Relation.ReflTransGen (Spawns m) root c

variable {child : ParentContext H}

/-- The child's context has exactly the authority that was admitted. -/
theorem of_contextForChild {jobId : String} (h : contextForChild admitted jobId = .ok child) :
    child.tenant = admitted.wire.tenant ∧ child.withheld = admitted.wire.withheldTools.toFinset ∧
      child.toolIds = some admitted.wire.toolGrant.toFinset ∧
      child.handleGrants = admitted.wire.handleGrants.toFinset ∧
      child.researchBinding = admitted.wire.researchBinding ∧
        child.depth = admitted.wire.depth := by
  simp only [contextForChild, bind_eq_ok_iff] at h
  obtain ⟨snapshot, -, h⟩ := h
  cases h
  exact ⟨rfl, rfl, rfl, rfl, rfl, rfl⟩

theorem of_run {s : Spawn H} (hhonest : s.owners.Honest)
    (h : s.run parent = .ok (admitted, child)) :
    Narrowed parent s.owners admitted.wire ∧ contextForChild admitted s.jobId = .ok child := by
  simp only [Spawn.run, bind_eq_ok_iff] at h
  obtain ⟨a, hadmit, c, hchild, h⟩ := h
  cases h
  exact ⟨narrowed_of_admitSpawn hhonest hadmit, hchild⟩

/-- What is handed down unchanged. -/
structure Inherits (root c : ParentContext H) : Prop where
  tenant : c.tenant = root.tenant
  withheld : c.withheld = root.withheld
  bound : ∀ id, root.researchBinding.researchFileId = some id →
    c.researchBinding.researchFileId = some id

theorem Inherits.trans {root c d : ParentContext H} (h : Inherits root c) (h' : Inherits c d) :
    Inherits root d where
  tenant := h'.tenant.trans h.tenant
  withheld := h'.withheld.trans h.withheld
  bound id hid := h'.bound id (h.bound id hid)

theorem inherits_of_run {s : Spawn H} (hhonest : s.owners.Honest)
    (h : s.run parent = .ok (admitted, child)) :
    Inherits parent child := by
  obtain ⟨hnarrow, hchild⟩ := of_run hhonest h
  obtain ⟨htenant, hwithheld, -, -, hbinding, -⟩ := of_contextForChild hchild
  refine ⟨htenant.trans hnarrow.tenant, hwithheld.trans hnarrow.withheld, fun id hid ↦ ?_⟩
  rw [hbinding]
  exact hnarrow.bound id hid

theorem Descends.inherits {m : Int} {root c : ParentContext H} (h : Descends m root c) :
    Inherits root c := by
  induction h with
  | refl => exact ⟨rfl, rfl, fun _ ↦ id⟩
  | tail _ hstep ih =>
    obtain ⟨s, admitted, -, hhonest, hrun⟩ := hstep
    exact ih.trans (inherits_of_run hhonest hrun)

/-- **Authority only narrows along a chain of spawns.**  Take any chain from `root` to `parent`, and
a further spawn of `child` from there.  The child has the tenant and the withheld tools of the root.
No tool of its grant is withheld at the root, by its identifier or by its policy name; each is in
the ceiling of the operation, and the parent holds it or the operation brings it.  Its handles were
the parent's, or are outputs.  If the root is bound to a research file, so is the child.  And no
child is deeper than the bound, or may spawn again at the bound. -/
theorem authority_narrows_along_spawns {m : Int} {root parent child : ParentContext H} {s : Spawn H}
    {admitted : AdmittedContext H} (hchain : Descends m root parent)
    (hbound : s.owners.maxSpawnDepth = m) (hhonest : s.owners.Honest)
    (hrun : s.run parent = .ok (admitted, child)) :
    child.tenant = root.tenant ∧ child.withheld = root.withheld ∧
    child.toolIds = some admitted.wire.toolGrant.toFinset ∧
    (∀ t ∈ admitted.wire.toolGrant,
      t ∉ root.withheld ∧ s.owners.operation.policyName t ∉ root.withheld ∧
      t ∈ s.owners.operation.routeCeiling ∧
      (t ∈ s.owners.operation.operationRoutes ∨ ∀ ids ∈ parent.toolIds, t ∈ ids)) ∧
    child.handleGrants ⊆ parent.handleGrants ∪ s.owners.outputs ∧
    (∀ id, root.researchBinding.researchFileId = some id →
      child.researchBinding.researchFileId = some id) ∧
    (0 ≤ m → child.depth ≤ m ∧
      (child.depth = m → "run_agent" ∉ admitted.wire.toolGrant)) := by
  subst hbound
  have hparent := hchain.inherits
  have hchild := hparent.trans (inherits_of_run hhonest hrun)
  obtain ⟨hnarrow, hcontext⟩ := of_run hhonest hrun
  obtain ⟨-, -, htools, hhandles, -, hdepth⟩ := of_contextForChild hcontext
  refine ⟨hchild.tenant, hchild.withheld, htools, fun t ht ↦ ?_, ?_, hchild.bound, fun hmax ↦ ?_⟩
  · have hnot := hnarrow.notWithheld t ht
    rw [hparent.withheld] at hnot
    exact ⟨hnot.1, hnot.2, hnarrow.ceiling t ht, hnarrow.held t ht⟩
  · intro x hx
    rw [hhandles, List.mem_toFinset] at hx
    exact Finset.mem_union.2 (hnarrow.handles x hx)
  · have hshallow := hnarrow.shallow hmax
    have hstep := hnarrow.depth
    refine ⟨by omega, fun hbottom ↦ hnarrow.noSpawnAtBottom hmax (by omega)⟩

/-- A host with nothing to select. -/
def plainHost : Host where
  Bind := Unit
  Snapshot := Unit
  SnapshotJson := Unit
  Ledger := Unit
  Channel := Unit
  Writer := Unit
  toJson := id
  fromJson := some
  policyRevision _ := ""
  runMode _ := "interactive"
  autonomousChildEnvironment := ∅
  repr := id

def sampleRoot : ParentContext plainHost where
  tenant := some ⟨none, "user", "owner"⟩
  researchBinding := ⟨some 7, none⟩
  children := none
  toolIds := none
  withheld := {"trade"}
  handleGrants := ∅
  remainingUsd := none
  jobId := none
  depth := 0
  approvalRoute := .noApprovalRoute
  selectionSnapshot := none
  selectionProvenance := none

/-- A spawn of an operation that declares three tools, one of which is withheld. -/
def sampleSpawn : Spawn plainHost where
  request := ⟨"research", ["output"], none, none, none, none⟩
  owners :=
    { operation := ⟨"research", "agent", {"read", "run_agent", "trade"}, ∅, [], ["research"],
      none, none⟩
      resolver := ⟨fun _ ↦ .ok (), fun _ _ _ _ ↦ .ok (), fun _ ↦ .ok "lane", fun _ _ ↦ none⟩
      roleDeniedTools := fun _ _ ↦ .ok ∅
      routeRegistered := fun _ ↦ true
      resolveToolAuthority :=
        fun tools ↦ .ok (["run_agent", "read"].filter fun t ↦ decide (t ∈ tools))
      maxSpawnDepth := 2
      envNames := ∅
      outputs := {"output"}
      frozenBind := none
      identity := none
      profileName := none }
  jobId := "job"

theorem honest_sampleSpawn : sampleSpawn.owners.Honest := by
  intro tools grant h t ht
  cases h
  exact of_decide_eq_true (List.mem_filter.1 ht).2

/-- A grandchild at the bound: it is still bound to the file, and cannot spawn. -/
theorem authority_narrows_along_spawns_sample :
    ∃ admitted child admitted' grandchild,
      sampleSpawn.run sampleRoot = .ok (admitted, child) ∧ "run_agent" ∈ admitted.wire.toolGrant ∧
      sampleSpawn.run child = .ok (admitted', grandchild) ∧ grandchild.depth = 2 ∧
      "run_agent" ∉ admitted'.wire.toolGrant ∧
      grandchild.researchBinding.researchFileId = some 7 := by
  have hrun : (sampleSpawn.run sampleRoot).toOption.any (fun p ↦
      decide ("run_agent" ∈ p.1.wire.toolGrant) &&
        (sampleSpawn.run p.2).toOption.any fun q ↦ decide (q.2.depth = 2)) = true := by
    decide +kernel
  obtain ⟨⟨admitted, child⟩, hchild, hrun⟩ := exists_ok_of_any hrun
  rw [Bool.and_eq_true, decide_eq_true_eq] at hrun
  obtain ⟨hagent, hrun⟩ := hrun
  obtain ⟨⟨admitted', grandchild⟩, hgrandchild, hdepth⟩ := exists_ok_of_any hrun
  have hdepth := of_decide_eq_true hdepth
  have hchain : Descends 2 sampleRoot child :=
    .single ⟨sampleSpawn, admitted, rfl, honest_sampleSpawn, hchild⟩
  obtain ⟨-, -, -, -, -, hbound, hbottom⟩ :=
    authority_narrows_along_spawns hchain rfl honest_sampleSpawn hgrandchild
  exact ⟨admitted, child, admitted', grandchild, hchild, hagent, hgrandchild, hdepth,
    (hbottom (by decide)).2 hdepth, hbound 7 rfl⟩

end AgentGateway.Admission
