import AgentGateway.Py.Dict
import AgentGateway.Py.Runs

/-!
# The cache of commercial authority states

A call of `resolve_context_state` answers from the cache or loads the state from the authority.  The
load runs outside the lock, between two locked sections: the first looks into the cache and notes
the clock and the generation, the second stores what was loaded, unless an invalidation has been
applied in the meantime.  An invalidation raises the generation, and removes what it names from the
cache.

Three of the maps are bounded and may forget entries.  What the answers rest on is not in them: an
entry of the cache is removed by every invalidation that names it, and a load that an invalidation
has overtaken is recognised by the generation, which never goes back.  So an entry always stands for
the authority's state at some instant since which nothing that names it was applied (`Inv`),
whatever the revision floors and the marks of revoked contexts have forgotten.

`System` puts the cache together with the authority, the clock and any number of calls, one step at
a time.
-/

namespace AgentGateway.AuthorityCache

open Py List

variable {κ τ : Type}

/-! ## The cache -/

/-- `CommercialContextState` -/
structure ContextState where
  active : Bool
  entitlementRevision : Int
deriving DecidableEq

/-- `CommercialAuthoritySnapshot` -/
structure Snapshot (κ τ : Type) where
  contextId : κ
  commercialAccountId : Option Int
  tokenId : Option τ
  active : Bool
  entitlementRevision : Int

inductive InvalidationKind where
  | context
  | token
  | entitlement
deriving DecidableEq

/-- `CommercialAuthorityInvalidation` -/
structure Invalidation (κ τ : Type) where
  kind : InvalidationKind
  commercialAccountId : Int
  entitlementRevision : Int
  contextId : Option κ
  tokenId : Option τ

structure Cached (κ τ : Type) where
  snapshot : Snapshot κ τ
  loadedAt : ℚ

/-- The bounds of a cache, which the constructor checks. -/
structure Bounds where
  ttl : ℚ
  maxEntries : Nat
  ttl_pos : 0 < ttl
  maxEntries_pos : 0 < maxEntries

/-- `CommercialAuthorityStateCache` -/
structure Cache (κ τ : Type) where
  entries : Dict κ (Cached κ τ)
  revisionFloorByAccount : Dict Int Int
  revokedContexts : Dict κ Unit
  generation : Nat

def Cache.empty : Cache κ τ := ⟨[], [], [], 0⟩

/-- `values[key] = value; values.move_to_end(key)` -/
def setLast {α β : Type} [DecidableEq α] (values : Dict α β) (key : α) (value : β) : Dict α β :=
  values.pop key ++ [(key, value)]

def trim {α β : Type} (bounds : Bounds) (values : Dict α β) : Dict α β :=
  values.drop (values.length - bounds.maxEntries)

def Snapshot.state (snapshot : Snapshot κ τ) : ContextState :=
  ⟨snapshot.active, snapshot.entitlementRevision⟩

def Cache.floor (cache : Cache κ τ) (accountId : Option Int) : Int :=
  match accountId with
  | none => 0
  | some account => if account = 0 then 0 else (cache.revisionFloorByAccount.lookup account).getD 0

variable [DecidableEq κ]

/-- What the first locked section decides: an answer, or a load under a generation. -/
inductive First where
  | answer (state : ContextState)
  | load (generation : Nat)

/-- The first locked section of `resolve_context_state` -/
def Cache.first (bounds : Bounds) (cache : Cache κ τ) (contextId : κ) (now : ℚ) :
    First × Cache κ τ :=
  if (cache.revokedContexts.lookup contextId).isSome then (.answer ⟨false, 0⟩, cache)
  else
    match cache.entries.lookup contextId with
    | some cached =>
      if now - cached.loadedAt < bounds.ttl then
        if cache.floor cached.snapshot.commercialAccountId ≤ cached.snapshot.entitlementRevision
          then
          (.answer cached.snapshot.state,
            { cache with entries := setLast cache.entries contextId cached })
        else (.load cache.generation, { cache with entries := cache.entries.pop contextId })
      else (.load cache.generation, cache)
    | none => (.load cache.generation, cache)

/-- The second locked section of `resolve_context_state`, without an answer if another attempt is to
be made -/
def Cache.second (bounds : Bounds) (cache : Cache κ τ) (contextId : κ) (generation : Nat) (now : ℚ)
    (snapshot : Snapshot κ τ) : Option ContextState × Cache κ τ :=
  if generation ≠ cache.generation then (none, cache)
  else
    let floor := cache.floor snapshot.commercialAccountId
    if snapshot.entitlementRevision < floor then (some ⟨false, floor⟩, cache)
    else (some snapshot.state,
      { cache with entries := trim bounds (setLast cache.entries contextId ⟨snapshot, now⟩) })

variable [DecidableEq τ]

/-- The invalidation removes the entry. -/
def Invalidation.drops (event : Invalidation κ τ) (entry : κ × Cached κ τ) : Bool :=
  decide (entry.2.snapshot.commercialAccountId = some event.commercialAccountId) ||
    decide (event.contextId = some entry.1) ||
    (event.tokenId.isSome && decide (entry.2.snapshot.tokenId = event.tokenId))

def Cache.applyInvalidation (bounds : Bounds) (cache : Cache κ τ) (event : Invalidation κ τ) :
    Cache κ τ where
  generation := cache.generation + 1
  revisionFloorByAccount :=
    let current := (cache.revisionFloorByAccount.lookup event.commercialAccountId).getD 0
    trim bounds (setLast cache.revisionFloorByAccount event.commercialAccountId
      (max current event.entitlementRevision))
  revokedContexts :=
    match event.kind, event.contextId with
    | .context, some contextId => trim bounds (setLast cache.revokedContexts contextId ())
    | _, _ => cache.revokedContexts
  entries := cache.entries.filter fun entry ↦ !event.drops entry

/-! ## The system -/

/-- What stands around a cache: its bounds, and the account and the token of each context. -/
structure World (κ τ : Type) where
  bounds : Bounds
  account : κ → Option Int
  token : κ → Option τ

/-- How far a call has come, with its attempt, the generation and the clock it has noted. -/
inductive Phase (κ τ : Type) where
  | entering (attempt : Nat)
  | loading (attempt generation : Nat) (now : ℚ)
  | loaded (attempt generation : Nat) (now : ℚ) (snapshot : Snapshot κ τ)
  | returned (now : ℚ) (state : ContextState)
  | raised

structure System (κ τ : Type) where
  authority : κ → ContextState
  clock : ℚ
  cache : Cache κ τ
  calls : Nat → Option (κ × Phase κ τ)

def System.start (authority : κ → ContextState) (clock : ℚ) : System κ τ :=
  ⟨authority, clock, .empty, fun _ ↦ none⟩

inductive Act (κ τ : Type) where
  /-- time passes -/
  | advance (elapsed : ℚ) (h : 0 ≤ elapsed)
  /-- the authority's state of a context changes -/
  | change (contextId : κ) (state : ContextState)
  | invalidate (event : Invalidation κ τ)
  | call (i : Nat) (contextId : κ)
  | first (i : Nat)
  /-- the instant of which the loader returns the state -/
  | load (i : Nat)
  /-- the loader raises -/
  | fail (i : Nat)
  | second (i : Nat)

variable (W : World κ τ)

def System.setPhase (s : System κ τ) (i : Nat) (contextId : κ) (phase : Phase κ τ) : System κ τ :=
  { s with calls := Function.update s.calls i (some (contextId, phase)) }

omit [DecidableEq κ] [DecidableEq τ] in
@[simp] theorem System.calls_setPhase (s : System κ τ) (i j : Nat) (contextId : κ)
    (phase : Phase κ τ) : (s.setPhase i contextId phase).calls j =
      if j = i then some (contextId, phase) else s.calls j :=
  Function.update_apply s.calls i _ j

/-- The first locked section of call `i`. -/
def System.runFirst (s : System κ τ) (i : Nat) (contextId : κ) (attempt : Nat) : System κ τ :=
  match s.cache.first W.bounds contextId s.clock with
  | (.answer state, cache) => { s with cache }.setPhase i contextId (.returned s.clock state)
  | (.load generation, cache) =>
    { s with cache }.setPhase i contextId (.loading attempt generation s.clock)

/-- The second locked section of call `i`; the first of two attempts may be made again. -/
def System.runSecond (s : System κ τ) (i : Nat) (contextId : κ) (attempt generation : Nat) (now : ℚ)
    (snapshot : Snapshot κ τ) : System κ τ :=
  if snapshot.contextId ≠ contextId then s.setPhase i contextId .raised
  else
    match s.cache.second W.bounds contextId generation now snapshot with
    | (some state, cache) => { s with cache }.setPhase i contextId (.returned now state)
    | (none, cache) => { s with cache }.setPhase i contextId
        (if attempt = 0 then .entering 1 else .returned now ⟨false, 0⟩)

/-- What the loader returns of a context. -/
def System.snapshot (s : System κ τ) (contextId : κ) : Snapshot κ τ :=
  ⟨contextId, W.account contextId, W.token contextId, (s.authority contextId).active,
    (s.authority contextId).entitlementRevision⟩

def System.step (s : System κ τ) : Act κ τ → System κ τ
  | .advance elapsed _ => { s with clock := s.clock + elapsed }
  | .change contextId state => { s with authority := Function.update s.authority contextId state }
  | .invalidate event => { s with cache := s.cache.applyInvalidation W.bounds event }
  | .call i contextId =>
    match s.calls i with
    | none => s.setPhase i contextId (.entering 0)
    | some _ => s
  | .first i =>
    match s.calls i with
    | some (contextId, .entering attempt) => s.runFirst W i contextId attempt
    | _ => s
  | .load i =>
    match s.calls i with
    | some (contextId, .loading attempt generation now) =>
      s.setPhase i contextId (.loaded attempt generation now (s.snapshot W contextId))
    | _ => s
  | .fail i =>
    match s.calls i with
    | some (contextId, .loading ..) => s.setPhase i contextId .raised
    | _ => s
  | .second i =>
    match s.calls i with
    | some (contextId, .loaded attempt generation now snapshot) =>
      s.runSecond W i contextId attempt generation now snapshot
    | _ => s

/-! ## What an entry stands for -/

/-- The invalidation names the context, its token or its account. -/
def World.Names (event : Invalidation κ τ) (contextId : κ) : Prop :=
  W.account contextId = some event.commercialAccountId ∨ event.contextId = some contextId ∨
    ∃ token, W.token contextId = some token ∧ event.tokenId = some token

/-- The action is no invalidation that names the context. -/
def Act.Spares (contextId : κ) (a : Act κ τ) : Prop :=
  ∀ event, a = .invalidate event → ¬ W.Names event contextId

/-- The snapshot is that of an instant at or after the reading of the clock, and since then nothing
that names the context was applied. -/
structure Faithful (s₀ : System κ τ) (acts : List (Act κ τ)) (contextId : κ)
    (snapshot : Snapshot κ τ)
    (loadedAt : ℚ) : Prop where
  account : snapshot.commercialAccountId = W.account contextId
  token : snapshot.tokenId = W.token contextId
  since : Since (System.step W) s₀
    (fun s ↦ s.authority contextId = snapshot.state ∧ loadedAt ≤ s.clock) (Act.Spares W contextId)
      acts

/-- What is known of a call that has come so far. -/
def Phase.Ok (s₀ : System κ τ) (acts : List (Act κ τ)) (s : System κ τ) (contextId : κ) :
    Phase κ τ → Prop
  | .loading _ generation now => now ≤ s.clock ∧ generation ≤ s.cache.generation
  | .loaded _ generation now snapshot => generation ≤ s.cache.generation ∧
    (generation = s.cache.generation → Faithful W s₀ acts contextId snapshot now)
  | _ => True

/-- **Every entry is faithful, and so is every load that no invalidation has overtaken.** -/
structure Inv (s₀ : System κ τ) (acts : List (Act κ τ)) (s : System κ τ) : Prop where
  entries : ∀ entry ∈ s.cache.entries, Faithful W s₀ acts entry.1 entry.2.snapshot entry.2.loadedAt
  calls : ∀ i contextId phase, s.calls i = some (contextId, phase) →
    phase.Ok W s₀ acts s contextId

variable {snapshot : Snapshot κ τ} {a : Act κ τ} {i generation attempt : Nat} {now : ℚ} {r : Int}

section Steps

variable {W} {s₀ s : System κ τ} {acts : List (Act κ τ)} {contextId : κ}

theorem Faithful.concat {loadedAt : ℚ} (h : Faithful W s₀ acts contextId snapshot loadedAt)
    (ha : a.Spares W contextId) :
    Faithful W s₀ (acts ++ [a]) contextId snapshot loadedAt :=
  ⟨h.account, h.token, h.since.concat ha⟩

/-- An action that is no invalidation overtakes nothing. -/
theorem Inv.concat (h : Inv W s₀ acts s) (ha : ∀ event, a ≠ .invalidate event) :
    Inv W s₀ (acts ++ [a]) s := by
  have hspares : ∀ contextId, a.Spares W contextId := fun _ event hevent ↦ absurd hevent (ha event)
  refine ⟨fun entry hentry ↦ (h.entries entry hentry).concat (hspares _), fun i contextId phase hi ↦
    ?_⟩
  have hphase := h.calls i contextId phase hi
  cases phase with
  | loaded =>
    exact ⟨hphase.1, fun hgen ↦ (hphase.2 hgen).concat (hspares _)⟩
  | entering | loading | returned | raised => exact hphase

theorem Inv.setPhase (h : Inv W s₀ acts s) {phase : Phase κ τ}
    (hphase : phase.Ok W s₀ acts s contextId) : Inv W s₀ acts (s.setPhase i contextId phase) := by
  refine ⟨h.entries, fun j contextId' phase' hj ↦ ?_⟩
  have hok : phase'.Ok W s₀ acts s contextId' := by
    rw [System.calls_setPhase] at hj
    split at hj
    · cases hj
      exact hphase
    · exact h.calls j contextId' phase' hj
  cases phase' with
  | entering | loading | loaded | returned | raised => exact hok

variable {cache : Cache κ τ}

/-- A locked section keeps the generation; what it does to the entries matters only. -/
theorem Inv.withEntries (h : Inv W s₀ acts s) (hgen : cache.generation = s.cache.generation)
    (hentries : ∀ entry ∈ cache.entries,
      Faithful W s₀ acts entry.1 entry.2.snapshot entry.2.loadedAt) :
    Inv W s₀ acts { s with cache } := by
  refine ⟨hentries, fun i contextId phase hi ↦ ?_⟩
  have hphase := h.calls i contextId phase hi
  cases phase with
  | loading => exact ⟨hphase.1, hgen ▸ hphase.2⟩
  | loaded =>
    exact ⟨hgen ▸ hphase.1, fun hsame ↦ hphase.2 (hsame.trans hgen)⟩
  | entering | returned | raised => trivial

omit [DecidableEq τ] in
/-- The entries after the first locked section. -/
theorem Cache.first_entries {bounds : Bounds} {entry : κ × Cached κ τ}
    (h : entry ∈ (cache.first bounds contextId now).2.entries) :
    entry ∈ cache.entries := by
  rw [Cache.first] at h
  split at h
  · exact h
  · split at h
    next cached hlookup =>
      split at h
      · split at h
        · rcases mem_append.1 h with h | h
          · exact mem_of_mem_filter h
          · rw [mem_singleton.1 h]
            exact Dict.mem_of_lookup hlookup
        · exact mem_of_mem_filter h
      · exact h
    · exact h

omit [DecidableEq τ] in
/-- What the first locked section answers from an entry: it is not older than the bound allows. -/
theorem Cache.first_answer {bounds : Bounds}
    (h : (cache.first bounds contextId now).1 = .answer ⟨true, r⟩) : ∃ cached,
      (contextId, cached) ∈ cache.entries ∧ now - cached.loadedAt < bounds.ttl ∧
        cached.snapshot.state = ⟨true, r⟩ := by
  rw [Cache.first] at h
  split at h
  · cases h
  · split at h
    next cached hlookup =>
      split at h
      next hfresh =>
        split at h
        · exact ⟨cached, Dict.mem_of_lookup hlookup, hfresh, First.answer.inj h⟩
        · cases h
      · cases h
    · cases h

omit [DecidableEq τ] in
theorem Cache.first_generation (bounds : Bounds) (cache : Cache κ τ) (contextId : κ) (now : ℚ) :
    (cache.first bounds contextId now).2.generation = cache.generation ∧
      ∀ generation, (cache.first bounds contextId now).1 = .load generation →
        generation = cache.generation := by
  rw [Cache.first]
  split
  · exact ⟨rfl, nofun⟩
  · split
    next cached hlookup =>
      split
      · split
        · exact ⟨rfl, nofun⟩
        · exact ⟨rfl, fun _ h ↦ (First.load.inj h).symm⟩
      · exact ⟨rfl, fun _ h ↦ (First.load.inj h).symm⟩
    · exact ⟨rfl, fun _ h ↦ (First.load.inj h).symm⟩

theorem Inv.first (h : Inv W s₀ acts s) (i attempt : Nat) :
    Inv W s₀ acts (s.runFirst W i contextId attempt) := by
  obtain ⟨hgen, hload⟩ := Cache.first_generation W.bounds s.cache contextId s.clock
  have hcache := h.withEntries hgen fun entry hentry ↦ h.entries entry (Cache.first_entries hentry)
  rw [System.runFirst]
  split
  next state cache heq =>
    rw [heq] at hcache
    exact hcache.setPhase trivial
  next generation cache heq =>
    rw [heq] at hcache hgen hload
    exact hcache.setPhase ⟨le_refl _, le_of_eq ((hload generation rfl).trans hgen.symm)⟩

omit [DecidableEq τ] in
/-- The second locked section stores a load that nothing has overtaken, or nothing. -/
theorem Cache.second_entries (bounds : Bounds) (cache : Cache κ τ) (contextId : κ)
    (generation : Nat)
    (now : ℚ) (snapshot : Snapshot κ τ) :
    (cache.second bounds contextId generation now snapshot).2.generation = cache.generation ∧
    ∀ entry ∈ (cache.second bounds contextId generation now snapshot).2.entries,
      entry ∈ cache.entries ∨ generation = cache.generation ∧
        entry = (contextId, ⟨snapshot, now⟩) := by
  rw [Cache.second]
  split
  · exact ⟨rfl, fun entry hentry ↦ .inl hentry⟩
  next hgen =>
    dsimp only
    split
    · exact ⟨rfl, fun entry hentry ↦ .inl hentry⟩
    · refine ⟨rfl, fun entry hentry ↦ ?_⟩
      rcases mem_append.1 (mem_of_mem_drop hentry) with hold | hnew
      · exact .inl (mem_of_mem_filter hold)
      · exact .inr ⟨not_not.1 hgen, mem_singleton.1 hnew⟩

theorem Inv.second (h : Inv W s₀ acts s)
    (hi : s.calls i = some (contextId, .loaded attempt generation now snapshot)) :
    Inv W s₀ acts (s.runSecond W i contextId attempt generation now snapshot) := by
  obtain ⟨-, hfaithful⟩ := h.calls i contextId _ hi
  obtain ⟨hgen, hentries⟩ :=
    Cache.second_entries W.bounds s.cache contextId generation now snapshot
  have hcache := h.withEntries hgen fun entry hentry ↦ by
    rcases hentries entry hentry with hold | ⟨hsame, rfl⟩
    · exact h.entries entry hold
    · exact hfaithful hsame
  rw [System.runSecond]
  split
  · exact h.setPhase trivial
  · split
    next state cache heq =>
      rw [heq] at hcache
      exact hcache.setPhase trivial
    next cache heq =>
      rw [heq] at hcache
      refine hcache.setPhase ?_
      split <;> trivial

/-- An entry that an invalidation leaves is not named by it. -/
theorem not_names_of_not_drops {event : Invalidation κ τ} {entry : κ × Cached κ τ}
    (haccount : entry.2.snapshot.commercialAccountId = W.account entry.1)
    (htoken : entry.2.snapshot.tokenId = W.token entry.1) (h : event.drops entry = false) :
    ¬ W.Names event entry.1 := by
  rw [Invalidation.drops, Bool.or_eq_false_iff, Bool.or_eq_false_iff, decide_eq_false_iff_not,
    decide_eq_false_iff_not, haccount, htoken] at h
  rintro (hname | hname | ⟨token, hname, hevent⟩)
  · exact h.1.1 hname
  · exact h.1.2 hname
  · simp [hname, hevent] at h

/-- **An invalidation keeps the invariant**: what it names it removes, and it overtakes every load.
-/
theorem Inv.invalidate (h : Inv W s₀ acts s) (event : Invalidation κ τ) :
    Inv W s₀ (acts ++ [.invalidate event])
      { s with cache := s.cache.applyInvalidation W.bounds event } := by
  refine ⟨fun entry hentry ↦ ?_, fun i contextId phase hi ↦ ?_⟩
  · obtain ⟨hmem, hkept⟩ := mem_filter.1 hentry
    have hfaithful := h.entries entry hmem
    refine hfaithful.concat fun event' hsame ↦ ?_
    cases hsame
    exact not_names_of_not_drops hfaithful.account hfaithful.token (by simpa using hkept)
  · have hphase := h.calls i contextId phase hi
    cases phase with
    | loading => exact ⟨hphase.1, Nat.le_succ_of_le hphase.2⟩
    | loaded attempt generation =>
      refine ⟨Nat.le_succ_of_le hphase.1, fun hsame ↦ ?_⟩
      change generation = s.cache.generation + 1 at hsame
      have := hphase.1
      omega
    | entering | returned | raised => trivial

theorem Inv.step (h : Inv W s₀ acts s) (hs : runs (System.step W) s₀ acts = s) (a : Act κ τ) :
    Inv W s₀ (acts ++ [a]) (s.step W a) := by
  cases a with
  | advance elapsed hpos =>
    obtain ⟨hentries, hcalls⟩ := h.concat (a := .advance elapsed hpos) (by simp)
    refine ⟨hentries, fun i contextId phase hi ↦ ?_⟩
    have hphase := hcalls i contextId phase hi
    cases phase with
    | loading attempt generation now =>
      refine ⟨?_, hphase.2⟩
      change now ≤ s.clock + elapsed
      have := hphase.1
      linarith
    | entering | loaded | returned | raised => exact hphase
  | change contextId state =>
    obtain ⟨hentries, hcalls⟩ := h.concat (a := .change contextId state) (by simp)
    refine ⟨hentries, fun i contextId' phase hi ↦ ?_⟩
    have hphase := hcalls i contextId' phase hi
    cases phase with
    | entering | loading | loaded | returned | raised => exact hphase
  | invalidate event => exact h.invalidate event
  | call =>
    rw [System.step]
    split
    · exact (h.concat (by simp)).setPhase trivial
    · exact h.concat (by simp)
  | first i =>
    rw [System.step]
    split
    · exact (h.concat (by simp)).first i _
    · exact h.concat (by simp)
  | load i =>
    rw [System.step]
    split
    next contextId attempt generation now hi =>
      obtain ⟨hclock, hgen⟩ := h.calls i contextId _ hi
      refine (h.concat (by simp)).setPhase ⟨hgen, fun _ ↦ ⟨rfl, rfl, ?_⟩⟩
      -- the instant of the load is the present one
      exact (Since.now (by rw [hs]; exact ⟨rfl, hclock⟩)).concat nofun
    · exact h.concat (by simp)
  | fail =>
    rw [System.step]
    split
    · exact (h.concat (by simp)).setPhase trivial
    · exact h.concat (by simp)
  | second =>
    rw [System.step]
    split
    next contextId attempt generation now snapshot hi => exact (h.concat (by simp)).second hi
    · exact h.concat (by simp)

end Steps

/-- The system after a run. -/
abbrev System.after (authority : κ → ContextState) (clock : ℚ) (acts : List (Act κ τ)) :
    System κ τ :=
  runs (System.step W) (System.start authority clock) acts

theorem inv_after (authority : κ → ContextState) (clock : ℚ) (acts : List (Act κ τ)) :
    Inv W (System.start authority clock) acts (System.after W authority clock acts) := by
  induction acts using List.reverseRecOn with
  | nil => exact ⟨by simp [System.start, Cache.empty], by simp [System.start]⟩
  | append_singleton acts a ih =>
    rw [System.after, runs_append]
    exact ih.step rfl a

/-! ## Answers -/

variable {W}

variable {s : System κ τ} {contextId : κ}

/-- What the first locked section answers. -/
theorem runFirst_returned {s₀ : System κ τ} {acts : List (Act κ τ)} (h : Inv W s₀ acts s)
    (hreturned : (s.runFirst W i contextId attempt).calls i =
      some (contextId, .returned now ⟨true, r⟩)) :
    Since (System.step W) s₀
      (fun t ↦ t.authority contextId = ⟨true, r⟩ ∧ now - t.clock ≤ W.bounds.ttl)
      (Act.Spares W contextId) acts := by
  rw [System.runFirst] at hreturned
  split at hreturned
  next state cache heq =>
    rw [System.calls_setPhase, if_pos rfl] at hreturned
    cases hreturned
    obtain ⟨cached, hmem, hfresh, hstate⟩ := Cache.first_answer (congrArg Prod.fst heq)
    refine (h.entries _ hmem).since.mono (fun t ht ↦ ⟨ht.1.trans hstate, ?_⟩) fun _ ho ↦ ho
    linarith
  · rw [System.calls_setPhase, if_pos rfl] at hreturned
    cases hreturned

/-- What the second locked section answers. -/
theorem runSecond_returned {s₀ : System κ τ} {acts : List (Act κ τ)} (h : Inv W s₀ acts s)
    {now' : ℚ} (hi : s.calls i = some (contextId, .loaded attempt generation now' snapshot))
    (hreturned : (s.runSecond W i contextId attempt generation now' snapshot).calls i =
      some (contextId, .returned now ⟨true, r⟩)) :
    Since (System.step W) s₀
      (fun t ↦ t.authority contextId = ⟨true, r⟩ ∧ now - t.clock ≤ W.bounds.ttl)
      (Act.Spares W contextId) acts := by
  obtain ⟨-, hfaithful⟩ := h.calls i contextId _ hi
  rw [System.runSecond] at hreturned
  split at hreturned
  · rw [System.calls_setPhase, if_pos rfl] at hreturned
    cases hreturned
  · split at hreturned
    next state cache heq =>
      rw [System.calls_setPhase, if_pos rfl] at hreturned
      cases hreturned
      rw [Cache.second] at heq
      split at heq
      · cases heq
      next hgen =>
        dsimp only at heq
        split at heq
        · cases heq
        · have hstate : snapshot.state = ⟨true, r⟩ := Option.some.inj (congrArg Prod.fst heq)
          refine (hfaithful (not_not.1 hgen)).since.mono (fun t ht ↦ ⟨ht.1.trans hstate, ?_⟩)
            fun _ ho ↦ ho
          have := W.bounds.ttl_pos
          linarith
    next cache heq =>
      rw [System.calls_setPhase, if_pos rfl] at hreturned
      split at hreturned
      · cases hreturned
      · cases hreturned

omit [DecidableEq τ] in
theorem runFirst_calls_self (s : System κ τ) (contextId : κ) (i attempt : Nat) :
    ∃ phase, (s.runFirst W i contextId attempt).calls i = some (contextId, phase) := by
  rw [System.runFirst]
  split <;> exact ⟨_, by rw [System.calls_setPhase, if_pos rfl]⟩

omit [DecidableEq τ] in
theorem runSecond_calls_self (s : System κ τ) (contextId : κ) (i attempt generation : Nat) (now : ℚ)
    (snapshot : Snapshot κ τ) : ∃ phase,
    (s.runSecond W i contextId attempt generation now snapshot).calls i = some (contextId,
      phase) := by
  rw [System.runSecond]
  split
  · exact ⟨_, by rw [System.calls_setPhase, if_pos rfl]⟩
  · split <;> exact ⟨_, by rw [System.calls_setPhase, if_pos rfl]⟩

omit [DecidableEq τ] in
theorem runFirst_calls_of_ne {j : Nat} (h : i ≠ j) :
    (s.runFirst W j contextId attempt).calls i = s.calls i := by
  rw [System.runFirst]
  split <;> rw [System.calls_setPhase, if_neg h]

omit [DecidableEq τ] in
theorem runSecond_calls_of_ne {j : Nat} (h : i ≠ j) :
    (s.runSecond W j contextId attempt generation now snapshot).calls i = s.calls i := by
  rw [System.runSecond]
  split
  · rw [System.calls_setPhase, if_neg h]
  · split <;> rw [System.calls_setPhase, if_neg h]

/-- A call returns in one of its locked sections. -/
theorem returned_of_step {state : ContextState}
    (h : (s.step W a).calls i = some (contextId, .returned now state)) :
    s.calls i = some (contextId, .returned now state) ∨
    (∃ attempt, (s.runFirst W i contextId attempt).calls i =
      some (contextId, .returned now state)) ∨
    ∃ attempt generation now' snapshot,
      s.calls i = some (contextId, .loaded attempt generation now' snapshot) ∧
      (s.runSecond W i contextId attempt generation now' snapshot).calls i =
        some (contextId, .returned now state) := by
  have hset : ∀ {j : Nat} {contextId' : κ} {phase : Phase κ τ},
      (s.setPhase j contextId' phase).calls i = some (contextId, .returned now state) →
      (∀ now' state', phase ≠ .returned now' state') →
      s.calls i = some (contextId, .returned now state) := by
    intro j contextId' phase hcalls hphase
    rw [System.calls_setPhase] at hcalls
    split at hcalls
    · cases hcalls
      exact absurd rfl (hphase now state)
    · exact hcalls
  cases a with
  | advance | change | invalidate => exact .inl h
  | call =>
    rw [System.step] at h
    split at h
    · exact .inl (hset h (by simp))
    · exact .inl h
  | first j =>
    rw [System.step] at h
    split at h
    next contextId' attempt hj =>
      by_cases hij : i = j
      · subst hij
        obtain ⟨phase, hphase⟩ := runFirst_calls_self (W := W) s contextId' i attempt
        cases hphase.symm.trans h
        exact .inr (.inl ⟨attempt, h⟩)
      · rw [runFirst_calls_of_ne hij] at h
        exact .inl h
    · exact .inl h
  | load =>
    rw [System.step] at h
    split at h
    · exact .inl (hset h (by simp))
    · exact .inl h
  | fail =>
    rw [System.step] at h
    split at h
    · exact .inl (hset h (by simp))
    · exact .inl h
  | second j =>
    rw [System.step] at h
    split at h
    next contextId' attempt generation now' snapshot hj =>
      by_cases hij : i = j
      · subst hij
        obtain ⟨phase, hphase⟩ :=
          runSecond_calls_self (W := W) s contextId' i attempt generation now' snapshot
        cases hphase.symm.trans h
        exact .inr (.inr ⟨attempt, generation, now', snapshot, hj, h⟩)
      · rw [runSecond_calls_of_ne hij] at h
        exact .inl h
    · exact .inl h

/-- **The cache never serves a state older than an applied invalidation.**  When a step decides that
a call returns `active=True` with a revision, there was an instant, at most the time to live before
the call's last reading of the clock, at which that was the authority's state of the context, and no
invalidation that names the context, its token or its account was applied since. -/
theorem resolve_not_older_than_invalidation (authority : κ → ContextState) (clock : ℚ)
    (acts : List (Act κ τ)) (a : Act κ τ) (i : Nat) (contextId : κ) (now : ℚ) (r : Int)
    (hbefore : ∀ now' state, (System.after W authority clock acts).calls i ≠
      some (contextId, .returned now' state))
    (hafter : (System.after W authority clock (acts ++ [a])).calls i =
      some (contextId, .returned now ⟨true, r⟩)) :
    Since (System.step W) (System.start authority clock)
      (fun t ↦ t.authority contextId = ⟨true, r⟩ ∧ now - t.clock ≤ W.bounds.ttl)
      (Act.Spares W contextId) acts := by
  have hinv := inv_after W authority clock acts
  rw [System.after, runs_append] at hafter
  rcases returned_of_step hafter with h | ⟨attempt, h⟩ | ⟨attempt, generation, now', snapshot, hi,
    h⟩
  · exact absurd h (hbefore now _)
  · exact runFirst_returned hinv h
  · exact runSecond_returned hinv hi h

/-- One context, of one account and without a token. -/
def oneContext : World Nat Nat := ⟨⟨30, 1, by norm_num, by norm_num⟩, fun _ ↦ some 7, fun _ ↦ none⟩

/-- A first call fills the cache, and a second one begins a second later. -/
def twoCalls : List (Act Nat Nat) :=
  [.call 0 5, .first 0, .load 0, .second 0, .advance 1 (by norm_num), .call 1 5]

/-- The second call is answered from the cache. -/
theorem resolve_not_older_than_invalidation_sample :
    Since (System.step oneContext) (System.start (fun _ ↦ ⟨true, 3⟩) 0)
      (fun t ↦ t.authority 5 = ⟨true, 3⟩ ∧ 1 - t.clock ≤ 30)
        (Act.Spares oneContext 5) twoCalls := by
  have hbefore : ((System.after oneContext (fun _ ↦ ⟨true, 3⟩) 0 twoCalls).calls 1).any (fun p ↦
      p.1 = 5 && match p.2 with | .entering _ => true | _ => false) = true := by
    decide +kernel
  have hafter :
    ((System.after oneContext (fun _ ↦ ⟨true, 3⟩) 0 (twoCalls ++ [.first 1])).calls 1).any
      (fun p ↦ p.1 = 5 && match p.2 with
        | .returned now state => decide (now = 1 ∧ state = ⟨true, 3⟩)
        | _ => false) = true := by
    decide +kernel
  obtain ⟨⟨contextId, phase⟩, hcall, hphase⟩ := (Option.any_eq_true _ _).1 hbefore
  obtain ⟨⟨contextId', phase'⟩, hcall', hphase'⟩ := (Option.any_eq_true _ _).1 hafter
  cases phase' with
  | returned now state =>
    simp only [Bool.and_eq_true, decide_eq_true_eq] at hphase'
    obtain ⟨rfl, rfl, rfl⟩ := hphase'
    refine resolve_not_older_than_invalidation _ _ _ _ 1 5 1 3 (fun now' state h ↦ ?_) hcall'
    rw [hcall] at h
    cases h
    simp at hphase
  | entering | loading | loaded | raised => simp at hphase'

end AgentGateway.AuthorityCache
