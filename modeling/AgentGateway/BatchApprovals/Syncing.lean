import AgentGateway.BatchApprovals.World

/-!
# What syncing does to the projections

A projection is `Known` if a registered carrier stands behind it: the projection has the owner, the
channel and the session of the carrier, and its approval was pending in that session.  Syncing
carriers keeps all projections known (`Sound.syncCarriers`), and if it succeeds every approval that
is pending in one of the sessions is projected (`syncCarriers_ok`).

What has been pending is given by a predicate `Was` on sessions and approvals, of which only needs
to be known that it is true of what is pending now.
-/

namespace AgentGateway.BatchApprovals

open Py List

/-! ## Known projections -/

/-- A pending tool that waits for a decision on an approval. -/
def Pending.IsApproval (pending : Pending) (toolCallId : Str) : Prop :=
  pending.status = .lit "approval_pending" ∧ pending.approvalId.strip ≠ [] ∧
    pending.nonce.strip ≠ [] ∧ toolCallId.strip ≠ []

/-- The approval is pending in the session. -/
def PendingIn (sessions : Sessions) (session : Nat) (approvalId : Str) : Prop :=
  ∃ t ∈ (sessions session).pendingTools, t.2.IsApproval t.1 ∧ t.2.approvalId.strip = approvalId

/-- The projection has what the carrier says. -/
structure Projection.RegisteredBy (p : Projection) (c : Carrier) : Prop where
  owner : p.ownerUserId = c.ownerUserId
  batch : p.batchId = c.batchId
  run : p.runId = c.runId
  channel : p.channel = c.channel
  session : p.session = c.session
  store : p.store = c.store
  policy : p.policy = c.policy

/-- The carriers by owner, batch and session. -/
abbrev Carriers := Dict (Str × Int × Nat) Carrier

variable {p : Projection}

theorem Projection.RegisteredBy.key {c : Carrier} (h : p.RegisteredBy c) :
    p.key = c.key := by
  rw [Projection.key, Carrier.key, h.owner, h.batch]

section Known

variable (Was : Nat → Str → Prop)

/-- A registered carrier stands behind the projection. -/
def Known (carriers : Carriers) (p : Projection) : Prop :=
  ∃ e ∈ carriers, p.RegisteredBy e.2 ∧ Was e.2.session p.approvalId

structure Sound (carriers : Carriers) (ps : Projections) : Prop where
  nodup : (ps.map Prod.fst).Nodup
  id : ∀ e ∈ ps, e.2.approvalId = e.1
  known : ∀ e ∈ ps, Known Was carriers e.2

end Known

section Sound

variable {Was Was' : Nat → Str → Prop} {carriers carriers' : Carriers} {ps : Projections}
  {c : Carrier} {sessionId : Str}

theorem sound_nil : Sound Was carriers [] := ⟨nodup_nil, by simp, by simp⟩

theorem Known.mono (h : Known Was carriers p) (hcarriers : ∀ e ∈ carriers, e ∈ carriers')
    (hwas : ∀ s id, Was s id → Was' s id) :
    Known Was' carriers' p := by
  obtain ⟨e, he, hreg, hw⟩ := h
  exact ⟨e, hcarriers e he, hreg, hwas _ _ hw⟩

section

variable (h : Sound Was carriers ps)

include h

theorem Sound.mono (hcarriers : ∀ e ∈ carriers, e ∈ carriers')
    (hwas : ∀ s id, Was s id → Was' s id) : Sound Was' carriers' ps :=
  ⟨h.nodup, h.id, fun e he ↦ (h.known e he).mono hcarriers hwas⟩

theorem Sound.filter (f : Str × Projection → Bool) :
    Sound Was carriers (ps.filter f) :=
  ⟨h.nodup.sublist (filter_sublist.map Prod.fst), fun e he ↦ h.id e (mem_of_mem_filter he),
    fun e he ↦ h.known e (mem_of_mem_filter he)⟩

theorem Sound.set (hp : Known Was carriers p) :
    Sound Was carriers (ps.set p.approvalId p) := by
  refine ⟨Dict.nodup_keys_set h.nodup _ _, fun e he ↦ ?_, fun e he ↦ ?_⟩
  · rcases Dict.mem_set.1 he with rfl | ⟨he, -⟩
    · rfl
    · exact h.id e he
  · rcases Dict.mem_set.1 he with rfl | ⟨he, -⟩
    · exact hp
    · exact h.known e he

theorem Sound.update {ps' : Projections} (h' : Sound Was carriers ps') :
    Sound Was carriers (ps.update ps') := by
  refine ⟨Dict.nodup_keys_update h.nodup _, fun e he ↦ ?_, fun e he ↦ ?_⟩
  · exact (Dict.mem_of_mem_update he).elim (h.id e) (h'.id e)
  · exact (Dict.mem_of_mem_update he).elim (h.known e) (h'.known e)

end

/-! ## Reading a pending tool -/

theorem read_eq_live {tool : Str} {pending : Pending}
    (h : c.read sessionId tool pending = .live p) :
    pending.IsApproval tool ∧ p.approvalId = pending.approvalId.strip ∧ p.RegisteredBy c := by
  rw [Carrier.read] at h
  split_ifs at h with hskip
  cases h
  simp only [not_or, ne_eq, not_not] at hskip
  exact ⟨hskip, rfl, rfl, rfl, rfl, rfl, rfl, rfl, rfl⟩

theorem not_isApproval_of_skip {tool : Str} {pending : Pending}
    (h : c.read sessionId tool pending = .skip) : ¬ pending.IsApproval tool := by
  rintro ⟨hstatus, hid, hnonce, htool⟩
  rw [Carrier.read] at h
  split_ifs at h with hskip
  rcases hskip with hs | hs | hs | hs
  · exact hs hstatus
  · exact hid hs
  · exact hnonce hs
  · exact htool hs

/-! ## Syncing one carrier -/

/-- The loop keeps the projections known. -/
theorem Sound.sync (hc : ∃ e ∈ carriers, e.2 = c) (sessionId : Str) {l : List (Str × Pending)}
    (hwas : ∀ t ∈ l, t.2.IsApproval t.1 → Was c.session t.2.approvalId.strip)
    (h : Sound Was carriers ps) : Sound Was carriers (c.sync sessionId l ps).2 := by
  induction l generalizing ps with
  | nil => exact h
  | cons t l ih =>
    have hrest : ∀ t ∈ l, t.2.IsApproval t.1 → Was c.session t.2.approvalId.strip :=
      fun t ht ↦ hwas t (mem_cons_of_mem _ ht)
    rw [Carrier.sync]
    split
    · exact ih hrest h
    · exact h
    next p hread =>
      split
      · exact h
      · obtain ⟨happroval, hid, hreg⟩ := read_eq_live hread
        obtain ⟨e, he, rfl⟩ := hc
        have hp : Known Was carriers p :=
          ⟨e, he, hreg, hid ▸ hwas _ mem_cons_self happroval⟩
        have hset := ih hrest (h.set hp)
        split
        next hsync => rwa [hsync] at hset
        next hsync => rwa [hsync] at hset

/-- What a loop that goes through has done: it has kept what was there, and projected every approval
of the session. -/
theorem sync_ok {l : List (Str × Pending)} {live : List Str} (hnodup : (ps.map Prod.fst).Nodup)
    (h : (c.sync sessionId l ps).1 = .ok live) : (∀ e ∈ ps, e ∈ (c.sync sessionId l ps).2) ∧
      (∀ t ∈ l, t.2.IsApproval t.1 → t.2.approvalId.strip ∈ live) ∧
      ∀ id ∈ live, ∃ p : Projection, (id, p) ∈ (c.sync sessionId l ps).2 ∧ p.RegisteredBy c := by
  induction l generalizing ps live with
  | nil =>
    cases h
    exact ⟨fun e he ↦ he, by simp, by simp⟩
  | cons t l ih =>
    rw [Carrier.sync] at h ⊢
    split at h
    next hread =>
      obtain ⟨hkept, hlive, hprojected⟩ := ih hnodup h
      refine ⟨hkept, fun t ht happroval ↦ ?_, hprojected⟩
      rcases mem_cons.1 ht with rfl | ht
      · exact absurd happroval (not_isApproval_of_skip hread)
      · exact hlive t ht happroval
    · cases h
    next p hread =>
      split at h
      · cases h
      next hconflict =>
        rw [if_neg hconflict]
        obtain ⟨-, hid, hreg⟩ := read_eq_live hread
        split at h
        next live' ps' hsync =>
          cases h
          have hok : (c.sync sessionId l (ps.set p.approvalId p)).1 = .ok live' := by rw [hsync]
          obtain ⟨hkept, hlive, hprojected⟩ := ih (Dict.nodup_keys_set hnodup _ _) hok
          rw [hsync] at hkept hprojected
          refine ⟨fun e he ↦ hkept e ?_, fun t ht happroval ↦ ?_, fun id hmem ↦ ?_⟩
          · -- an approval that is projected already is projected in the same way
            rw [Dict.mem_set]
            by_cases heq : e.1 = p.approvalId
            · left
              by_contra hne
              refine hconflict ⟨e.2, ?_, fun heq' ↦ hne (Prod.ext heq heq')⟩
              rw [← heq]
              exact Dict.lookup_of_mem hnodup he
            · exact .inr ⟨he, heq⟩
          · rcases mem_cons.1 ht with rfl | ht
            · exact hid ▸ mem_cons_self
            · exact mem_cons_of_mem _ (hlive t ht happroval)
          · rcases mem_cons.1 hmem with rfl | hmem
            · exact ⟨p, hkept _ (Dict.mem_set.2 (.inl rfl)), hreg⟩
            · exact hprojected id hmem
        · cases h

/-! ## Syncing carriers -/

variable {sessions : Sessions} {reg : Registry}

theorem Sound.syncCarrier (hc : ∃ e ∈ carriers, e.2 = c) (force : Bool)
    (hwas : ∀ id, PendingIn sessions c.session id → Was c.session id)
    (h : Sound Was carriers reg.projections) :
    Sound Was carriers (syncCarrier sessions reg c force).2.projections := by
  rw [BatchApprovals.syncCarrier]
  split
  · exact h
  · dsimp only
    split
    · exact h
    · have hsync := h.sync hc (sessions c.session).sessionId.strip
        (l := (sessions c.session).pendingTools)
        fun t ht happroval ↦ hwas _ ⟨t, ht, happroval, rfl⟩
      split
      next heq => rwa [heq] at hsync
      next heq =>
        rw [heq] at hsync
        exact hsync.filter _

/-- What a sync that goes through has done: what is projected of the session is what the carrier
says, every approval of the session is projected, and what is projected of other sessions is kept.
-/
theorem syncCarrier_ok (hc : ∃ e ∈ carriers, e.2 = c)
    (hwas : ∀ id, PendingIn sessions c.session id → Was c.session id)
    (hsound : Sound Was carriers reg.projections) {reg' : Registry}
    (h : syncCarrier sessions reg c true = (.ok (), reg')) :
    (∀ e ∈ reg.projections, e.2.session ≠ c.session → e ∈ reg'.projections) ∧
      (∀ id, PendingIn sessions c.session id →
        ∃ p : Projection, (id, p) ∈ reg'.projections ∧ p.RegisteredBy c) ∧
      ∀ e ∈ reg'.projections, e.2.session = c.session → e.2.RegisteredBy c := by
  rw [syncCarrier, if_neg (by simp)] at h
  dsimp only at h
  split at h
  · cases h
  · split at h
    · cases h
    next live ps hsync =>
      cases h
      have hok : (c.sync (sessions c.session).sessionId.strip (sessions c.session).pendingTools
          reg.projections).1 = .ok live := by rw [hsync]
      obtain ⟨hkept, hlive, hprojected⟩ := sync_ok hsound.nodup hok
      have hsound' := hsound.sync hc (sessions c.session).sessionId.strip
        (l := (sessions c.session).pendingTools)
        fun t ht happroval ↦ hwas _ ⟨t, ht, happroval, rfl⟩
      rw [hsync] at hkept hprojected hsound'
      refine ⟨fun e he hne ↦ ?_, fun id hpending ↦ ?_, fun e he hsession ↦ ?_⟩
      · exact mem_filter.2 ⟨hkept e he, decide_eq_true (.inl hne)⟩
      · obtain ⟨t, ht, happroval, rfl⟩ := hpending
        have hmem := hlive t ht happroval
        obtain ⟨p, hp, hreg⟩ := hprojected _ hmem
        exact ⟨p, mem_filter.2 ⟨hp, decide_eq_true (.inr hmem)⟩, hreg⟩
      · obtain ⟨he, hkeep⟩ := mem_filter.1 he
        have hmem := (of_decide_eq_true hkeep).resolve_left (fun hne ↦ hne hsession)
        obtain ⟨p, hp, hreg⟩ := hprojected _ hmem
        rwa [inj_on_of_nodup_map hsound'.nodup he hp rfl]

theorem Sound.syncCarriers {cs : List Carrier} (hcs : ∀ c ∈ cs, ∃ e ∈ carriers, e.2 = c)
    (hwas : ∀ session id, PendingIn sessions session id → Was session id)
    (h : Sound Was carriers reg.projections) :
    Sound Was carriers (syncCarriers sessions cs reg).2.projections := by
  induction cs generalizing reg with
  | nil => exact h
  | cons c cs ih =>
    have hone := h.syncCarrier (hcs c mem_cons_self) true (hwas c.session)
    rw [BatchApprovals.syncCarriers]
    split
    next hsync =>
      rw [hsync] at hone
      exact ih (fun c hc ↦ hcs c (mem_cons_of_mem _ hc)) hone
    next hsync => rwa [hsync] at hone

/-- **If the carriers of distinct sessions are synced, every approval of these sessions is
projected.** -/
theorem syncCarriers_ok {cs : List Carrier} (hcs : ∀ c ∈ cs, ∃ e ∈ carriers, e.2 = c)
    (hwas : ∀ session id, PendingIn sessions session id → Was session id)
    (hsessions : (cs.map Carrier.session).Nodup) (hsound : Sound Was carriers reg.projections)
    {reg' : Registry} (h : syncCarriers sessions cs reg = (.ok (), reg')) :
    (∀ e ∈ reg.projections, (∀ c ∈ cs, e.2.session ≠ c.session) → e ∈ reg'.projections) ∧
      ∀ c ∈ cs, ∀ id, PendingIn sessions c.session id →
        ∃ p : Projection, (id, p) ∈ reg'.projections ∧ p.RegisteredBy c := by
  induction cs generalizing reg with
  | nil =>
    cases h
    exact ⟨fun e he _ ↦ he, by simp⟩
  | cons c cs ih =>
    rw [map_cons, nodup_cons] at hsessions
    have hone := hsound.syncCarrier (hcs c mem_cons_self) true (hwas c.session)
    rw [syncCarriers] at h
    split at h
    next reg₁ hsync =>
      obtain ⟨hkept, hprojected, -⟩ := syncCarrier_ok (hcs c mem_cons_self)
        (hwas c.session) hsound hsync
      rw [hsync] at hone
      obtain ⟨hkept', hprojected'⟩ := ih (fun c hc ↦ hcs c (mem_cons_of_mem _ hc))
        hsessions.2 hone h
      refine ⟨fun e he hne ↦ ?_, fun d hd id hpending ↦ ?_⟩
      · exact hkept' e (hkept e he (hne c mem_cons_self))
          fun d hd ↦ hne d (mem_cons_of_mem _ hd)
      · rcases mem_cons.1 hd with rfl | hd
        · obtain ⟨p, hp, hreg⟩ := hprojected id hpending
          refine ⟨p, hkept' _ hp fun d' hd' heq ↦ hsessions.1 ?_, hreg⟩
          exact mem_map.2 ⟨d', hd', by rw [← heq, ← hreg.session]⟩
        · exact hprojected' d hd id hpending
    · cases h

/-! ## Merging -/

/-- The projections of a batch. -/
theorem mem_snapshotForBatch {key : Key} :
    p ∈ snapshotForBatch reg key ↔ (∃ id, (id, p) ∈ reg.projections) ∧ p.key = key := by
  rw [snapshotForBatch, (perm_insertionSort _ _).mem_iff, mem_filter, mem_map,
    decide_eq_true_eq]
  simp only [Prod.exists, exists_eq_right]

section Merge

variable {first later : List Projection}

/-- The dictionary that sets of projections are merged into. -/
def merged (ps : List Projection) : Projections :=
  Dict.update [] (ps.map fun p ↦ (p.approvalId, p))

theorem mergeProjectionSets_perm (first later : List Projection) :
    (mergeProjectionSets first later).Perm ((merged (first ++ later)).map Prod.snd) :=
  perm_insertionSort _ _

theorem mem_of_mem_merged {ps : List Projection} {e : Str × Projection} (h : e ∈ merged ps) :
    e.2 ∈ ps ∧ e.2.approvalId = e.1 := by
  rcases Dict.mem_of_mem_update h with h | h
  · cases h
  · obtain ⟨p, hp, rfl⟩ := mem_map.1 h
    exact ⟨hp, rfl⟩

theorem mem_of_mem_mergeProjectionSets (h : p ∈ mergeProjectionSets first later) :
    p ∈ first ∨ p ∈ later := by
  obtain ⟨e, he, rfl⟩ := mem_map.1 ((mergeProjectionSets_perm first later).mem_iff.1 h)
  exact mem_append.1 (mem_of_mem_merged he).1

/-- The approvals of a merge are the keys of the dictionary. -/
theorem ids_mergeProjectionSets (first later : List Projection) :
    ((mergeProjectionSets first later).map Projection.approvalId).Perm
      ((merged (first ++ later)).map Prod.fst) := by
  refine ((mergeProjectionSets_perm first later).map _).trans (List.Perm.of_eq ?_)
  rw [map_map]
  exact map_congr_left fun e he ↦ (mem_of_mem_merged he).2

/-- **A merge has every approval, once.** -/
theorem nodup_mergeProjectionSets (first later : List Projection) :
    ((mergeProjectionSets first later).map Projection.approvalId).Nodup :=
  (ids_mergeProjectionSets first later).nodup_iff.2 (Dict.nodup_keys_update (d := []) nodup_nil _)

theorem mem_mergeProjectionSets (h : p ∈ first ∨ p ∈ later) :
    p.approvalId ∈ (mergeProjectionSets first later).map Projection.approvalId := by
  rw [(ids_mergeProjectionSets first later).mem_iff]
  refine Dict.mem_keys_update (.inr ?_)
  rw [map_map]
  exact mem_map.2 ⟨p, mem_append.2 h, rfl⟩

end Merge

end Sound

end AgentGateway.BatchApprovals
