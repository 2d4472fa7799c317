import Mathlib

/-!
# The last two entries of a session log

`append_terminal_pair_sync` writes the recap and the detach of a session together, and takes both
back if anything raises.  Two things have to be taken back: the bytes of the active file, and the
sequence number in the manifest, which the next append continues from.

Before it writes, the call settles what a writer that died may have left (`Host.repair`) and moves a
file that has grown too large to a segment (`Host.rotate`).  The handler knows the log as it is
after these two.  It cuts the file at its old end, and sets the manifest by the helper that every
append uses, which never lowers the number.

`terminal_pair_rolled_back_iff` says, for every log and for a failure at any place in the call,
which calls leave the log as it was.  Among those that do not is the one whose manifest is replaced
before its write raises: the number of the detach stays, and the next append leaves a gap
(`terminal_pair_leaves_gap`).
-/

open List

namespace AgentGateway.SessionLog

/-- The active file, the `latest_seq` of the manifest if there is one, and the segments, each with
the first and the last sequence number that its name gives. -/
structure Log where
  active : List UInt8
  manifest : Option Int
  segments : List (Int × Int)
deriving DecidableEq

/-- The encoding of the entries of type `E`, which is JSON, and the limit on the active file. -/
structure Host (E : Type) where
  maxActiveBytes : Option Nat
  encodeEntry : Int → E → List UInt8
  /-- `_parse_entry`: the sequence number of a line, if it is an entry -/
  parseEntry : List UInt8 → Option Int
  /-- does `_parse_entry_current_strict` accept the line? -/
  parsesStrict : List UInt8 → Bool

/-- How far a rotation has come: the file has not been moved, it has, or the manifest says so too.
-/
inductive RotationStep where
  | started
  | renamed
  | written
deriving DecidableEq

/-- Where the call fails. -/
inductive Failure where
  /-- in `_recover_torn_active_tail_locked`, before or after the tail is settled -/
  | tail (tookEffect : Bool)
  /-- in the rest of `_repair_manifest_locked`, before or after the manifest is replaced -/
  | repair (tookEffect : Bool)
  /-- in the rotation, or after it and before the write -/
  | rotation (step : RotationStep)
  /-- at the write, the flush, the fsync or the check of the growth, with the file as it then is -/
  | data (now : List UInt8)
  /-- at the write of the manifest, before or after it is replaced -/
  | manifest (tookEffect : Bool)
deriving DecidableEq

/-! ## The files -/

/-- The file is empty or ends in a newline. -/
def terminated (bs : List UInt8) : Bool := bs.getLast?.all (· == 10)

/-- `update_manifest_latest_seq_locked` -/
def Log.updateLatestSeq (l : Log) (seq : Int) : Log :=
  match l.manifest with
  | none => l
  | some latest => if seq ≤ latest then l else { l with manifest := some seq }

/-- The handler of `append_terminal_pair_sync`.  A file that has become shorter is filled up. -/
def Log.rollback (l : Log) (offset : Nat) (previousSeq : Int) : Log :=
  let active := l.active.take offset ++ replicate (offset - l.active.length) 0
  { l with active }.updateLatestSeq previousSeq

/-- The last numbers of the segments that get a descriptor. -/
def Log.segmentSeqs (l : Log) : List Int :=
  (l.segments.filter fun s ↦ decide (0 < s.1 ∧ s.1 ≤ s.2)).map Prod.snd

section

variable {E : Type} (H : Host E)

/-- The sequence numbers of a file. -/
def Host.seqs (bs : List UInt8) : List Int :=
  ((bs.splitOn 10).filter (· ≠ [])).filterMap H.parseEntry

/-- `_latest_seq_from_handle` -/
def Host.lastSeq (bs : List UInt8) : Int := (H.seqs bs).getLast?.getD 0

/-- `_seq_bounds_for_file` -/
def Host.seqBounds (bs : List UInt8) : Int × Int :=
  let first := (H.seqs bs).head?.getD 0
  if first = 0 then (0, 0) else (first, H.lastSeq bs)

/-- `_recover_torn_active_tail_locked` -/
def Host.recoverTail (bs : List UInt8) : List UInt8 :=
  if terminated bs then bs
  else
    let start := bs.rdropWhile (· ≠ 10)
    if H.parsesStrict (bs.drop start.length) then bs ++ [10] else start

/-- The manifest that `_repair_manifest_locked` writes, once the tail of the file is settled. -/
def Host.repairManifest (l : Log) : Log :=
  if l.manifest = none ∧ l.segmentSeqs = [] then l
  else { l with manifest := some (max (max (l.manifest.getD 0) (l.segmentSeqs.foldr max 0))
    (H.seqBounds l.active).2) }

/-- `_repair_manifest_locked` -/
def Host.repair (l : Log) : Log := H.repairManifest { l with active := H.recoverTail l.active }

/-- The active file is to be rotated. -/
def Host.Oversize (bs : List UInt8) : Prop :=
  H.maxActiveBytes.any (· < bs.length) ∧ bs ≠ [] ∧ 0 < (H.seqBounds bs).1 ∧ 0 < (H.seqBounds bs).2

instance (bs : List UInt8) : Decidable (H.Oversize bs) := by
  unfold Host.Oversize
  infer_instance

/-- `rotate_active_if_needed_locked`, up to a step -/
def Host.rotateTo (l : Log) (step : RotationStep) : Log :=
  if H.Oversize l.active then
    let last := (H.seqBounds l.active).2
    let segments := l.segments ++ [H.seqBounds l.active]
    match step with
    | .started => l
    | .renamed => ⟨[], l.manifest, segments⟩
    | .written => ⟨[], some (max (l.manifest.getD 0) last), segments⟩
  else l

def Host.rotate (l : Log) : Log := H.rotateTo l .written

/-- `_latest_seq_for_append` -/
def Host.latestSeq (l : Log) : Int := max (l.manifest.getD 0) (H.lastSeq l.active)

/-- The number that the next append gives to its entry. -/
def Host.nextSeq (l : Log) : Int := H.latestSeq (H.rotate (H.repair l)) + 1

/-- `append_terminal_pair_sync`: whether it returns, and the log after it -/
def Host.appendTerminalPair (recap detach : E) (failure : Option Failure) (log : Log) :
    Bool × Log :=
  let recovered := { log with active := H.recoverTail log.active }
  let repaired := H.repairManifest recovered
  let l := H.rotate repaired
  let previousSeq := H.latestSeq l
  let written := { l with active := l.active ++
    (H.encodeEntry (previousSeq + 1) recap ++ H.encodeEntry (previousSeq + 2) detach) }
  let updated := written.updateLatestSeq (previousSeq + 2)
  match failure with
  | none => (true, updated)
  | some (.tail tookEffect) => (false, if tookEffect then recovered else log)
  | some (.repair tookEffect) => (false, if tookEffect then repaired else recovered)
  | some (.rotation step) => (false, H.rotateTo repaired step)
  | some (.data now) => (false, { l with active := now }.rollback l.active.length previousSeq)
  | some (.manifest tookEffect) =>
    -- without a manifest there is no write that could fail
    if l.manifest = none then (true, updated)
    else (false, (if tookEffect then updated else written).rollback l.active.length previousSeq)

/-- The file of the log is neither repaired nor rotated. -/
structure Host.Quiet (l : Log) : Prop where
  terminated : terminated l.active
  size : ¬ H.Oversize l.active

/-- The failures after which the log is as it was: nothing was changed before the write, nobody cut
the file below its old end, and the manifest was not replaced. -/
def Host.TakenBack (l : Log) : Failure → Prop
  | .tail tookEffect => terminated l.active ∨ tookEffect = false
  | .repair _ => terminated l.active
  | .rotation step => terminated l.active ∧ (H.Oversize l.active → step = .started)
  | .data now => H.Quiet l ∧ l.active <+: now
  | .manifest tookEffect => H.Quiet l ∧ tookEffect = false

end

variable {E : Type} {H : Host E} {l : Log}

/-- The helper only raises the number. -/
theorem updateLatestSeq_eq (l : Log) (seq : Int) :
    l.updateLatestSeq seq = { l with manifest := l.manifest.map (max seq) } := by
  obtain ⟨active, manifest, segments⟩ := l
  cases manifest with
  | none => rfl
  | some latest =>
    rw [Log.updateLatestSeq, Option.map_some]
    dsimp only
    split
    next hle => rw [max_eq_right hle]
    next hlt => rw [max_eq_left (by omega)]

@[simp] theorem length_rollback (offset : Nat) (previousSeq : Int) :
    (l.rollback offset previousSeq).active.length = offset := by
  simp only [Log.rollback, updateLatestSeq_eq, length_append, length_take, length_replicate]
  omega

/-- Of a file that is settled the repair writes the manifest only. -/
theorem repairManifest_eq (l : Log) :
    H.repairManifest l = ⟨l.active, (H.repairManifest l).manifest, l.segments⟩ := by
  rw [Host.repairManifest]
  split <;> rfl

@[simp] theorem active_repairManifest : (H.repairManifest l).active = l.active := by
  rw [repairManifest_eq]

/-! ## A file that is repaired or rotated -/

theorem recoverTail_of_terminated {bs : List UInt8} (h : terminated bs) : H.recoverTail bs = bs :=
  if_pos h

theorem repair_of_terminated (h : terminated l.active) : H.repair l = H.repairManifest l := by
  rw [Host.repair, recoverTail_of_terminated h]

theorem rotateTo_of_not_oversize (h : ¬ H.Oversize l.active) (step : RotationStep) :
    H.rotateTo l step = l :=
  if_neg h

theorem ne_nil_of_not_terminated {bs : List UInt8} (h : ¬ terminated bs) : bs ≠ [] := by
  rintro rfl
  exact h rfl

/-- A torn tail is cut off or completed. -/
theorem length_recoverTail_ne {bs : List UInt8} (h : ¬ terminated bs) :
    (H.recoverTail bs).length ≠ bs.length := by
  rw [Host.recoverTail, if_neg h]
  dsimp only
  split
  · simp
  · intro hlen
    have hcut := rdropWhile_prefix (· ≠ 10) bs
    have hlast := rdropWhile_eq_self_iff.1 (hcut.eq_of_length hlen) (ne_nil_of_not_terminated h)
    rw [terminated, getLast?_eq_getLast_of_ne_nil (ne_nil_of_not_terminated h)] at h
    simp_all

theorem active_rotateTo (l : Log) (step : RotationStep) :
    (H.rotateTo l step).active = l.active ∨ (H.rotateTo l step).active = [] := by
  rw [Host.rotateTo]
  split
  · cases step
    · exact .inl rfl
    · exact .inr rfl
    · exact .inr rfl
  · exact .inl rfl

/-- Once the file is repaired or moved, no rotation gives the old one back. -/
theorem length_rotateTo_ne {l₁ : Log} (hactive : l₁.active = H.recoverTail l.active)
    {step : RotationStep}
    (h : terminated l.active → H.Oversize l.active ∧ step ≠ .started) :
    (H.rotateTo l₁ step).active.length ≠ l.active.length := by
  by_cases hterm : terminated l.active
  · obtain ⟨hsize, hstep⟩ := h hterm
    have hpos := length_pos_iff.2 hsize.2.1
    rw [Host.rotateTo, hactive, recoverTail_of_terminated hterm, if_pos hsize]
    cases step with
    | started => exact absurd rfl hstep
    | renamed => exact hpos.ne
    | written => exact hpos.ne
  · rcases active_rotateTo (H := H) l₁ step with heq | heq
    · rw [heq, hactive]
      exact length_recoverTail_ne hterm
    · have hpos := length_pos_iff.2 (ne_nil_of_not_terminated hterm)
      rw [heq]
      exact hpos.ne

/-! ## The next number -/

/-- A manifest that is ahead of the segments and of the file needs no repair. -/
theorem repairManifest_eq_self {m : Int} (hm : l.manifest = some m)
    (hsegments : l.segmentSeqs.foldr max 0 ≤ m) (hactive : (H.seqBounds l.active).2 ≤ m) :
    H.repairManifest l = l := by
  have hmax : max (max m (l.segmentSeqs.foldr max 0)) (H.seqBounds l.active).2 = m := by omega
  rw [Host.repairManifest, if_neg (by simp [hm]), hm, Option.getD_some, hmax, ← hm]

/-- What a repair wrote needs no repair, nor does it with a higher number. -/
theorem repairManifest_map (l : Log) {f : Int → Int} (hf : ∀ m, m ≤ f m) :
    H.repairManifest ⟨l.active, (H.repairManifest l).manifest.map f, l.segments⟩ =
      ⟨l.active, (H.repairManifest l).manifest.map f, l.segments⟩ := by
  by_cases hnone : l.manifest = none ∧ l.segmentSeqs = []
  · have heq : H.repairManifest l = l := if_pos hnone
    rw [heq, hnone.1]
    exact if_pos ⟨rfl, hnone.2⟩
  · have heq : H.repairManifest l = { l with manifest := some _ } := if_neg hnone
    have hle := hf (max (max (l.manifest.getD 0) (l.segmentSeqs.foldr max 0))
      (H.seqBounds l.active).2)
    rw [heq]
    refine repairManifest_eq_self rfl ?_ ?_
    · dsimp only [Log.segmentSeqs] at hle ⊢
      omega
    · dsimp only
      omega

theorem nextSeq_repairManifest (hterm : terminated l.active) :
    H.nextSeq (H.repairManifest l) = H.nextSeq l := by
  have hidem := repairManifest_map (H := H) l (f := id) fun _ ↦ le_rfl
  rw [Option.map_id_apply, ← repairManifest_eq] at hidem
  have hterm' : terminated (H.repairManifest l).active := by rwa [active_repairManifest]
  rw [Host.nextSeq, Host.nextSeq, repair_of_terminated hterm, repair_of_terminated hterm', hidem]

theorem le_latestSeq : ∀ m ∈ l.manifest, m ≤ H.latestSeq l := by
  intro m hm
  rw [Host.latestSeq, hm, Option.getD_some]
  exact le_max_left _ _

/-- Cut at its old end, a file that had only grown is the old one. -/
theorem rollback_of_extended {l₁ : Log} {bs : List UInt8} (h : bs <+: l₁.active) (seq : Int) :
    l₁.rollback bs.length seq = { l₁ with active := bs }.updateLatestSeq seq := by
  obtain ⟨tail, htail⟩ := h
  rw [Log.rollback, ← htail, take_left]
  simp

/-- Where a file that ends in a newline is filled up with zeros it is not the old one. -/
theorem active_rollback_iff (hterm : terminated l.active) {l₁ : Log} (seq : Int) :
    (l₁.rollback l.active.length seq).active = l.active ↔ l.active <+: l₁.active := by
  constructor
  · intro h
    rw [Log.rollback, updateLatestSeq_eq] at h
    rcases Nat.lt_or_ge l₁.active.length l.active.length with hlt | hle
    · obtain ⟨k, hk⟩ := Nat.exists_eq_add_of_lt hlt
      rw [← h, show l.active.length - l₁.active.length = k + 1 by omega, replicate_succ',
        ← append_assoc, terminated, getLast?_concat] at hterm
      exact absurd hterm (by decide)
    · rw [Nat.sub_eq_zero_of_le hle, replicate_zero, append_nil] at h
      exact h ▸ take_prefix _ _
  · intro h
    rw [rollback_of_extended h, updateLatestSeq_eq]

/-- The handler gives back the file as it is after the repair and the rotation. -/
theorem rollback_ne (h : ¬ H.Quiet l) {l₁ : Log} {seq : Int} :
    (l₁.rollback (H.rotate (H.repairManifest
      { l with active := H.recoverTail l.active })).active.length seq).active ≠ l.active := by
  intro heq
  refine length_rotateTo_ne (H := H) (l := l) active_repairManifest (fun hterm ↦ ?_)
    ((length_rollback _ _).symm.trans (congrArg length heq))
  exact ⟨by_contra fun hsize ↦ h ⟨hterm, hsize⟩, by decide⟩

namespace Host.Quiet

variable (h : H.Quiet l)

include h

theorem rotate_repair : H.rotate (H.repairManifest { l with active := H.recoverTail l.active }) =
    H.repairManifest l := by
  rw [recoverTail_of_terminated h.terminated]
  exact rotateTo_of_not_oversize (by rw [active_repairManifest]; exact h.size) _

theorem nextSeq : H.nextSeq l = H.latestSeq (H.repairManifest l) + 1 := by
  rw [Host.nextSeq, Host.repair, h.rotate_repair]

theorem nextSeq_map {f : Int → Int} (hf : ∀ m, m ≤ f m) :
    H.nextSeq ⟨l.active, (H.repairManifest l).manifest.map f, l.segments⟩ =
      max (((H.repairManifest l).manifest.map f).getD 0) (H.lastSeq l.active) + 1 := by
  have hquiet : H.Quiet ⟨l.active, (H.repairManifest l).manifest.map f, l.segments⟩ :=
    ⟨h.terminated, h.size⟩
  rw [hquiet.nextSeq, repairManifest_map l hf, Host.latestSeq]

/-- The handler gives the log back if nobody cut the file, and the manifest is not ahead. -/
theorem rolled_back_iff (bs : List UInt8) {f : Int → Int} (hf : ∀ m, m ≤ f m) {l₁ : Log}
    (hl₁ : l₁ = ⟨bs, (H.repairManifest l).manifest.map f, l.segments⟩) :
    ((l₁.rollback l.active.length (H.latestSeq (H.repairManifest l))).active = l.active ∧
      H.nextSeq (l₁.rollback l.active.length (H.latestSeq (H.repairManifest l))) = H.nextSeq l) ↔
    l.active <+: bs ∧
      ∀ m ∈ (H.repairManifest l).manifest, f m ≤ H.latestSeq (H.repairManifest l) := by
  subst hl₁
  rw [active_rollback_iff h.terminated]
  refine and_congr_right fun hextends ↦ ?_
  have hnext := h.nextSeq_map fun m ↦
    (hf m).trans (le_max_right (H.latestSeq (H.repairManifest l)) _)
  rw [rollback_of_extended hextends, updateLatestSeq_eq, Option.map_map, Function.comp_def, hnext,
    h.nextSeq]
  generalize hprevious : H.latestSeq (H.repairManifest l) = previousSeq
  rw [Host.latestSeq, active_repairManifest] at hprevious
  cases hm : (H.repairManifest l).manifest with
  | none => simpa [hm] using hprevious
  | some m =>
    have hle := hf m
    simp only [hm, Option.map_some, Option.getD_some, Option.mem_def, Option.some.injEq, forall_eq']
      at hprevious ⊢
    omega

end Host.Quiet

/-- **A failed call leaves the bytes and the next sequence number as they were exactly if** the file
was neither repaired nor rotated before, nobody cut it, and the manifest was not replaced before its
write raised. -/
theorem terminal_pair_rolled_back_iff (recap detach : E) {failure : Failure} {l' : Log}
    (h : H.appendTerminalPair recap detach (some failure) l = (false, l')) :
    (l'.active = l.active ∧ H.nextSeq l' = H.nextSeq l) ↔ H.TakenBack l failure := by
  have hrepaired : (H.repairManifest { l with active := H.recoverTail l.active }).active =
      H.recoverTail l.active := active_repairManifest
  cases failure with
  | tail tookEffect =>
    obtain ⟨-, rfl⟩ := Prod.mk.inj h
    cases tookEffect with
    | false => exact iff_of_true ⟨rfl, rfl⟩ (.inr rfl)
    | true =>
      by_cases hterm : terminated l.active
      · rw [recoverTail_of_terminated hterm]
        exact iff_of_true ⟨rfl, rfl⟩ (.inl hterm)
      · refine iff_of_false (fun hkept ↦ length_recoverTail_ne hterm (congrArg length hkept.1)) ?_
        simpa [Host.TakenBack] using hterm
  | repair tookEffect =>
    obtain ⟨-, rfl⟩ := Prod.mk.inj h
    by_cases hterm : terminated l.active
    · rw [recoverTail_of_terminated hterm]
      refine iff_of_true ?_ hterm
      cases tookEffect with
      | false => exact ⟨rfl, rfl⟩
      | true => exact ⟨active_repairManifest, nextSeq_repairManifest hterm⟩
    · refine iff_of_false
        (fun hkept ↦ length_recoverTail_ne (H := H) hterm (congrArg length ?_)) hterm
      cases tookEffect with
      | false => exact hkept.1
      | true => exact hrepaired ▸ hkept.1
  | rotation step =>
    obtain ⟨-, rfl⟩ := Prod.mk.inj h
    by_cases hkept : H.TakenBack l (.rotation step)
    · refine iff_of_true ?_ hkept
      have hrotate : H.rotateTo (H.repairManifest l) step = H.repairManifest l := by
        rw [Host.rotateTo, active_repairManifest]
        split
        next hsize => rw [hkept.2 hsize]
        · rfl
      rw [recoverTail_of_terminated hkept.1, hrotate]
      exact ⟨active_repairManifest, nextSeq_repairManifest hkept.1⟩
    · refine iff_of_false (fun hback ↦ length_rotateTo_ne hrepaired (fun hterm ↦ ?_)
        (congrArg length hback.1)) hkept
      by_contra hcon
      exact hkept ⟨hterm, fun hsize ↦ by_contra fun hstep ↦ hcon ⟨hsize, hstep⟩⟩
  | data now =>
    obtain ⟨-, rfl⟩ := Prod.mk.inj h
    by_cases hquiet : H.Quiet l
    · rw [hquiet.rotate_repair, active_repairManifest]
      refine (hquiet.rolled_back_iff now (f := id) (fun _ ↦ le_rfl) ?_).trans ?_
      · rw [repairManifest_eq, Option.map_id_apply]
      · exact ⟨fun hback ↦ ⟨hquiet, hback.1⟩, fun hkept ↦ ⟨hkept.2, le_latestSeq⟩⟩
    · exact iff_of_false (fun hback ↦ rollback_ne hquiet hback.1) fun hkept ↦ hquiet hkept.1
  | manifest tookEffect =>
    rw [Host.appendTerminalPair.eq_def] at h
    dsimp only at h
    split at h
    · cases h
    next hsome =>
    obtain ⟨-, rfl⟩ := Prod.mk.inj h
    by_cases hquiet : H.Quiet l
    · rw [hquiet.rotate_repair] at hsome ⊢
      rw [active_repairManifest, updateLatestSeq_eq]
      generalize hpair : l.active ++ (_ ++ _) = written
      have hextends : l.active <+: written := ⟨_, hpair⟩
      cases tookEffect with
      | false =>
        refine (hquiet.rolled_back_iff written (f := id) (fun _ ↦ le_rfl) ?_).trans ?_
        · rw [repairManifest_eq, Option.map_id_apply]
          rfl
        · exact iff_of_true ⟨hextends, le_latestSeq⟩ ⟨hquiet, rfl⟩
      | true =>
        refine (hquiet.rolled_back_iff written
          (le_max_right (H.latestSeq (H.repairManifest l) + 2)) ?_).trans ?_
        · rw [repairManifest_eq]
          rfl
        · obtain ⟨m, hm⟩ := Option.ne_none_iff_exists'.1 hsome
          refine iff_of_false (fun hle ↦ ?_) (by simp [Host.TakenBack])
          have := hle.2 m hm
          omega
    · exact iff_of_false (fun hback ↦ rollback_ne hquiet hback.1) fun hkept ↦ hquiet hkept.1

/-- Entries of one byte, their number. -/
def sampleHost : Host Unit :=
  ⟨none, fun seq _ ↦ [.ofNat seq.toNat, 10], fun line ↦ line.head?.map (·.toNat),
    fun line ↦ line.length = 1⟩

/-- The manifest is behind, and the write of the recap fails after its first byte. -/
theorem terminal_pair_rolled_back_sample : ∃ l',
    sampleHost.appendTerminalPair () () (some (.data [1, 10, 2, 10, 3]))
      ⟨[1, 10, 2, 10], some 1, []⟩ = (false, l') ∧
    l'.active = [1, 10, 2, 10] ∧ sampleHost.nextSeq l' = 3 := by
  have h : sampleHost.appendTerminalPair () () (some (.data [1, 10, 2, 10, 3]))
      ⟨[1, 10, 2, 10], some 1, []⟩ = (false, ⟨[1, 10, 2, 10], some 2, []⟩) := by decide
  exact ⟨_, h, (terminal_pair_rolled_back_iff () () h).2 ⟨⟨by decide, by decide⟩, [3], rfl⟩⟩

/-- The manifest was written, and then its write raised: the next entry gets the number `4`. -/
theorem terminal_pair_leaves_gap :
    sampleHost.appendTerminalPair () () (some (.manifest true)) ⟨[1, 10], some 1, []⟩ =
        (false, ⟨[1, 10], some 3, []⟩) ∧
      sampleHost.nextSeq ⟨[1, 10], some 1, []⟩ = 2 ∧
      sampleHost.nextSeq ⟨[1, 10], some 3, []⟩ = 4 := by
  decide

end AgentGateway.SessionLog
