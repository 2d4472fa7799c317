import AgentGateway.Py.Runs
import AgentGateway.Schedules.Store

/-!
# Scheduled fires

`System` is a store with the launches that are under way in one process: those that polls have
claimed, and those that users have asked for (`run now`).  Starting a run takes a while, and
everything else may happen in the meantime; what a launch has left to do is to record its result.

A claim keeps other polls off a schedule, until it is stale or its result is recorded, and the
result moves `next_run_at` beyond the instant that was due.  So an instant is launched once
(`scheduled_fire_once`), as long as nothing takes the claim away in between.

There is something that does.  A run-now launch records its result without a claim, and that gives
up whatever claim there is, without moving `next_run_at` on.  The result of the claimant is then
refused, and the instant is due once more (`run_now_releases_claim`).

And `next_run_at` may come out too early.  It is found by comparing readings of the local clock, and
in an hour that the clock repeats a later reading may stand for an earlier instant, such as the one
that was just fired.  `Ahead` says of an instant that this does not happen.
-/

namespace AgentGateway.Schedules

open Py List

variable {δ : Type}

/-! ## The system -/

structure System (δ : Type) where
  store : Store δ
  /-- The schedules and claims of the scheduled launches that are under way. -/
  launches : List (String × String)
  /-- The schedules of the run-now launches that are under way. -/
  runNows : List String
  /-- The claim identifiers that have been drawn. -/
  claimIds : List String
  /-- The last reading of the clock. -/
  clock : Int

/-- What can happen, with the clock as it is read. -/
inductive Act (δ : Type) where
  /-- A poll draws a claim identifier, and starts a launch if it gets the claim. -/
  | claim (scheduleId claimId : String) (now : Int)
  /-- A scheduled launch ends in `_fire_record`. -/
  | finish (scheduleId claimId : String) (result : FireResult) (now : Int)
  /-- `fire_record_now` -/
  | runNow (scheduleId : String)
  /-- A run-now launch ends in `_fire_record`. -/
  | finishNow (scheduleId : String) (result : FireResult) (now : Int)
  | update (ownerUserId identifier : String) (payload : UpdateRequest δ)
    (updatedBy liveRole : String)
    (now : Int)
  | delete (ownerUserId identifier : String)

/-- The reading of the clock. -/
def Act.reading : Act δ → Option Int
  | .claim _ _ now => some now
  | .finish _ _ _ now => some now
  | .runNow _ => none
  | .finishNow _ _ now => some now
  | .update _ _ _ _ _ now => some now
  | .delete _ _ => none

variable (zones : String → Option Zone)

/-- What an action does to the store. -/
def Act.store (s : System δ) : Act δ → Store δ
  | .claim id c now => (claimDueRecord s.store id c now).2
  | .finish id c result now =>
    -- a launch that was deferred has not started a run, and stays due
    if (id, c) ∈ s.launches then
      (recordFireResult zones s.store id result now (some c)
        (decide (result.statusText ≠ "deferred"))).2
    else s.store
  | .runNow _ => s.store
  | .finishNow id result now =>
    if id ∈ s.runNows then (recordFireResult zones s.store id result now none false).2 else s.store
  | .update owner identifier payload updatedBy liveRole now =>
    match Schedules.update zones s.store owner identifier payload updatedBy liveRole now with
    | .ok (_, store) => store
    | .error _ => s.store
  | .delete owner identifier =>
    match Schedules.delete s.store owner identifier with
    | .ok (_, store) => store
    | .error _ => s.store

def System.step (s : System δ) (a : Act δ) : System δ where
  store := a.store zones s
  launches :=
    match a with
    | .claim id c now => if (claimDueRecord s.store id c now).1.isSome then (id, c) :: s.launches
      else s.launches
    | .finish id c _ _ => s.launches.erase (id, c)
    | _ => s.launches
  runNows :=
    match a with
    | .runNow id => id :: s.runNows
    | .finishNow id _ _ => s.runNows.erase id
    | _ => s.runNows
  claimIds :=
    match a with
    | .claim _ c _ => c :: s.claimIds
    | _ => s.claimIds
  clock := a.reading.getD s.clock

/-- The clock is not read to go back, and claim identifiers are fresh. -/
def Orderly (s : System δ) (a : Act δ) : Prop :=
  (∀ now ∈ a.reading, s.clock ≤ now) ∧
    match a with
    | .claim _ c _ => c ≠ "" ∧ c ∉ s.claimIds
    | _ => True

instance (s : System δ) (a : Act δ) : Decidable (Orderly s a) :=
  match a with
  | .claim .. | .finish .. | .runNow .. | .finishNow .. | .update .. | .delete .. =>
    inferInstanceAs (Decidable (_ ∧ _))

/-! ## What the calls do to a record -/

variable {result : FireResult} {advance : Bool} {now : Int}

section Calls

variable {zones} {store : Store δ} {id : String} {r : Record δ}

theorem claimDueRecord_eq_some {c : String} {t : Int}
    (h : (claimDueRecord store id c t).1 = some r) :
    ∃ r₀, store.find? id = some r₀ ∧ r₀.isDue t = true ∧ r₀.isClaimed t = false ∧
      r = r₀.claim c t ∧ (claimDueRecord store id c t).2 = store.put r := by
  rw [claimDueRecord] at h ⊢
  split at h
  · cases h
  next r₀ hfind =>
    split at h
    next hdue =>
      cases h
      rw [if_pos hdue]
      exact ⟨r₀, hfind, hdue.1, hdue.2, rfl, rfl⟩
    · cases h

/-- A claim leaves the schedule as it was, or with the claim. -/
theorem find?_claimDueRecord (store : Store δ) (id c : String) (t : Int) :
    (claimDueRecord store id c t).2.find? id = store.find? id ∨
      ∃ r₀, store.find? id = some r₀ ∧
        (claimDueRecord store id c t).2.find? id = some (r₀.claim c t) := by
  cases h : (claimDueRecord store id c t).1 with
  | none =>
    rw [claimDueRecord] at h ⊢
    split at h
    · exact .inl rfl
    next r₀ hfind =>
      split at h
      · cases h
      next hnot =>
        rw [if_neg hnot]
        exact .inl rfl
  | some r =>
    obtain ⟨r₀, hfind, -, -, rfl, hstore⟩ := claimDueRecord_eq_some h
    obtain rfl : r₀.scheduleId = id := (Table.find?_eq_some_iff.1 hfind).2
    refine .inr ⟨r₀, hfind, ?_⟩
    rw [hstore]
    exact Table.find?_put_self (r := r₀.claim c t) hfind

/-- A call for one schedule leaves the others alone. -/
theorem find?_claimDueRecord_of_ne {i c : String} {t : Int} (h : i ≠ id) :
    (claimDueRecord store i c t).2.find? id = store.find? id := by
  rw [claimDueRecord]
  split
  · rfl
  next r₀ hfind =>
    split
    · have hid : r₀.scheduleId = i := (Table.find?_eq_some_iff.1 hfind).2
      exact Table.find?_put_of_ne fun he ↦ h (hid ▸ he).symm
    · rfl

theorem scheduleId_fired (zones : String → Option Zone) (r : Record δ) (result : FireResult)
    (t : Int)
    (advance : Bool) : (r.fired zones result t advance).scheduleId = r.scheduleId := by
  rw [Record.fired]
  split
  · rw [Record.advance]
    split <;> rfl
  · rfl

theorem find?_recordFireResult_of_ne {i : String} {t : Int} {c : Option String} (h : i ≠ id) :
    (recordFireResult zones store i result t c advance).2.find? id = store.find? id := by
  rw [recordFireResult]
  split
  · rfl
  next r₀ hfind =>
    split
    · rfl
    · have hid : r₀.scheduleId = i := (Table.find?_eq_some_iff.1 hfind).2
      refine Table.find?_put_of_ne fun he ↦ h ?_
      rw [he, scheduleId_fired, hid]

/-- A result leaves the schedule as it was, or with the result. -/
theorem find?_recordFireResult (zones : String → Option Zone) (store : Store δ) (id : String)
    (result : FireResult) (t : Int) (c : Option String) (advance : Bool) :
    (recordFireResult zones store id result t c advance).2.find? id = store.find? id ∨
      ∃ r₀, store.find? id = some r₀ ∧
        (recordFireResult zones store id result t c advance).2.find? id =
          some (r₀.fired zones result t advance) := by
  rw [recordFireResult]
  split
  · exact .inl rfl
  next r₀ hfind =>
    split
    · exact .inl rfl
    · obtain rfl : r₀.scheduleId = id := (Table.find?_eq_some_iff.1 hfind).2
      refine .inr ⟨r₀, hfind, ?_⟩
      rw [← scheduleId_fired zones r₀ result t advance] at hfind ⊢
      exact Table.find?_put_self hfind

/-- A result under another claim is refused. -/
theorem recordFireResult_of_other {r₀ : Record δ} (hfind : store.find? id = some r₀) {t : Int}
    {c c' : String} (hclaim : r₀.runningClaimId = some c) (hne : c' ≠ c) :
    (recordFireResult zones store id result t (some c') advance).2 = store := by
  have hother : ∃ x ∈ some c', r₀.runningClaimId.getD "" ≠ x :=
    ⟨c', rfl, by rw [hclaim]; exact hne.symm⟩
  simp only [recordFireResult, hfind, if_pos hother]

/-- A result under the claim is recorded. -/
theorem recordFireResult_of_claim {r₀ : Record δ} (hfind : store.find? id = some r₀) {t : Int}
    {c : String} (hclaim : r₀.runningClaimId = some c) :
    recordFireResult zones store id result t (some c) advance =
      (some (r₀.fired zones result t advance), store.put (r₀.fired zones result t advance)) := by
  have hsame : ¬∃ x ∈ some c, r₀.runningClaimId.getD "" ≠ x := by
    rintro ⟨x, hx, hne⟩
    cases hx
    rw [hclaim] at hne
    exact hne rfl
  simp only [recordFireResult, hfind, if_neg hsame]

/-- An update leaves the schedule as it was, or is one of it. -/
theorem find?_update {owner identifier updatedBy liveRole : String} {payload : UpdateRequest δ}
    {r' : Record δ} {store' : Store δ} (id : String)
    (h : update zones store owner identifier payload updatedBy liveRole now = .ok (r', store')) :
    store'.find? id = store.find? id ∨
      ∃ r₀ next, store.find? id = some r₀ ∧ target store owner identifier = some r₀ ∧
        computeNextRunAt zones (payload.cadence.getD r₀.cadence)
          (payload.timezone.getD r₀.timezone) now = some next ∧
        store'.find? id =
          some { r₀.change payload updatedBy liveRole now with nextRunAt := some next } := by
  simp only [update, bind_eq_ok_iff, requireSome_eq_ok_iff] at h
  obtain ⟨-, -, record, htarget, -, -, next, hnext, h⟩ := h
  cases h
  by_cases hrec : record.scheduleId = id
  · subst hrec
    have hfind : store.find? record.scheduleId = some record :=
      Table.find?_eq_some_iff.2 ⟨mem_of_find?_eq_some htarget, rfl⟩
    exact .inr ⟨record, next, hfind, htarget, hnext, Table.find?_put_self
      (r := { record.change payload updatedBy liveRole now with nextRunAt := some next }) hfind⟩
  · exact .inl (Table.find?_put_of_ne fun he ↦ hrec he.symm)

theorem find?_delete {owner identifier : String} {r' : Record δ} {store' : Store δ}
    (h : delete store owner identifier = .ok (r', store'))
    (hother : ∀ x ∈ target store owner identifier, x.scheduleId ≠ id) :
    store'.find? id = store.find? id := by
  simp only [delete, bind_eq_ok_iff, requireSome_eq_ok_iff] at h
  obtain ⟨record, htarget, h⟩ := h
  cases h
  have hne := hother r' htarget
  refine Option.ext fun x ↦ ?_
  rw [Table.find?_eq_some_iff, Table.find?_eq_some_iff, Table.mem_delete]
  constructor
  · rintro ⟨⟨hx, -⟩, hid⟩
    exact ⟨hx, hid⟩
  · rintro ⟨hx, rfl⟩
    exact ⟨⟨hx, decide_eq_false fun he ↦ hne he.symm⟩, rfl⟩

end Calls

/-! ## A claim that is held -/

/-- No later reading of the local clock stands for an earlier instant. -/
def Ahead (timezone : String) (t : Int) : Prop :=
  ∀ zone ∈ zones timezone, ∀ reading, zone.toLocal t < reading → t < zone.toUtc reading

/-- The next run comes after the instant it is computed at. -/
theorem lt_computeNextRunAt {cadence : Cadence} {timezone : String} {t next : Int}
    (hahead : Ahead zones timezone t) (h : computeNextRunAt zones cadence timezone t = some next) :
    t < next := by
  simp only [computeNextRunAt, Option.bind_eq_bind, Option.bind_eq_some_iff, Option.some.injEq] at h
  obtain ⟨zone, hzone, candidate, hfind, rfl⟩ := h
  have hlt : zone.toLocal t < candidate := by simpa using find?_some hfind
  exact hahead zone hzone candidate hlt

/-- Nothing gets in the way of the claim `c` on the schedule: no run-now launch of it records a
result, it is not deleted, the launch is not deferred, and its next run is not computed in an hour
that the clock of its zone repeats. -/
def Undisturbed (id c : String) (s : System δ) : Act δ → Prop
  | .finishNow i _ _ => i ≠ id
  | .delete owner identifier => ∀ r ∈ target s.store owner identifier, r.scheduleId ≠ id
  | .finish i c' result now =>
    i = id → (c' = c → result.statusText ≠ "deferred") ∧
      ∀ r ∈ s.store.find? id, Ahead zones r.timezone (now + second)
  | .update owner identifier payload _ _ now =>
    ∀ r ∈ target s.store owner identifier, r.scheduleId = id →
      Ahead zones (payload.timezone.getD r.timezone) now
  | _ => True

/-- The launch records its result. -/
def Act.isResult (id c : String) : Act δ → Bool
  | .finish i c' _ _ => decide (i = id ∧ c' = c)
  | _ => false

/-- The schedule is claimed by `c`, since `t`. -/
structure Held (id c : String) (t : Int) (s : System δ) : Prop where
  record : ∃ r, s.store.find? id = some r ∧ r.runningClaimId = some c ∧ r.runningClaimedAt = some t
  launch : (id, c) ∈ s.launches
  drawn : c ∈ s.claimIds

variable {a : Act δ} {acts : List (Act δ)}

section Held

variable {zones} {s : System δ} {id c : String} {t : Int}

theorem isClaimed_of_held {r : Record δ} (hc : c ≠ "") (hclaim : r.runningClaimId = some c)
    (hat : r.runningClaimedAt = some t) (hnow : now < t + claimStaleAfter) :
    r.isClaimed now = true := by
  simp only [Record.isClaimed, hclaim, hat, Option.any_some, Bool.and_eq_true, decide_eq_true_eq]
  exact ⟨hc, by omega⟩

/-- While the claim is young, no other is taken. -/
theorem Held.claimDueRecord_eq_none (h : Held id c t s) (hc : c ≠ "") (c' : String)
    (hnow : now < t + claimStaleAfter) :
    claimDueRecord s.store id c' now = (none, s.store) := by
  obtain ⟨r, hfind, hclaim, hat⟩ := h.record
  have hclaimed := isClaimed_of_held hc hclaim hat hnow
  have hnot : ¬(r.isDue now = true ∧ r.isClaimed now = false) := by
    rw [hclaimed]
    exact fun h ↦ Bool.noConfusion h.2
  simp only [claimDueRecord, hfind, if_neg hnot]

/-- **What holds the claim, or gives it up.** -/
theorem Held.step (h : Held id c t s) (hc : c ≠ "") (horder : Orderly s a)
    (hcalm : Undisturbed zones id c s a) (hresult : a.isResult id c = false)
    (hyoung : ∀ now ∈ a.reading, now < t + claimStaleAfter) : Held id c t (s.step zones a) := by
  obtain ⟨r, hfind, hclaim, hat⟩ := h.record
  have hkeep (hstore : (a.store zones s).find? id = some r) :
      ∃ r, (a.store zones s).find? id = some r ∧ r.runningClaimId = some c ∧
        r.runningClaimedAt = some t := ⟨r, hstore, hclaim, hat⟩
  cases a with
  | claim i c' now =>
    have hnow := hyoung now rfl
    refine ⟨?_, ?_, mem_cons_of_mem _ h.drawn⟩
    · refine hkeep ?_
      by_cases hi : i = id
      · subst hi
        simp only [Act.store, h.claimDueRecord_eq_none hc c' hnow, hfind]
      · simp only [Act.store, find?_claimDueRecord_of_ne hi, hfind]
    · simp only [System.step]
      split
      · exact mem_cons_of_mem _ h.launch
      · exact h.launch
  | finish i c' =>
    have hne : (id, c) ≠ (i, c') := by
      rintro ⟨⟩
      simp [Act.isResult] at hresult
    refine ⟨hkeep ?_, (mem_erase_of_ne hne).2 h.launch, h.drawn⟩
    simp only [Act.store]
    split
    · by_cases hi : i = id
      · subst hi
        have hc' : c' ≠ c := fun he ↦ hne (by rw [he])
        rw [recordFireResult_of_other hfind hclaim hc', hfind]
      · rw [find?_recordFireResult_of_ne hi, hfind]
    · exact hfind
  | runNow => exact ⟨hkeep hfind, h.launch, h.drawn⟩
  | finishNow =>
    refine ⟨hkeep ?_, h.launch, h.drawn⟩
    simp only [Act.store]
    split
    · rw [find?_recordFireResult_of_ne hcalm, hfind]
    · exact hfind
  | update =>
    refine ⟨?_, h.launch, h.drawn⟩
    simp only [System.step, Act.store]
    split
    next r' store' hok =>
      rcases find?_update id hok with hsame | ⟨r₀, next, hfind₀, -, -, hnew⟩
      · exact ⟨r, hsame.trans hfind, hclaim, hat⟩
      · rw [hfind] at hfind₀
        cases hfind₀
        exact ⟨_, hnew, hclaim, hat⟩
    · exact ⟨r, hfind, hclaim, hat⟩
  | delete =>
    refine ⟨hkeep ?_, h.launch, h.drawn⟩
    simp only [Act.store]
    split
    next r' store' hok => rw [find?_delete hok hcalm, hfind]
    · exact hfind

theorem Held.runs (h : Held id c t s) (hc : c ≠ "")
    (horder : Meets (System.step zones) Orderly s acts)
    (hcalm : Meets (System.step zones) (Undisturbed zones id c) s acts)
    (hresult : ∀ a ∈ acts, a.isResult id c = false)
    (hyoung : ∀ a ∈ acts, ∀ now ∈ a.reading, now < t + claimStaleAfter) :
    Held id c t (runs (System.step zones) s acts) := by
  induction acts generalizing s with
  | nil => exact h
  | cons a acts ih =>
    have hstep := h.step hc horder.1 hcalm.1 (hresult a mem_cons_self)
      (hyoung a mem_cons_self)
    exact ih hstep horder.2 hcalm.2 (fun x hx ↦ hresult x (mem_cons_of_mem _ hx))
      fun x hx ↦ hyoung x (mem_cons_of_mem _ hx)

/-- A poll that gets the claim holds it. -/
theorem held_of_claim {r : Record δ} (h : (claimDueRecord s.store id c t).1 = some r) :
    Held id c t (s.step zones (.claim id c t)) := by
  obtain ⟨r₀, hfind, -, -, rfl, hstore⟩ := claimDueRecord_eq_some h
  have hid : r₀.scheduleId = id := (Table.find?_eq_some_iff.1 hfind).2
  subst hid
  refine ⟨⟨r₀.claim c t, ?_, rfl, rfl⟩, ?_, mem_cons_self⟩
  · simp only [System.step, Act.store, hstore]
    exact Table.find?_put_self (r := r₀.claim c t) hfind
  · simp [System.step, h]

end Held

/-! ## An instant that is past -/

/-- The schedule is not due at `due` any more, nor will it be. -/
structure Passed (id : String) (due : Int) (s : System δ) : Prop where
  record : ∀ r, s.store.find? id = some r → r.enabled = true → ∀ next ∈ r.nextRunAt, due < next
  clock : due ≤ s.clock

section Passed

variable {zones} {s : System δ} {id c : String} {due : Int}

/-- What recording a result does to the next run. -/
theorem nextRunAt_fired (zones : String → Option Zone) (r : Record δ) (result : FireResult)
    (t : Int)
    (advance : Bool) : (advance = false ∧ (r.fired zones result t advance).nextRunAt = r.nextRunAt ∧
        (r.fired zones result t advance).enabled = r.enabled) ∨
      (∃ next, computeNextRunAt zones r.cadence r.timezone (t + second) = some next ∧
        (r.fired zones result t advance).nextRunAt = some next) ∨
      (r.fired zones result t advance).enabled = false := by
  rw [Record.fired]
  cases advance with
  | false => exact .inl ⟨rfl, rfl, rfl⟩
  | true =>
    simp only [if_true, Record.advance]
    split
    next next hnext => exact .inr (.inl ⟨next, hnext, rfl⟩)
    · exact .inr (.inr rfl)

theorem lt_of_fired {r : Record δ} {t : Int} (hahead : Ahead zones r.timezone (t + second))
    (hdue : due ≤ t) (hold : advance = false → r.enabled = true → ∀ next ∈ r.nextRunAt, due < next)
    (henabled : (r.fired zones result t advance).enabled = true) :
    ∀ next ∈ (r.fired zones result t advance).nextRunAt, due < next := by
  intro next hnext
  rcases nextRunAt_fired zones r result t advance with
    ⟨hadv, hsame, hen⟩ | ⟨n, hn, hset⟩ | hdisabled
  · exact hold hadv (hen ▸ henabled) next (hsame ▸ hnext)
  · rw [hset] at hnext
    cases hnext
    have := lt_computeNextRunAt zones hahead hn
    unfold second at this
    omega
  · rw [hdisabled] at henabled
    cases henabled

/-- **An instant that is past stays so.** -/
theorem Passed.step (h : Passed id due s) (horder : Orderly s a)
    (hcalm : Undisturbed zones id c s a) : Passed id due (s.step zones a) := by
  have hclock : due ≤ (s.step zones a).clock := by
    simp only [System.step]
    cases hread : a.reading with
    | none => exact h.clock
    | some now => exact h.clock.trans (horder.1 now hread)
  refine ⟨fun r' hfind' henabled ↦ ?_, hclock⟩
  -- a step that leaves the record as it was
  have hsame (hstore : (a.store zones s).find? id = s.store.find? id) :
      ∀ next ∈ r'.nextRunAt, due < next := by
    change (a.store zones s).find? id = some r' at hfind'
    rw [hstore] at hfind'
    exact h.record r' hfind' henabled
  change (a.store zones s).find? id = some r' at hfind'
  cases a with
  | claim i c' now =>
    by_cases hi : i = id
    swap
    · exact hsame (find?_claimDueRecord_of_ne hi)
    subst hi
    rcases find?_claimDueRecord s.store i c' now with
      hkeep | ⟨r₀, hfind, hclaimed⟩
    · exact hsame hkeep
    · simp only [Act.store, hclaimed] at hfind'
      cases hfind'
      exact h.record r₀ hfind henabled
  | finish i c' result now =>
    by_cases hi : i = id
    swap
    · refine hsame ?_
      simp only [Act.store]
      split
      · exact find?_recordFireResult_of_ne hi
      · rfl
    subst hi
    simp only [Act.store] at hfind' hsame
    split at hfind'
    next hlaunch =>
      rw [if_pos hlaunch] at hsame
      rcases find?_recordFireResult zones s.store i result now (some c')
        (decide (result.statusText ≠ "deferred")) with hkeep | ⟨r₀, hfind, hfired⟩
      · exact hsame hkeep
      · rw [hfired] at hfind'
        cases hfind'
        exact lt_of_fired ((hcalm rfl).2 r₀ hfind) hclock (fun _ ↦ h.record r₀ hfind) henabled
    · exact h.record r' hfind' henabled
  | runNow => exact hsame rfl
  | finishNow =>
    refine hsame ?_
    simp only [Act.store]
    split
    · exact find?_recordFireResult_of_ne hcalm
    · rfl
  | update =>
    simp only [Act.store] at hfind' hsame
    split at hfind'
    next r₁ store' hok =>
      rcases find?_update id hok with hkeep | ⟨r₀, next, hfind, htarget, hnext, hnew⟩
      · rw [hkeep] at hfind'
        exact h.record r' hfind' henabled
      · rw [hnew] at hfind'
        cases hfind'
        have hid : r₀.scheduleId = id := (Table.find?_eq_some_iff.1 hfind).2
        have hlt := lt_computeNextRunAt zones (hcalm r₀ htarget hid) hnext
        intro next' hnext'
        cases hnext'
        exact Int.lt_of_le_of_lt hclock hlt
    · exact h.record r' hfind' henabled
  | delete =>
    refine hsame ?_
    simp only [Act.store]
    split
    next r' store' hok => exact find?_delete hok hcalm
    · rfl

theorem Passed.runs (h : Passed id due s) (horder : Meets (System.step zones) Orderly s acts)
    (hcalm : Meets (System.step zones) (Undisturbed zones id c) s acts) :
    Passed id due (runs (System.step zones) s acts) := by
  induction acts generalizing s with
  | nil => exact h
  | cons a acts ih => exact ih (h.step horder.1 hcalm.1) horder.2 hcalm.2

/-- **Recording the result of the claim moves the schedule past the instant that was due.** -/
theorem Held.passed {t : Int} (h : Held id c t s) (horder : Orderly s (.finish id c result now))
    (hcalm : Undisturbed zones id c s (.finish id c result now)) (hdue : due ≤ s.clock) :
    Passed id due (s.step zones (.finish id c result now)) := by
  obtain ⟨r, hfind, hclaim, -⟩ := h.record
  have hnow : due ≤ now := hdue.trans (horder.1 now rfl)
  refine ⟨fun r' hfind' henabled ↦ ?_, hnow⟩
  have hadv : decide (result.statusText ≠ "deferred") = true :=
    decide_eq_true ((hcalm rfl).1 rfl)
  simp only [System.step, Act.store, if_pos h.launch, hadv, recordFireResult_of_claim hfind hclaim]
    at hfind'
  have hid : r.scheduleId = id := (Table.find?_eq_some_iff.1 hfind).2
  have hput : (s.store.put (r.fired zones result now true)).find? id =
      some (r.fired zones result now true) := by
    have hkey := scheduleId_fired zones r result now true
    rw [← hid, ← hkey] at hfind ⊢
    exact Table.find?_put_self hfind
  rw [hput] at hfind'
  cases hfind'
  exact lt_of_fired ((hcalm rfl).2 r hfind) hnow nofun henabled

end Passed

/-! ## One fire for each instant -/

/-- Until the result of the claim is recorded, the clock is below the deadline. -/
def Fresh (id c : String) (deadline : Int) : List (Act δ) → Prop
  | [] => True
  | a :: rest =>
    (∀ now ∈ a.reading, now < deadline) ∧ (a.isResult id c = true ∨ Fresh id c deadline rest)

/-- The actions before the result, and those that follow it, if there is one. -/
theorem Fresh.split {id c : String} {deadline : Int} {last : Act δ}
    (h : Fresh id c deadline (acts ++ [last])) :
    ∃ l₁ l₂, acts = l₁ ++ l₂ ∧ (∀ a ∈ l₁, a.isResult id c = false) ∧
      (∀ a ∈ l₁, ∀ now ∈ a.reading, now < deadline) ∧
      (l₂ = [] ∧ (∀ now ∈ last.reading, now < deadline) ∨
        ∃ a rest, l₂ = a :: rest ∧ a.isResult id c = true) := by
  induction acts with
  | nil => exact ⟨[], [], rfl, by simp, by simp, .inl ⟨rfl, h.1⟩⟩
  | cons a acts ih =>
    cases hresult : a.isResult id c with
    | true => exact ⟨[], a :: acts, rfl, by simp, by simp, .inr ⟨a, acts, rfl, hresult⟩⟩
    | false =>
      rcases h.2 with hres | hrest
      · rw [hresult] at hres
        cases hres
      · obtain ⟨l₁, l₂, rfl, hnone, hyoung, hcases⟩ := ih hrest
        refine ⟨a :: l₁, l₂, rfl, ?_, ?_, hcases⟩
        · exact forall_mem_cons.2 ⟨hresult, hnone⟩
        · exact forall_mem_cons.2 ⟨h.1, hyoung⟩

theorem eq_finish_of_isResult {id c : String} (h : a.isResult id c = true) :
    ∃ result now, a = .finish id c result now := by
  cases a with
  | finish i c' result now =>
    obtain ⟨rfl, rfl⟩ := of_decide_eq_true h
    exact ⟨result, now, rfl⟩
  | claim | runNow | finishNow | update | delete => cases h

section Once

variable {zones} {s : System δ} {id c : String} {t : Int} {r : Record δ}

theorem clock_le_runs {s : System δ} (horder : Meets (System.step zones) Orderly s acts) :
    s.clock ≤ (runs (System.step zones) s acts).clock := by
  refine rel_runs_of_meets (R := fun s s' : System δ ↦ s.clock ≤ s'.clock) (fun _ ↦ Int.le_refl _)
    (fun _ _ _ ↦ Int.le_trans) (fun s a ha ↦ ?_) horder
  simp only [System.step]
  cases hread : a.reading with
  | none => exact Int.le_refl _
  | some now => exact ha.1 now hread

/-- The claimant's result is recorded, and moves the next run on. -/
theorem Held.recorded (h : Held id c t s) (result : FireResult) (now : Int) (advance : Bool) :
    ∃ r', (recordFireResult zones s.store id result now (some c) advance).1 = some r' ∧
      (advance = true → Ahead zones r'.timezone (now + second) →
        (∃ next, r'.nextRunAt = some next ∧ now < next) ∨ r'.enabled = false) := by
  obtain ⟨r, hfind, hclaim, -⟩ := h.record
  refine ⟨_, congrArg Prod.fst (recordFireResult_of_claim hfind hclaim), fun hadv hahead ↦ ?_⟩
  subst hadv
  rcases nextRunAt_fired zones r result now true with ⟨hfalse, -⟩ | ⟨next, hnext, hset⟩ | hdisabled
  · cases hfalse
  · refine .inl ⟨next, hset, ?_⟩
    have hzone : (r.fired zones result now true).timezone = r.timezone := by
      simp only [Record.fired, if_true, Record.advance]
      split <;> rfl
    rw [hzone] at hahead
    have := lt_computeNextRunAt zones hahead hnext
    unfold second at this
    omega
  · exact .inr hdisabled

/-- **One scheduled fire for each instant.**  A poll has claimed a schedule at `t`, and other things
have happened since, none of which disturbs the claim.  As long as the claim is young and its result
is not recorded, no poll gets another claim of the schedule, and the result, when it comes, is
recorded and moves the next run on.  And if another poll does get a claim later, though the first
never went stale, then it is for a later instant. -/
theorem scheduled_fire_once {acts : List (Act δ)} (hs : Orderly s (.claim id c t))
    (hclaim : (claimDueRecord s.store id c t).1 = some r)
    (horder : Meets (System.step zones) Orderly (s.step zones (.claim id c t)) acts)
    (hcalm : Meets (System.step zones) (Undisturbed zones id c) (s.step zones (.claim id c t))
      acts) :
    let s' := runs (System.step zones) (s.step zones (.claim id c t)) acts
    ((∀ a ∈ acts, a.isResult id c = false) →
      (∀ a ∈ acts, ∀ now ∈ a.reading, now < t + claimStaleAfter) →
      (∀ c' now, now < t + claimStaleAfter → (claimDueRecord s'.store id c' now).1 = none) ∧
      ∀ result now advance,
        ∃ r', (recordFireResult zones s'.store id result now (some c) advance).1 = some r' ∧
          (advance = true → Ahead zones r'.timezone (now + second) →
            (∃ next, r'.nextRunAt = some next ∧ now < next) ∨ r'.enabled = false)) ∧
    ∀ c' t' r', Fresh id c (t + claimStaleAfter) (acts ++ [.claim id c' t']) →
      (claimDueRecord s'.store id c' t').1 = some r' →
      ∀ due ∈ r.nextRunAt, ∀ due' ∈ r'.nextRunAt, due < due' := by
  intro s'
  have hheld : Held id c t (s.step zones (.claim id c t)) := held_of_claim hclaim
  have hc : c ≠ "" := hs.2.1
  refine ⟨fun hnone hyoung ↦ ?_, fun c' t' r' hfresh hclaim' due hdue due' hdue' ↦ ?_⟩
  · have hheld' := hheld.runs hc horder hcalm hnone hyoung
    exact ⟨fun c' now hnow ↦ congrArg Prod.fst (hheld'.claimDueRecord_eq_none hc c' hnow),
      fun result now advance ↦ hheld'.recorded result now advance⟩
  · obtain ⟨l₁, l₂, rfl, hnone, hyoung, hcases⟩ := hfresh.split
    obtain ⟨horder₁, horder₂⟩ := meets_append_iff.1 horder
    obtain ⟨hcalm₁, hcalm₂⟩ := meets_append_iff.1 hcalm
    have hheld₁ := hheld.runs hc horder₁ hcalm₁ hnone hyoung
    rcases hcases with ⟨rfl, hlast⟩ | ⟨a, rest, rfl, hresult⟩
    · -- the claim is still held, so there is no other
      have hrefused := hheld₁.claimDueRecord_eq_none hc c' (hlast t' rfl)
      simp only [s', append_nil, hrefused] at hclaim'
      cases hclaim'
    · -- the instant that was due is past, since the result was recorded
      obtain ⟨result, now, rfl⟩ := eq_finish_of_isResult hresult
      obtain ⟨r₀, -, hdue₀, -, rfl, -⟩ := claimDueRecord_eq_some hclaim
      have hduet : due ≤ t := by
        simp only [Record.isDue, Bool.and_eq_true] at hdue₀
        rw [show r₀.nextRunAt = some due from hdue] at hdue₀
        exact of_decide_eq_true hdue₀.2
      have hpassed := hheld₁.passed horder₂.1 hcalm₂.1 (hduet.trans (clock_le_runs horder₁))
      have hend := hpassed.runs horder₂.2 hcalm₂.2
      have hs' : s' = runs (System.step zones)
          ((runs (System.step zones) (s.step zones (.claim id c t)) l₁).step zones
            (.finish id c result now)) rest := runs_append _ _ _
      obtain ⟨r₁, hfind, hdue₁, -, rfl, -⟩ := claimDueRecord_eq_some hclaim'
      rw [hs'] at hfind
      simp only [Record.isDue, Bool.and_eq_true] at hdue₁
      exact hend.record r₁ hfind hdue₁.1 due' hdue'

end Once

/-! ## Samples -/

/-- The zone of Greenwich, without summer time. -/
def utcOnly (timezone : String) : Option Zone :=
  if timezone = "UTC" then some ⟨fun _ ↦ 0, fun _ ↦ 0⟩ else none

theorem ahead_utcOnly (timezone : String) (t : Int) : Ahead utcOnly timezone t := by
  intro zone hzone reading hlt
  simp only [utcOnly, Option.mem_def] at hzone
  split at hzone
  · cases hzone
    simpa [Zone.toLocal, Zone.toUtc] using hlt
  · cases hzone

/-- A schedule that is due at `due`, every day at the given time. -/
def sampleRecord (timezone : String) (timeOfDay : TimeOfDay) (due : Int) : Record Unit where
  scheduleId := "sched"
  name := "report"
  ownerUserId := "user"
  enabled := true
  timezone := timezone
  cadence := .daily timeOfDay
  dispatch := ()
  dispatchRevision := 1
  dispatchRole := "owner"
  dispatchAuthoredBy := "user"
  nextRunAt := some due
  runningClaimId := none
  runningClaimedAt := none
  lastRunId := none
  lastRunAt := none
  lastStatus := none
  lastError := none
  lastFireWarning := none
  updatedBy := "user"
  updatedAt := 0

def sampleSystem (record : Record Unit) : System Unit :=
  ⟨⟨[record], nodup_singleton _⟩, [], [], [], record.nextRunAt.getD 0⟩

def started : FireResult := ⟨some "run", "started", none, none⟩

/-- A launch records its result, and the next claim is for the next day. -/
theorem scheduled_fire_once_sample :
    ∃ r', (claimDueRecord (runs (System.step utcOnly) (sampleSystem (sampleRecord "UTC" ⟨0, 0⟩ 0))
        [.claim "sched" "first" 0, .finish "sched" "first" started second]).store
        "sched" "second" day).1 = some r' ∧ r'.nextRunAt = some day ∧ 0 < day := by
  have hclaim :
    (claimDueRecord (sampleSystem (sampleRecord "UTC" ⟨0, 0⟩ 0)).store "sched" "first" 0).1 =
      some ((sampleRecord "UTC" ⟨0, 0⟩ 0).claim "first" 0) := rfl
  have hnext :
    (claimDueRecord (runs (System.step utcOnly) (sampleSystem (sampleRecord "UTC" ⟨0, 0⟩ 0))
      [.claim "sched" "first" 0, .finish "sched" "first" started second]).store
      "sched" "second" day).1.any (fun r ↦ decide (r.nextRunAt = some day)) = true := by
    decide +kernel
  obtain ⟨r', hr', hday⟩ := (Option.any_eq_true _ _).1 hnext
  have hday := of_decide_eq_true hday
  have hcalm : Meets (System.step utcOnly) (Undisturbed utcOnly "sched" "first")
      ((sampleSystem (sampleRecord "UTC" ⟨0, 0⟩ 0)).step utcOnly (.claim "sched" "first" 0))
      [.finish "sched" "first" started second] :=
    ⟨fun _ ↦ ⟨fun _ ↦ by decide, fun r _ ↦ ahead_utcOnly _ _⟩, trivial⟩
  obtain ⟨-, honce⟩ := scheduled_fire_once (by decide) hclaim (by decide) hcalm
  exact ⟨r', hr', hday, honce "second" day r' ⟨by decide, .inl rfl⟩ hr' 0 rfl day hday⟩

/-- **A run-now launch gives up the claim of another launch.**  The schedule is claimed and due at
`0`.  While its launch is under way a user runs it now, and the result of that takes the claim away:
a second poll could claim the schedule at once, and the result of the claimant is refused.  A minute
later the instant is claimed and launched again. -/
theorem run_now_releases_claim :
    let s := sampleSystem (sampleRecord "UTC" ⟨0, 0⟩ 0)
    let acts : List (Act Unit) :=
      [.claim "sched" "first" 0, .runNow "sched", .finishNow "sched" started second]
    let s₁ := runs (System.step utcOnly) s acts
    let s₂ := s₁.step utcOnly (.finish "sched" "first" started (2 * second))
    (claimDueRecord s.store "sched" "first" 0).1.any (fun r ↦ decide (r.nextRunAt = some 0)) =
      true ∧
    Meets (System.step utcOnly) Orderly s (acts ++ [.finish "sched" "first" started (2 * second),
      .claim "sched" "second" (60 * second)]) ∧
    60 * second < claimStaleAfter ∧
    (claimDueRecord s₁.store "sched" "second" (2 * second)).1.isSome = true ∧
    (recordFireResult utcOnly s₁.store "sched" started (2 * second) (some "first") true).1.isNone =
      true ∧
    (claimDueRecord s₂.store "sched" "second" (60 * second)).1.any
      (fun r ↦ decide (r.nextRunAt = some 0)) = true := by
  decide +kernel

end AgentGateway.Schedules
