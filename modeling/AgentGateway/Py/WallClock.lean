import Mathlib

/-!
# Clocks that are set

The clock of a place shows the universal time and an offset, and now and then the offset changes.  A
change forward skips the readings in between, a change back repeats them.  So the clock does not say
which instant it is, and a reading is taken for an instant by a convention (the one of PEP 495, with
`fold=0`): a reading that is repeated stands for its first showing, and one that is skipped is taken
to be on the offset before the change, so that the clock, at the instant it stands for, shows a
later reading (`shown`).

`offsetAt` and `offsetOf` are the two lookups, of an instant and of a reading, in a list of changes.
They are related as long as the changes are farther apart than the clock is set by them
(`Separated`):

* before the instant that a reading stands for the clock shows less (`toLocal_lt_shown`),
* from then on it shows that much or more, unless it was set back over the reading
  (`shown_le_toLocal`), and
* a reading that the clock was set back over stands for an instant before that
  (`toUtc_lt_of_setBack`).
-/

namespace Py.WallClock

/-- From an instant on the offset is another. -/
structure Change where
  instant : Int
  offset : Int
deriving DecidableEq

/-- The offset at an instant, if it is `o` to begin with. -/
def offsetAt (o : Int) : List Change → Int → Int
  | [], _ => o
  | c :: cs, t => if t < c.instant then o else offsetAt c.offset cs t

/-- The offset that a reading is taken to be on, with `fold=0`. -/
def offsetOf (o : Int) : List Change → Int → Int
  | [], _ => o
  | c :: cs, x => if x < c.instant + max o c.offset then o else offsetOf c.offset cs x

/-- What the clock shows at an instant. -/
def toLocal (o : Int) (cs : List Change) (t : Int) : Int := t + offsetAt o cs t

/-- The instant that a reading is taken for. -/
def toUtc (o : Int) (cs : List Change) (x : Int) : Int := x - offsetOf o cs x

/-- What the clock shows at the instant that a reading is taken for. -/
def shown (o : Int) : List Change → Int → Int
  | [], x => x
  | c :: cs, x =>
    if x < c.instant + o then x
    else if x < c.instant + c.offset then x + (c.offset - o)
    else shown c.offset cs x

/-- At some instant up to `t` the clock was set back from past the reading `x`. -/
def SetBackOver (o : Int) : List Change → Int → Int → Prop
  | [], _, _ => False
  | c :: cs, t, x =>
    (c.offset < o ∧ c.instant ≤ t ∧ x < c.instant + o) ∨ SetBackOver c.offset cs t x

/-- The clock is set forward over the reading `x`, by `n`. -/
def SkippedBy (o : Int) : List Change → Int → Int → Prop
  | [], _, _ => False
  | c :: cs, x, n =>
    (c.instant + o ≤ x ∧ x < c.instant + c.offset ∧ n = c.offset - o) ∨ SkippedBy c.offset cs x n

instance SetBackOver.decidable (o : Int) : ∀ (cs : List Change) (t x : Int),
    Decidable (SetBackOver o cs t x)
  | [], _, _ => isFalse id
  | c :: cs, t, x =>
    have := SetBackOver.decidable c.offset cs t x
    inferInstanceAs (Decidable (_ ∨ SetBackOver c.offset cs t x))

/-- No change comes sooner after `b` than the clock is set by it. -/
def StartsAfter (b o : Int) : List Change → Prop
  | [] => True
  | c :: _ => b + |c.offset - o| ≤ c.instant

/-- The changes are farther apart than the clock is set by them. -/
def Separated (o : Int) : List Change → Prop
  | [] => True
  | c :: cs => StartsAfter (c.instant + |c.offset - o|) c.offset cs ∧ Separated c.offset cs

instance (b o : Int) : ∀ cs, Decidable (StartsAfter b o cs)
  | [] => isTrue trivial
  | _ :: _ => Int.decLe _ _

instance Separated.decidable : ∀ (o : Int) (cs : List Change), Decidable (Separated o cs)
  | _, [] => isTrue trivial
  | o, c :: cs =>
    have := Separated.decidable c.offset cs
    inferInstanceAs (Decidable (StartsAfter (c.instant + |c.offset - o|) c.offset cs ∧ _))

variable {o b t x : Int} {c : Change} {cs : List Change}

theorem StartsAfter.mono {b' : Int} (h : StartsAfter b o cs) (hb : b' ≤ b) :
    StartsAfter b' o cs := by
  cases cs with
  | nil => trivial
  | cons =>
    rw [StartsAfter] at h ⊢
    omega

/-! ## Around one change -/

theorem toLocal_of_lt (h : t < c.instant) : toLocal o (c :: cs) t = t + o := by
  rw [toLocal, offsetAt, if_pos h]

theorem toLocal_of_le (h : c.instant ≤ t) : toLocal o (c :: cs) t = toLocal c.offset cs t := by
  rw [toLocal, offsetAt, if_neg (Int.not_lt.2 h), toLocal]

theorem toUtc_of_lt (h : x < c.instant + max o c.offset) : toUtc o (c :: cs) x = x - o := by
  rw [toUtc, offsetOf, if_pos h]

theorem toUtc_of_le (h : c.instant + max o c.offset ≤ x) :
    toUtc o (c :: cs) x = toUtc c.offset cs x := by
  rw [toUtc, offsetOf, if_neg (Int.not_lt.2 h), toUtc]

/-- The clock, before any change. -/
theorem toLocal_of_startsAfter (h : StartsAfter b o cs) (ht : t < b) : toLocal o cs t = t + o := by
  cases cs with
  | nil => rfl
  | cons c =>
    rw [StartsAfter] at h
    have := abs_nonneg (c.offset - o)
    exact toLocal_of_lt (by omega)

/-- Once it shows a reading on its first offset, the clock is never set back past it. -/
theorem le_toLocal_of_startsAfter (hsep : Separated o cs) (hstart : StartsAfter b o cs)
    (ht : b ≤ t) :
    b + o ≤ toLocal o cs t := by
  induction cs generalizing o b with
  | nil => exact Int.add_le_add_right ht o
  | cons c cs ih =>
    rw [StartsAfter] at hstart
    have habs := neg_abs_le (c.offset - o)
    by_cases hlt : t < c.instant
    · rw [toLocal_of_lt hlt]
      omega
    · have hle : c.instant ≤ t := Int.not_lt.1 hlt
      rw [toLocal_of_le hle]
      have hnext := ih hsep.2 (hsep.1.mono (Int.le_add_of_nonneg_right (abs_nonneg _))) hle
      omega

/-- A reading that the clock shows after `b` on its first offset stands for an instant after `b`. -/
theorem le_toUtc_of_startsAfter (hsep : Separated o cs) (hstart : StartsAfter b o cs)
    (hx : b + o ≤ x) : b ≤ toUtc o cs x := by
  induction cs generalizing o b with
  | nil =>
    rw [toUtc, offsetOf]
    omega
  | cons c cs ih =>
    rw [StartsAfter] at hstart
    have habs := abs_nonneg (c.offset - o)
    by_cases hlt : x < c.instant + max o c.offset
    · rw [toUtc_of_lt hlt]
      omega
    · have hle := Int.not_lt.1 hlt
      rw [toUtc_of_le hle]
      have hnext := ih hsep.2 (hsep.1.mono (Int.le_add_of_nonneg_right (abs_nonneg _)))
        (b := c.instant) (by omega)
      omega

theorem le_shown (o : Int) (cs : List Change) (x : Int) : x ≤ shown o cs x := by
  induction cs generalizing o with
  | nil => exact le_rfl
  | cons c cs ih =>
    rw [shown]
    split
    · exact le_rfl
    · split
      · omega
      · exact ih c.offset

/-- The three places a reading may be in: before the change, skipped by it, or after it. -/
theorem shown_cases (o : Int) (c : Change) (cs : List Change) (x : Int) :
    (x < c.instant + o ∧ shown o (c :: cs) x = x ∧ toUtc o (c :: cs) x = x - o) ∨
    (c.instant + o ≤ x ∧ x < c.instant + c.offset ∧ shown o (c :: cs) x = x + (c.offset - o) ∧
      toUtc o (c :: cs) x = x - o) ∨
    (c.instant + o ≤ x ∧ c.instant + c.offset ≤ x ∧ shown o (c :: cs) x = shown c.offset cs x ∧
      toUtc o (c :: cs) x = toUtc c.offset cs x) := by
  rw [shown]
  by_cases hbefore : x < c.instant + o
  · exact .inl ⟨hbefore, if_pos hbefore, toUtc_of_lt (by omega)⟩
  · rw [if_neg hbefore]
    by_cases hskipped : x < c.instant + c.offset
    · exact .inr (.inl ⟨Int.not_lt.1 hbefore, hskipped, if_pos hskipped, toUtc_of_lt (by omega)⟩)
    · exact .inr (.inr ⟨Int.not_lt.1 hbefore, Int.not_lt.1 hskipped, if_neg hskipped,
        toUtc_of_le (by omega)⟩)

/-- The clock, from a change up to the next one. -/
theorem Separated.toLocal_of_lt_add (h : Separated o (c :: cs)) (hle : c.instant ≤ t)
    (hlt : t < c.instant + |c.offset - o|) : toLocal o (c :: cs) t = t + c.offset := by
  rw [toLocal_of_le hle]
  exact toLocal_of_startsAfter h.1 hlt

/-- A reading after a change stands for an instant after it. -/
theorem Separated.le_toUtc (h : Separated o (c :: cs)) (hx : c.instant + c.offset ≤ x) :
    c.instant ≤ toUtc c.offset cs x :=
  le_toUtc_of_startsAfter h.2 (h.1.mono (Int.le_add_of_nonneg_right (abs_nonneg _))) hx

/-! ## Readings that are skipped -/

/-- A reading is shown at its instant, unless it is skipped. -/
theorem shown_eq_self (h : ∀ n, ¬ SkippedBy o cs x n) : shown o cs x = x := by
  induction cs generalizing o with
  | nil => rfl
  | cons c cs ih =>
    rcases shown_cases o c cs x with ⟨-, hshown, -⟩ | ⟨hle, hlt, -, -⟩ | ⟨-, -, hshown, -⟩
    · exact hshown
    · exact absurd (.inl ⟨hle, hlt, rfl⟩) (h _)
    · rw [hshown]
      exact ih fun n hn ↦ h n (.inr hn)

/-- What is skipped comes after the change before. -/
theorem SkippedBy.le (hsep : Separated o cs) (hstart : StartsAfter b o cs) {n : Int}
    (h : SkippedBy o cs x n) : b + o ≤ x := by
  induction cs generalizing o b with
  | nil => exact h.elim
  | cons c cs ih =>
    rw [StartsAfter] at hstart
    have habs := abs_nonneg (c.offset - o)
    have hneg := neg_abs_le (c.offset - o)
    rcases h with ⟨hle, -, -⟩ | h
    · omega
    · have := ih hsep.2 hsep.1 h
      omega

/-- What is skipped by a later change comes after both readings of the first one. -/
theorem Separated.le_of_skippedBy (hsep : Separated o (c :: cs)) {n : Int}
    (h : SkippedBy c.offset cs x n) :
    c.instant + o ≤ x ∧ c.instant + c.offset + (c.offset - o) ≤ x := by
  have hle := h.le hsep.2 hsep.1
  have habs := le_abs_self (c.offset - o)
  have hneg := neg_abs_le (c.offset - o)
  omega

/-! ## Readings and instants -/

section

variable (hsep : Separated o cs)

include hsep

theorem toLocal_toUtc (x : Int) :
    toLocal o cs (toUtc o cs x) = shown o cs x := by
  induction cs generalizing o with
  | nil =>
    rw [toLocal, toUtc, offsetAt, offsetOf, shown]
    omega
  | cons c cs ih =>
    rcases shown_cases o c cs x with ⟨hx, hshown, hutc⟩ | ⟨hle, hlt, hshown, hutc⟩ |
      ⟨-, hle, hshown, hutc⟩
    · rw [hshown, hutc, toLocal_of_lt (by omega)]
      omega
    · have habs := le_abs_self (c.offset - o)
      rw [hshown, hutc, hsep.toLocal_of_lt_add (by omega) (by omega)]
      omega
    · rw [hshown, hutc, toLocal_of_le (hsep.le_toUtc hle)]
      exact ih hsep.2

/-- Before the instant that a reading stands for the clock shows less. -/
theorem toLocal_lt_shown (h : t < toUtc o cs x) :
    toLocal o cs t < shown o cs x := by
  induction cs generalizing o with
  | nil =>
    rw [toUtc, offsetOf] at h
    rw [toLocal, offsetAt, shown]
    omega
  | cons c cs ih =>
    have hle_shown := le_shown o (c :: cs) x
    rcases shown_cases o c cs x with ⟨hx, hshown, hutc⟩ | ⟨hle, hlt, hshown, hutc⟩ |
      ⟨hbefore, -, hshown, hutc⟩
    · rw [toLocal_of_lt (by omega)]
      omega
    · by_cases ht : t < c.instant
      · rw [toLocal_of_lt ht]
        omega
      · have habs := le_abs_self (c.offset - o)
        rw [hsep.toLocal_of_lt_add (Int.not_lt.1 ht) (by omega)]
        omega
    · by_cases ht : t < c.instant
      · rw [toLocal_of_lt ht]
        omega
      · rw [toLocal_of_le (Int.not_lt.1 ht), hshown]
        exact ih hsep.2 (hutc ▸ h)

/-- From the instant that a reading stands for the clock shows that much, unless it is set back. -/
theorem shown_le_toLocal (h : toUtc o cs x ≤ t) :
    shown o cs x ≤ toLocal o cs t ∨ shown o cs x = x ∧ SetBackOver o cs t x := by
  induction cs generalizing o with
  | nil =>
    rw [toUtc, offsetOf] at h
    rw [toLocal, offsetAt, shown]
    omega
  | cons c cs ih =>
    have hstart := hsep.1.mono (Int.le_add_of_nonneg_right (abs_nonneg (c.offset - o)))
    rcases shown_cases o c cs x with ⟨hx, hshown, hutc⟩ | ⟨hle, hlt, hshown, hutc⟩ |
      ⟨-, hle, hshown, hutc⟩
    · by_cases ht : t < c.instant
      · rw [toLocal_of_lt ht]
        omega
      · have ht := Int.not_lt.1 ht
        by_cases hback : c.offset < o
        · exact .inr ⟨hshown, .inl ⟨hback, ht, hx⟩⟩
        · have hge := le_toLocal_of_startsAfter hsep.2 hstart ht
          rw [toLocal_of_le ht]
          omega
    · have habs := le_abs_self (c.offset - o)
      have hge := le_toLocal_of_startsAfter hsep.2
        (hsep.1.mono (by omega : x - o ≤ c.instant + |c.offset - o|)) (hutc ▸ h)
      rw [toLocal_of_le (by omega)]
      omega
    · have hutc_le := hsep.le_toUtc hle
      rw [hshown, toLocal_of_le (by omega)]
      rcases ih hsep.2 (hutc ▸ h) with hge | ⟨heq, hback⟩
      · exact .inl hge
      · exact .inr ⟨heq, .inr hback⟩

theorem SkippedBy.shown_eq {n : Int} (h : SkippedBy o cs x n) : shown o cs x = x + n := by
  induction cs generalizing o with
  | nil => exact h.elim
  | cons c cs ih =>
    rcases h with ⟨hle, hlt, rfl⟩ | h
    · rw [shown, if_neg (by omega), if_pos hlt]
    · have hle := hsep.le_of_skippedBy h
      rw [shown, if_neg (by omega), if_neg (by omega)]
      exact ih hsep.2 h

/-- Of two readings that are skipped the later one is shown later. -/
theorem SkippedBy.add_le_add {y n m : Int} (h : SkippedBy o cs x n) (h' : SkippedBy o cs y m)
    (hxy : x ≤ y) : x + n ≤ y + m := by
  induction cs generalizing o with
  | nil => exact h.elim
  | cons c cs ih =>
    rcases h with ⟨hle, hlt, rfl⟩ | h <;> rcases h' with ⟨hle', hlt', rfl⟩ | h'
    · omega
    · have hy := h'.shown_eq hsep.2
      have := le_shown c.offset cs y
      have := hsep.le_of_skippedBy h'
      omega
    · have := hsep.le_of_skippedBy h
      omega
    · exact ih hsep.2 h h'

/-- A reading that is skipped is shown before a later one that is skipped too, if the clock shows
one in between. -/
theorem SkippedBy.add_lt {y n m : Int} (h : SkippedBy o cs x n) (h' : SkippedBy o cs y m)
    (hx : x ≤ toLocal o cs t) (hy : toLocal o cs t < y) : x + n < y := by
  induction cs generalizing o with
  | nil => exact h.elim
  | cons c cs ih =>
    have hstart := hsep.1.mono (Int.le_add_of_nonneg_right (abs_nonneg (c.offset - o)))
    by_cases ht : t < c.instant
    · -- the clock has not come as far as what is skipped
      rw [toLocal_of_lt ht] at hx
      rcases h with ⟨hle, -, -⟩ | h
      · omega
      · have := hsep.le_of_skippedBy h
        omega
    · have hge := le_toLocal_of_startsAfter hsep.2 hstart (Int.not_lt.1 ht)
      rw [toLocal_of_le (Int.not_lt.1 ht)] at hx hy
      rcases h' with ⟨-, hlt', -⟩ | h'
      · omega
      · rcases h with ⟨hle, hlt, rfl⟩ | h
        · have := hsep.le_of_skippedBy h'
          omega
        · exact ih hsep.2 h h' hx hy

omit hsep in
theorem SetBackOver.mono {x' : Int} (h : SetBackOver o cs t x) (hx : x' ≤ x) :
    SetBackOver o cs t x' := by
  induction cs generalizing o with
  | nil => exact h
  | cons c cs ih =>
    rcases h with ⟨hback, hle, hlt⟩ | h
    · exact .inl ⟨hback, hle, by omega⟩
    · exact .inr (ih h)

theorem SetBackOver.startsAfter_lt (hstart : StartsAfter b o cs)
    (h : SetBackOver o cs t x) : b < t := by
  induction cs generalizing o b with
  | nil => exact h.elim
  | cons c cs ih =>
    rw [StartsAfter] at hstart
    have habs := neg_abs_le (c.offset - o)
    rcases h with ⟨hback, hle, -⟩ | h
    · omega
    · have hlt := ih hsep.2 hsep.1 h
      have hnonneg := abs_nonneg (c.offset - o)
      omega

/-- A reading that the clock was set back over stands for an instant before that. -/
theorem toUtc_lt_of_setBack (h : SetBackOver o cs t x) :
    toUtc o cs x < t := by
  induction cs generalizing o with
  | nil => exact h.elim
  | cons c cs ih =>
    rcases h with ⟨hback, hle, hx⟩ | h
    · rw [toUtc_of_lt (by omega)]
      omega
    · by_cases hlt : x < c.instant + max o c.offset
      · have habs := le_abs_self (c.offset - o)
        have hnonneg := abs_nonneg (c.offset - o)
        have hstart := h.startsAfter_lt hsep.2 hsep.1
        rw [toUtc_of_lt hlt]
        omega
      · rw [toUtc_of_le (Int.not_lt.1 hlt)]
        exact ih hsep.2 h

end

end Py.WallClock
