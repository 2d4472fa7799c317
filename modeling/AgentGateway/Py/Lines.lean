import AgentGateway.Py.Text

/-!
# Lines and searches

* `Str.splitlines` is `str.splitlines()`.  Lines without a line break in them, each ended by a
  newline, are taken apart again (`splitlines_unlines`).
* `lastFit` and `growFit` are two forms of a binary search for the last number that fits.  Whether
  or not what fits is an initial segment, what they find does fit (`lastFit_spec`, `growFit_fits`),
  and the second moves on if the first candidate fits (`lt_growFit`).
-/

open List

namespace Py

/-! ## Lines -/

/-- The characters `str.splitlines` ends a line at. -/
def CodePoint.isLineBreak (p : CodePoint) : Bool :=
  let n := p.ord
  (0x0A ≤ n && n ≤ 0x0D) || (0x1C ≤ n && n ≤ 0x1E) || n == 0x85 || n == 0x2028 || n == 0x2029

namespace Str

/-- `str.splitlines()` -/
def splitlines : Str → List Str
  | [] => []
  | .scalar '\r' :: .scalar '\n' :: s => [] :: splitlines s
  | p :: s =>
    if p.isLineBreak then [] :: splitlines s
    else
      match splitlines s with
      | [] => [[p]]
      | l :: ls => (p :: l) :: ls

/-- `"\n".join(lines) + "\n"` -/
def unlines (ls : List Str) : Str := ls.flatMap (· ++ [.scalar '\n'])

theorem splitlines_cons {p : CodePoint} (hp : p.isLineBreak = false) (s : Str) :
    splitlines (p :: s) =
      match splitlines s with
      | [] => [[p]]
      | l :: ls => (p :: l) :: ls := by
  rw [splitlines]
  · rw [if_neg (by simp [hp])]
  · rintro t rfl
    cases hp

theorem splitlines_append {l : Str} (hl : ∀ p ∈ l, p.isLineBreak = false) (s : Str) :
    splitlines (l ++ .scalar '\n' :: s) = l :: splitlines s := by
  induction l with
  | nil =>
    rw [nil_append, splitlines]
    · rfl
    · rintro t h
      cases h
  | cons p l ih =>
    rw [cons_append, splitlines_cons (hl p mem_cons_self),
      ih fun q hq ↦ hl q (mem_cons_of_mem _ hq)]

/-- **Lines are taken apart as they were put together.** -/
theorem splitlines_unlines {ls : List Str} (hls : ∀ l ∈ ls, ∀ p ∈ l, p.isLineBreak = false) :
    splitlines (unlines ls) = ls := by
  induction ls with
  | nil => rfl
  | cons l ls ih =>
    rw [unlines, flatMap_cons, ← unlines, append_assoc, singleton_append,
      splitlines_append (hls l mem_cons_self), ih fun m hm ↦ hls m (mem_cons_of_mem _ hm)]

end Str

/-! ## Binary search -/

/-- `while low <= high`, with the middle kept if it fits.  Every round takes away at least one
candidate. -/
def lastFit (fits : Nat → Bool) : Nat → Nat → Nat → Option Nat → Option Nat
  | 0, _, _, best => best
  | fuel + 1, low, high, best =>
    if low ≤ high then
      let mid := (low + high) / 2
      if fits mid then lastFit fits fuel (mid + 1) high (some mid)
      else lastFit fits fuel low (mid - 1) best
    else best

variable {fuel low high : Nat}

section LastFit

variable {fits : Nat → Bool}

/-- What is found fits, and is one of the candidates. -/
theorem lastFit_spec {e : Nat} {best : Option Nat} (h : lastFit fits fuel low high best = some e) :
    best = some e ∨ low ≤ e ∧ e ≤ high ∧ fits e = true := by
  induction fuel generalizing low high best with
  | zero => exact .inl h
  | succ fuel ih =>
    rw [lastFit] at h
    split at h
    next hle =>
      dsimp only at h
      split at h
      next hfits =>
        rcases ih h with hbest | ⟨hlow, hhigh, he⟩
        · cases hbest
          exact .inr ⟨by omega, by omega, hfits⟩
        · exact .inr ⟨by omega, hhigh, he⟩
      · rcases ih h with hbest | ⟨hlow, hhigh, he⟩
        · exact .inl hbest
        · exact .inr ⟨hlow, by omega, he⟩
    · exact .inl h

/-- If nothing is found, the first candidate was tried and does not fit. -/
theorem lastFit_eq_none {best : Option Nat} (hpos : 0 < low)
    (h : lastFit fits fuel low high best = none) :
    best = none ∧ (low ≤ high → high < low + fuel → fits low = false) := by
  induction fuel generalizing low high best with
  | zero => exact ⟨h, by omega⟩
  | succ fuel ih =>
    rw [lastFit] at h
    split at h
    next hle =>
      dsimp only at h
      split at h
      next hfits => cases (ih (by omega) h).1
      next hfits =>
        refine ⟨(ih hpos h).1, fun _ hfuel ↦ ?_⟩
        by_cases hlow : low ≤ (low + high) / 2 - 1
        · exact (ih hpos h).2 hlow (by omega)
        · rwa [show (low + high) / 2 = low by omega, Bool.not_eq_true] at hfits
    next hgt => exact ⟨h, fun hle ↦ absurd hle hgt⟩

end LastFit

/-- `while low < high`, with `low` moved up to a candidate that fits.  Every round takes away at
least one candidate. -/
def growFit (fits : Nat → Bool) : Nat → Nat → Nat → Nat
  | 0, low, _ => low
  | fuel + 1, low, high =>
    if low < high then
      let candidate := (low + high + 1) / 2
      if fits candidate then growFit fits fuel candidate high
      else growFit fits fuel low (candidate - 1)
    else low

section GrowFit

variable {fits : Nat → Bool}

theorem growFit_fits (h : fits low = true) :
    fits (growFit fits fuel low high) = true := by
  induction fuel generalizing low high with
  | zero => exact h
  | succ fuel ih =>
    rw [growFit]
    split
    · dsimp only
      split
      next hfits => exact ih hfits
      · exact ih h
    · exact h

theorem le_growFit : low ≤ growFit fits fuel low high := by
  induction fuel generalizing low high with
  | zero => exact Nat.le_refl low
  | succ fuel ih =>
    rw [growFit]
    split
    · dsimp only
      split
      · exact Nat.le_trans (by omega) ih
      · exact ih
    · exact Nat.le_refl low

theorem growFit_le (h : low ≤ high) : growFit fits fuel low high ≤ high := by
  induction fuel generalizing low high with
  | zero => exact h
  | succ fuel ih =>
    rw [growFit]
    split
    · dsimp only
      split
      · exact ih (by omega)
      · exact Nat.le_trans (ih (by omega)) (by omega)
    · exact h

/-- The search moves on if the next candidate fits. -/
theorem lt_growFit (hfuel : high - low ≤ fuel) (h : low < high) (hfits : fits (low + 1) = true) :
    low < growFit fits fuel low high := by
  induction fuel generalizing high with
  | zero => omega
  | succ fuel ih =>
    rw [growFit, if_pos h]
    dsimp only
    split
    · exact Nat.lt_of_lt_of_le (by omega) le_growFit
    next hnot =>
      have hne : (low + high + 1) / 2 ≠ low + 1 := fun heq ↦ hnot (heq ▸ hfits)
      exact ih (by omega) (by omega)

end GrowFit

end Py
