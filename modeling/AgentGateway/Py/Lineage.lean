import Mathlib

/-!
# Lines of revisions

A line of revisions is a list whose members are numbered from one on, and each of which names the
digest of the one before it (`Linked`).  A table that refuses a second first revision, a number that
is taken and a revision whose predecessor is not there keeps its rows in such a line
(`Linked.concat_of_checked`).

If a property passes from every revision to the ones before it, then it holds of the revisions up to
some number and of no other (`Linked.exists_frontier`).
-/

open List

namespace Py

variable {ρ δ : Type} {rev : ρ → Nat} {digest : ρ → δ} {prev : ρ → Option δ}

/-- The members are numbered in order, and each names the digest of its predecessor. -/
def Linked (rev : ρ → Nat) (digest : ρ → δ) (prev : ρ → Option δ) (l : List ρ) : Prop :=
  ∀ i r, l[i]? = some r → rev r = i + 1 ∧ prev r = (l.take i).getLast?.map digest

namespace Linked

theorem nil : Linked rev digest prev [] := by
  intro i r h
  cases h

variable {l : List ρ} {r r' : ρ}

section

variable (h : Linked rev digest prev l)

include h

theorem rev_bounds (hr : r ∈ l) : 1 ≤ rev r ∧ rev r ≤ l.length := by
  obtain ⟨i, hi⟩ := mem_iff_getElem?.1 hr
  obtain ⟨hlt, -⟩ := List.getElem?_eq_some_iff.1 hi
  rw [(h i r hi).1]
  omega

theorem getElem?_rev (hr : r ∈ l) : l[rev r - 1]? = some r := by
  obtain ⟨i, hi⟩ := mem_iff_getElem?.1 hr
  rw [(h i r hi).1]
  exact hi

/-- Two revisions with one number are one. -/
theorem eq_of_rev_eq (hr : r ∈ l) (hr' : r' ∈ l) (heq : rev r = rev r') : r = r' := by
  have h₁ := h.getElem?_rev hr
  rw [heq, h.getElem?_rev hr'] at h₁
  exact (Option.some.inj h₁).symm

theorem concat (hrev : rev r = l.length + 1)
    (hprev : prev r = l.getLast?.map digest) : Linked rev digest prev (l ++ [r]) := by
  intro i x hx
  rcases Nat.lt_trichotomy i l.length with hi | rfl | hi
  · rw [getElem?_append_left hi] at hx
    rw [take_append_of_le_length (Nat.le_of_lt hi)]
    exact h i x hx
  · rw [getElem?_concat_length] at hx
    cases hx
    rw [take_left]
    exact ⟨hrev, hprev⟩
  · rw [getElem?_eq_none (by rw [length_append, length_singleton]; omega)] at hx
    cases hx

/-- **A revision that the checks let through is the next one.** -/
theorem concat_of_checked (hcheck : rev r = 1 ∧ prev r = none ∨ 1 < rev r ∧ (prev r).isSome = true)
    (hfirst : rev r = 1 → l = [])
    (hnext : 1 < rev r → ∃ x ∈ l, rev x = rev r - 1 ∧ prev r = some (digest x))
    (hfresh : ∀ x ∈ l, rev x ≠ rev r) :
    rev r = l.length + 1 ∧ Linked rev digest prev (l ++ [r]) := by
  rcases hcheck with ⟨hone, hnone⟩ | ⟨hlt, -⟩
  · obtain rfl := hfirst hone
    exact ⟨hone, nil.concat hone hnone⟩
  · obtain ⟨x, hx, hrev, hprev⟩ := hnext hlt
    have hbounds := h.rev_bounds hx
    -- the number after that of `x` is not taken, so `x` is the last
    have hlast : rev x = l.length := by
      by_contra hne
      have hidx : rev r - 1 < l.length := by omega
      have hnum := (h (rev r - 1) l[rev r - 1] (getElem?_eq_getElem hidx)).1
      exact hfresh _ (getElem_mem hidx) (by omega)
    have hget := h.getElem?_rev hx
    rw [hlast, ← getLast?_eq_getElem?] at hget
    have hlen : rev r = l.length + 1 := by omega
    refine ⟨hlen, h.concat hlen ?_⟩
    rw [hprev, hget, Option.map_some]

/-- **A property that passes to earlier revisions holds of a first part of the line.** -/
theorem exists_frontier {P : ρ → Prop} [DecidablePred P]
    (hP : ∀ r ∈ l, ∀ r' ∈ l, P r → rev r' < rev r → P r') :
    ∃ k ≤ l.length, ∀ r ∈ l, P r ↔ rev r ≤ k := by
  refine ⟨Nat.findGreatest (fun n ↦ ∃ r ∈ l, rev r = n ∧ P r) l.length,
    Nat.findGreatest_le l.length, fun r hr ↦ ⟨fun hPr ↦ ?_, fun hle ↦ ?_⟩⟩
  · exact Nat.le_findGreatest (h.rev_bounds hr).2 ⟨r, hr, rfl, hPr⟩
  · obtain ⟨x, hx, hrev, hPx⟩ := Nat.findGreatest_of_ne_zero
      (P := fun n ↦ ∃ r ∈ l, rev r = n ∧ P r) (n := l.length) rfl
      (by have := (h.rev_bounds hr).1; omega)
    rcases Nat.lt_or_eq_of_le hle with hlt | heq
    · exact hP x hx r hr hPx (by omega)
    · rwa [h.eq_of_rev_eq hr hx (heq.trans hrev.symm)]

end

end Linked

end Py
