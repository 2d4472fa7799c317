import Mathlib

/-!
# Tilings of a range of numbers

A `Tile` stands for a run of consecutive numbers: the `count` numbers up to and including `upto`.
A list of tiles is a *tiling* of the numbers after `a` up to `b`, `Tiles a b`, if each tile starts
where the one before it ends.

* `Tiles.append_iff` cuts a tiling in two.
* `Tiles.countP_covers`: every number of the range is in exactly one tile.
* `Tiles.pairwise_upto`: the ends of the tiles increase, and `Tiles.upto_eq` says where a tile
  ends in terms of the tiles before it.
-/

namespace Py

/-- A run of `count` numbers, the last of which is `upto`. -/
structure Tile where
  count : Nat
  upto : Nat
deriving DecidableEq

namespace Tile

/-- Is the number in the run? -/
def covers (t : Tile) (q : Nat) : Bool := decide (t.upto < q + t.count) && decide (q ≤ t.upto)

end Tile

/-- The tiles follow on each other, from the numbers after `a` up to `b`. -/
def Tiles : Nat → Nat → List Tile → Prop
  | a, b, [] => a = b
  | a, b, t :: ts => 0 < t.count ∧ t.upto = a + t.count ∧ Tiles t.upto b ts

namespace Tiles

variable {a b : Nat} {ts us : List Tile} {t : Tile}

@[simp] theorem nil_iff : Tiles a b [] ↔ a = b := Iff.rfl

@[simp] theorem cons_iff : Tiles a b (t :: ts) ↔ 0 < t.count ∧ t.upto = a + t.count ∧
    Tiles t.upto b ts := Iff.rfl

theorem append_iff : Tiles a b (ts ++ us) ↔ ∃ m, Tiles a m ts ∧ Tiles m b us := by
  induction ts generalizing a with
  | nil => simp
  | cons t ts ih => simp [ih, and_assoc]

theorem concat_iff : Tiles a b (ts ++ [t]) ↔
    ∃ m, Tiles a m ts ∧ 0 < t.count ∧ t.upto = m + t.count ∧ t.upto = b := by
  simp [append_iff]

theorem le (h : Tiles a b ts) : a ≤ b := by
  induction ts generalizing a with
  | nil => exact Nat.le_of_eq h
  | cons t ts ih =>
    have := ih h.2.2
    have := h.2.1
    omega

theorem upto_le (h : Tiles a b ts) : ∀ t ∈ ts, a < t.upto ∧ t.upto ≤ b := by
  induction ts generalizing a with
  | nil => exact nofun
  | cons t ts ih =>
    intro u hu
    have hcount := h.1
    have hupto := h.2.1
    have hb := h.2.2.le
    rcases List.mem_cons.1 hu with rfl | hu
    · omega
    · have := ih h.2.2 u hu
      omega

/-- The tiles end further and further on. -/
theorem pairwise_upto (h : Tiles a b ts) : ts.Pairwise fun t u ↦ t.upto < u.upto := by
  induction ts generalizing a with
  | nil => exact List.Pairwise.nil
  | cons t ts ih => exact List.Pairwise.cons (fun u hu ↦ (h.2.2.upto_le u hu).1) (ih h.2.2)

theorem countP_covers_of_le (h : Tiles a b ts) {q : Nat} (hq : q ≤ a) :
    ts.countP (fun t ↦ t.covers q) = 0 := by
  induction ts generalizing a with
  | nil => rfl
  | cons t ts ih =>
    have hupto := h.2.1
    have hnot : t.covers q = false := by simp [Tile.covers]; omega
    rw [List.countP_cons_of_neg (by rw [hnot]; exact Bool.false_ne_true)]
    exact ih h.2.2 (by omega)

/-- **Every number of the range is in exactly one tile.** -/
theorem countP_covers (h : Tiles a b ts) {q : Nat} (ha : a < q) (hb : q ≤ b) :
    ts.countP (fun t ↦ t.covers q) = 1 := by
  induction ts generalizing a with
  | nil =>
    have := nil_iff.1 h
    omega
  | cons t ts ih =>
    have hupto := h.2.1
    by_cases hq : q ≤ t.upto
    · have hcover : t.covers q = true := by simp [Tile.covers]; omega
      rw [List.countP_cons_of_pos (p := fun t : Tile ↦ t.covers q) hcover,
        h.2.2.countP_covers_of_le hq]
    · have hnot : t.covers q = false := by simp [Tile.covers, hq]
      rw [List.countP_cons_of_neg (by rw [hnot]; exact Bool.false_ne_true)]
      exact ih h.2.2 (by omega)

/-- Two tiles that follow on each other are one. -/
theorem merge {u : Tile} (h : Tiles a b (t :: u :: ts)) :
    Tiles a b (⟨t.count + u.count, u.upto⟩ :: ts) := by
  obtain ⟨hcount, hupto, hcount', hupto', hts⟩ := h
  refine ⟨by dsimp only; omega, ?_, hts⟩
  rw [hupto', hupto]
  exact Nat.add_assoc ..

/-- Consecutive numbers, one by one. -/
theorem map_range' (a n : Nat) : Tiles a (a + n) ((List.range' (a + 1) n).map (Tile.mk 1)) := by
  induction n generalizing a with
  | zero => rfl
  | succ n ih =>
    refine ⟨Nat.one_pos, rfl, ?_⟩
    rw [show a + (n + 1) = a + 1 + n by omega]
    exact ih (a + 1)

/-- Where the tiles before a tile end. -/
def last (a : Nat) (ts : List Tile) : Nat := ts.foldl (fun _ t ↦ t.upto) a

theorem last_eq (h : Tiles a b ts) : last a ts = b := by
  induction ts generalizing a with
  | nil => exact h
  | cons t ts ih => exact ih h.2.2

/-- **A tile ends as far after the tiles before it as it has numbers.** -/
theorem upto_eq (h : Tiles a b (ts ++ t :: us)) : t.upto = last a ts + t.count := by
  obtain ⟨m, hts, htus⟩ := append_iff.1 h
  rw [last_eq hts]
  exact htus.2.1

end Tiles

end Py
