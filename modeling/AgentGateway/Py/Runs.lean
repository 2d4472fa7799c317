import Mathlib

/-!
# Runs of operations

A component that runs one operation at a time is a function `step` from a state and an operation to
the next state, and a run of it a list of operations.  `runs` is the state a run ends in.

`Meets` says of a run that every operation in it satisfies a condition in the state it is run in.
What each such operation preserves the run preserves (`runs_of_meets`), and what relates the states
before and after each such operation relates the ends of the run (`rel_runs_of_meets`).

`Since` looks back: something held at some point of the run, and nothing has happened since then
that matters to it.
-/

namespace Py

variable {σ ο : Type} {step : σ → ο → σ}

/-- The state after a run. -/
def runs (step : σ → ο → σ) (s : σ) (ops : List ο) : σ := ops.foldl step s

@[simp] theorem runs_nil (s : σ) : runs step s [] = s := rfl

@[simp] theorem runs_cons (s : σ) (o : ο) (ops : List ο) :
    runs step s (o :: ops) = runs step (step s o) ops := rfl

@[simp] theorem runs_append (s : σ) (ops ops' : List ο) :
    runs step s (ops ++ ops') = runs step (runs step s ops) ops' := List.foldl_append

/-- Every operation of the run satisfies the condition, in the state it is run in. -/
def Meets (step : σ → ο → σ) (C : σ → ο → Prop) : σ → List ο → Prop
  | _, [] => True
  | s, o :: ops => C s o ∧ Meets step C (step s o) ops

variable {C : σ → ο → Prop}

instance Meets.decidable [∀ s o, Decidable (C s o)] :
    ∀ (s : σ) (ops : List ο), Decidable (Meets step C s ops)
  | _, [] => isTrue trivial
  | s, o :: ops =>
    have := Meets.decidable (step s o) ops
    inferInstanceAs (Decidable (C s o ∧ Meets step C (step s o) ops))

theorem meets_append_iff {s : σ} {ops ops' : List ο} :
    Meets step C s (ops ++ ops') ↔ Meets step C s ops ∧ Meets step C (runs step s ops) ops' := by
  induction ops generalizing s with
  | nil => simp [Meets]
  | cons o ops ih => simp [Meets, ih, and_assoc]

theorem meets_of_forall (h : ∀ s o, C s o) (s : σ) (ops : List ο) : Meets step C s ops := by
  induction ops generalizing s with
  | nil => trivial
  | cons o ops ih => exact ⟨h s o, ih _⟩

theorem meets_of_forall_mem {ops : List ο} (h : ∀ s, ∀ o ∈ ops, C s o) {s : σ} :
    Meets step C s ops := by
  induction ops generalizing s with
  | nil => trivial
  | cons o ops ih =>
    exact ⟨h s o List.mem_cons_self, ih fun s o ho ↦ h s o (List.mem_cons_of_mem _ ho)⟩

/-- **An invariant of the operations is one of the run.** -/
theorem runs_of_meets {P : σ → Prop} (hstep : ∀ s o, C s o → P s → P (step s o)) {s : σ}
    {ops : List ο} (hC : Meets step C s ops) (hs : P s) : P (runs step s ops) := by
  induction ops generalizing s with
  | nil => exact hs
  | cons o ops ih => exact ih hC.2 (hstep s o hC.1 hs)

theorem runs_induction {P : σ → Prop} (hstep : ∀ s o, P s → P (step s o)) {s : σ} (hs : P s)
    (ops : List ο) : P (runs step s ops) := by
  induction ops generalizing s with
  | nil => exact hs
  | cons o ops ih => exact ih (hstep s o hs)

/-- **What relates the states around each operation relates the ends of the run.** -/
theorem rel_runs_of_meets {R : σ → σ → Prop} (hrefl : ∀ s, R s s)
    (htrans : ∀ s t u, R s t → R t u → R s u) (hstep : ∀ s o, C s o → R s (step s o)) {s : σ}
    {ops : List ο} (hC : Meets step C s ops) : R s (runs step s ops) := by
  induction ops generalizing s with
  | nil => exact hrefl s
  | cons o ops ih => exact htrans s _ _ (hstep s o hC.1) (ih hC.2)

/-! ## Looking back -/

/-- At some point of the run `Q` held, and every operation since then satisfies `B`. -/
def Since (step : σ → ο → σ) (s : σ) (Q : σ → Prop) (B : ο → Prop) (ops : List ο) : Prop :=
  ∃ before later, ops = before ++ later ∧ Q (runs step s before) ∧ ∀ o ∈ later, B o

section Since

variable {Q Q' : σ → Prop} {B B' : ο → Prop} {s : σ} {ops : List ο}

theorem Since.now (h : Q (runs step s ops)) : Since step s Q B ops :=
  ⟨ops, [], (List.append_nil ops).symm, h, by simp⟩

theorem Since.concat (h : Since step s Q B ops) {o : ο} (ho : B o) :
    Since step s Q B (ops ++ [o]) := by
  obtain ⟨before, later, rfl, hQ, hB⟩ := h
  exact ⟨before, later ++ [o], by rw [List.append_assoc], hQ,
    List.forall_mem_append.2 ⟨hB, List.forall_mem_singleton.2 ho⟩⟩

theorem Since.mono (h : Since step s Q B ops) (hQ : ∀ s, Q s → Q' s) (hB : ∀ o, B o → B' o) :
    Since step s Q' B' ops := by
  obtain ⟨before, later, hops, hq, hb⟩ := h
  exact ⟨before, later, hops, hQ _ hq, fun o ho ↦ hB o (hb o ho)⟩

end Since

end Py
