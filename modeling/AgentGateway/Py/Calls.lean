import Mathlib

/-!
# Calls that raise, and runs of calls

A call that may raise is an `Except`, and `bind_eq_ok_iff` takes a sequence of them apart: it
returned, so every call in it returned.  `require` and `requireSome` are the guards of such a
sequence.

A run of calls on an object is the reflexive transitive closure of what one call does.  An
`Invariant` is a property that no call takes away, and `Invariant.of_run` carries it along a run.
-/

namespace Py

/-! ## Calls -/

section Except

variable {ε α β : Type}

variable {x : Except ε α}

/-- Two calls in sequence returned exactly if each of them did. -/
theorem bind_eq_ok_iff {f : α → Except ε β} {r : β} :
    (x >>= f) = .ok r ↔ ∃ a, x = .ok a ∧ f a = .ok r := by
  cases x with
  | error => simp [bind, Except.bind]
  | ok => simp [bind, Except.bind]

theorem map_eq_ok_iff {f : α → β} {r : β} :
    x.map f = .ok r ↔ ∃ a, x = .ok a ∧ f a = r := by
  cases x with
  | error => simp [Except.map]
  | ok => simp [Except.map]

/-- `if not c: raise e` -/
def require (c : Prop) [Decidable c] (e : ε) : Except ε Unit := if c then .ok () else .error e

@[simp] theorem require_eq_ok_iff {c : Prop} [Decidable c] {e : ε} {u : Unit} :
    require c e = .ok u ↔ c := by
  by_cases h : c
  · simp [require, h]
  · simp [require, h]

/-- `if x is None: raise e` -/
def requireSome (x : Option α) (e : ε) : Except ε α :=
  match x with
  | none => .error e
  | some a => .ok a

@[simp] theorem requireSome_eq_ok_iff {x : Option α} {e : ε} {a : α} :
    requireSome x e = .ok a ↔ x = some a := by
  cases x with
  | none => simp [requireSome]
  | some => simp [requireSome]

/-- The error of a call that raised. -/
def raised : Except ε α → Option ε
  | .error e => some e
  | .ok _ => none

theorem eq_error_of_raised {e : ε} (h : raised x = some e) : x = .error e := by
  cases x with
  | error =>
    rw [raised, Option.some.injEq] at h
    rw [h]
  | ok => cases h

theorem toOption_eq_some_iff {a : α} : x.toOption = some a ↔ x = .ok a := by
  cases x with
  | ok => simp [Except.toOption]
  | error => simp [Except.toOption]

theorem exists_ok_of_any {p : α → Bool} (h : x.toOption.any p = true) :
    ∃ a, x = .ok a ∧ p a = true := by
  cases x with
  | ok a => exact ⟨a, rfl, h⟩
  | error => cases h

end Except

/-! ## Runs -/

section Run

variable {σ : Type} {step : σ → σ → Prop}

/-- No step takes the property away. -/
def Invariant (step : σ → σ → Prop) (P : σ → Prop) : Prop := ∀ ⦃s t⦄, step s t → P s → P t

theorem Invariant.of_run {P : σ → Prop} (h : Invariant step P) {s t : σ}
    (hrun : Relation.ReflTransGen step s t) (hs : P s) : P t := by
  induction hrun with
  | refl => exact hs
  | tail _ hst ih => exact h hst ih

end Run

end Py
