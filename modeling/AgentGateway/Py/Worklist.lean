import Mathlib

/-!
# Worklists

A loop takes a node from a stack, skips it if it has seen it, and otherwise pushes its children.
The children of a node may come in any order, as those of a Python `set` do, and there are finitely
many targets of edges, so the loop ends.

`Graph.mem_visit`: what it has seen in the end is what can be reached from where it started,
whatever cycles there are.
-/

open List

namespace Py

/-- A graph whose edges have finitely many targets. -/
structure Graph (α : Type) where
  children : α → List α
  targets : Finset α
  mem_targets : ∀ a, ∀ b ∈ children a, b ∈ targets

namespace Graph

variable {α : Type} [DecidableEq α] (g : Graph α)

/-- The nodes the loop may still meet, apart from those it has seen. -/
def unseen (pending : List α) (seen : Finset α) : Finset α := (g.targets ∪ pending.toFinset) \ seen

theorem unseen_skip (current : α) (pending : List α) (seen : Finset α) :
    g.unseen pending seen ⊆ g.unseen (current :: pending) seen := by
  intro x hx
  simp only [unseen, Finset.mem_sdiff, Finset.mem_union, mem_toFinset, mem_cons] at hx ⊢
  exact ⟨hx.1.imp_right .inr, hx.2⟩

variable {seen : Finset α}

theorem unseen_visit {current : α} (pending : List α) (h : current ∉ seen) :
    g.unseen (g.children current ++ pending) (insert current seen) ⊂
      g.unseen (current :: pending) seen := by
  rw [Finset.ssubset_iff_of_subset]
  · refine ⟨current, ?_, ?_⟩
    · simp [unseen, h]
    · simp [unseen]
  · intro x hx
    simp only [unseen, Finset.mem_sdiff, Finset.mem_union, mem_toFinset, mem_cons,
      mem_append, Finset.mem_insert, not_or] at hx ⊢
    refine ⟨?_, hx.2.2⟩
    rcases hx.1 with hx | hx | hx
    · exact .inl hx
    · exact .inl (g.mem_targets current x hx)
    · exact .inr (.inr hx)

/-- The loop: `pending` is the stack, its top first. -/
def visit (pending : List α) (seen : Finset α) : Finset α :=
  match pending with
  | [] => seen
  | current :: pending =>
    if current ∈ seen then visit pending seen
    else visit (g.children current ++ pending) (insert current seen)
termination_by ((g.unseen pending seen).card, pending.length)
decreasing_by
  · -- nothing new: the stack is shorter
    rcases (Finset.card_le_card (g.unseen_skip current pending seen)).lt_or_eq with hlt | heq
    · exact .left _ _ hlt
    · rw [heq]
      exact .right _ (Nat.lt_succ_self _)
  · exact .left _ _ (Finset.card_lt_card (g.unseen_visit pending ‹_›))

/-- There is a path. -/
def Reach : α → α → Prop := Relation.ReflTransGen fun a b ↦ b ∈ g.children a

variable {g}

variable {pending : List α} {x : α}

omit [DecidableEq α] in
/-- What leaves a set that is closed but for the stack goes over the stack. -/
theorem mem_or_reach (hclosed : ∀ a ∈ seen, ∀ b ∈ g.children a, b ∈ seen ∨ b ∈ pending) {a : α}
    (ha : a ∈ seen) (h : g.Reach a x) : x ∈ seen ∨ ∃ s ∈ pending, g.Reach s x := by
  induction h with
  | refl => exact .inl ha
  | tail _ hstep ih =>
    rcases ih with hseen | ⟨s, hs, hreach⟩
    · rcases hclosed _ hseen _ hstep with hx | hx
      · exact .inl hx
      · exact .inr ⟨_, hx, .refl⟩
    · exact .inr ⟨s, hs, hreach.tail hstep⟩

omit [DecidableEq α] in
theorem reach_iff_head {a : α} : g.Reach a x ↔ x = a ∨ ∃ b ∈ g.children a, g.Reach b x := by
  rw [Reach, Relation.ReflTransGen.cases_head_iff]
  constructor
  · rintro (rfl | ⟨b, hb, h⟩)
    · exact .inl rfl
    · exact .inr ⟨b, hb, h⟩
  · rintro (rfl | ⟨b, hb, h⟩)
    · exact .inl rfl
    · exact .inr ⟨b, hb, h⟩

theorem mem_visit_iff (hclosed : ∀ a ∈ seen, ∀ b ∈ g.children a, b ∈ seen ∨ b ∈ pending) :
    x ∈ g.visit pending seen ↔ x ∈ seen ∨ ∃ s ∈ pending, g.Reach s x := by
  fun_induction g.visit pending seen with
  | case1 seen => simp
  | case2 seen current pending hseen ih =>
    have hrest : ∀ a ∈ seen, ∀ b ∈ g.children a, b ∈ seen ∨ b ∈ pending := by
      intro a ha b hb
      rcases hclosed a ha b hb with h | h
      · exact .inl h
      · rcases mem_cons.1 h with rfl | h
        · exact .inl hseen
        · exact .inr h
    rw [ih hrest]
    constructor
    · rintro (h | ⟨s, hs, h⟩)
      · exact .inl h
      · exact .inr ⟨s, mem_cons_of_mem _ hs, h⟩
    · rintro (h | ⟨s, hs, h⟩)
      · exact .inl h
      · rcases mem_cons.1 hs with rfl | hs
        · exact mem_or_reach hrest hseen h
        · exact .inr ⟨s, hs, h⟩
  | case3 seen current pending hseen ih =>
    have hrest : ∀ a ∈ insert current seen, ∀ b ∈ g.children a,
        b ∈ insert current seen ∨ b ∈ g.children current ++ pending := by
      intro a ha b hb
      rcases Finset.mem_insert.1 ha with rfl | ha
      · exact .inr (mem_append_left _ hb)
      · rcases hclosed a ha b hb with h | h
        · exact .inl (Finset.mem_insert_of_mem h)
        · rcases mem_cons.1 h with rfl | h
          · exact .inl (Finset.mem_insert_self _ _)
          · exact .inr (mem_append_right _ h)
    rw [ih hrest]
    simp only [Finset.mem_insert, mem_append, mem_cons, or_and_right, exists_or,
      exists_eq_left]
    rw [reach_iff_head (a := current), or_comm (a := x = current), or_assoc, or_assoc]

/-- **The loop has seen what can be reached from where it started.** -/
theorem mem_visit :
    x ∈ g.visit pending ∅ ↔ ∃ s ∈ pending, g.Reach s x := by
  rw [mem_visit_iff (by simp)]
  simp

end Graph

end Py
