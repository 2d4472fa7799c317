import Mathlib

/-!
# Streams in which items are sent again

A sender numbers its items and may send one again.  What the receiver is to make of such a stream
is `marked`: every item together with whether it was there before.  The items without the
repetitions are `firsts`, and they are the items that are marked as new (`filter_marked`).

A stream is `Admissible` if every item is either a repetition, or has a greater number than any
before it and a key that none before it had.  Its `firsts` are then in the order of their numbers
and their keys are distinct.
-/

open List

namespace Py

/-! ## First occurrences -/

variable {α κ : Type} [DecidableEq α]

/-- The items without the repetitions. -/
def firsts (l : List α) : List α := l.foldl (fun seen a ↦ if a ∈ seen then seen else seen ++ [a]) []

theorem firsts_concat (l : List α) (a : α) :
    firsts (l ++ [a]) = if a ∈ firsts l then firsts l else firsts l ++ [a] := by
  rw [firsts, foldl_append]
  rfl

@[simp] theorem mem_firsts {l : List α} {a : α} : a ∈ firsts l ↔ a ∈ l := by
  induction l using List.reverseRecOn generalizing a with
  | nil => rfl
  | append_singleton l b ih =>
    rw [firsts_concat, mem_append, mem_singleton]
    split
    next hb =>
      rw [ih]
      refine ⟨Or.inl, fun h ↦ h.elim id ?_⟩
      rintro rfl
      exact ih.1 hb
    · rw [mem_append, mem_singleton, ih]

theorem firsts_prefix_append (l m : List α) : firsts l <+: firsts (l ++ m) := by
  induction m using List.reverseRecOn with
  | nil => simp
  | append_singleton m a ih =>
    rw [← append_assoc, firsts_concat]
    split
    · exact ih
    · exact ih.trans (prefix_append _ _)

/-! ## Marks -/

/-- Every item, with whether it was there before. -/
def marked (l : List α) : List (α × Bool) :=
  l.foldl (fun seen a ↦ seen ++ [(a, decide (a ∈ seen.map Prod.fst))]) []

@[simp] theorem map_fst_marked (l : List α) : (marked l).map Prod.fst = l := by
  induction l using List.reverseRecOn with
  | nil => rfl
  | append_singleton l a ih =>
    rw [marked, foldl_append]
    change (marked l ++ [(a, _)]).map Prod.fst = _
    rw [map_append, ih]
    rfl

theorem marked_concat (l : List α) (a : α) :
    marked (l ++ [a]) = marked l ++ [(a, decide (a ∈ l))] := by
  rw [marked, foldl_append]
  change marked l ++ [(a, decide (a ∈ (marked l).map Prod.fst))] = _
  rw [map_fst_marked]

@[simp] theorem length_marked (l : List α) : (marked l).length = l.length := by
  rw [← length_map Prod.fst, map_fst_marked]

/-- **The items that are marked as new are the first occurrences.** -/
theorem filter_marked (l : List α) : ((marked l).filter fun p ↦ !p.2).map Prod.fst = firsts l := by
  induction l using List.reverseRecOn with
  | nil => rfl
  | append_singleton l a ih =>
    rw [marked_concat, filter_append, map_append, ih, firsts_concat]
    by_cases h : a ∈ l <;> simp [h]

/-- A mark says whether the item stands further up. -/
theorem mark_eq {l : List α} {i : Nat} {a : α} {b : Bool} (h : (marked l)[i]? = some (a, b)) :
    b = decide (a ∈ l.take i) := by
  induction l using List.reverseRecOn with
  | nil => cases h
  | append_singleton l c ih =>
    rw [marked_concat] at h
    rcases Nat.lt_or_ge i l.length with hi | hi
    · rw [getElem?_append_left (by rw [length_marked]; exact hi)] at h
      rw [take_append_of_le_length (Nat.le_of_lt hi)]
      exact ih h
    · rw [getElem?_append_right (by rw [length_marked]; exact hi), length_marked,
        getElem?_singleton] at h
      split at h
      next hzero =>
        cases h
        rw [show i = l.length by omega, take_left]
      · cases h

/-! ## Admissible streams -/

/-- Every item is a repetition, or has a greater number than any before it and a new key. -/
inductive Admissible (number : α → Nat) (key : α → κ) : List α → Prop
  | nil : Admissible number key []
  | again {l : List α} {a : α} (h : Admissible number key l) (ha : a ∈ l) :
      Admissible number key (l ++ [a])
  | fresh {l : List α} {a : α} (h : Admissible number key l) (hn : ∀ x ∈ l, number x < number a)
      (hk : ∀ x ∈ l, key x ≠ key a) : Admissible number key (l ++ [a])

namespace Admissible

variable {number : α → Nat} {key : α → κ} {l m : List α} {a : α}

omit [DecidableEq α] in
theorem of_concat (h : Admissible number key (l ++ [a])) : Admissible number key l ∧
    (a ∈ l ∨ (∀ x ∈ l, number x < number a) ∧ ∀ x ∈ l, key x ≠ key a) := by
  generalize hl : l ++ [a] = l' at h
  cases h with
  | nil => simp at hl
  | again h ha =>
    obtain ⟨rfl, hb⟩ := append_inj' hl rfl
    cases hb
    exact ⟨h, Or.inl ha⟩
  | fresh h hn hk =>
    obtain ⟨rfl, hb⟩ := append_inj' hl rfl
    cases hb
    exact ⟨h, Or.inr ⟨hn, hk⟩⟩

omit [DecidableEq α] in
theorem of_append (h : Admissible number key (l ++ m)) : Admissible number key l := by
  induction m using List.reverseRecOn with
  | nil => rwa [append_nil] at h
  | append_singleton m b ih =>
    rw [← append_assoc] at h
    exact ih h.of_concat.1

/-- The numbers of the first occurrences are in order. -/
theorem sorted (h : Admissible number key l) :
    (firsts l).Pairwise fun a b ↦ number a < number b := by
  induction h with
  | nil => exact List.Pairwise.nil
  | again h ha => rwa [firsts_concat, if_pos (mem_firsts.2 ha)]
  | fresh h hn hk ih =>
    rw [firsts_concat]
    split
    · exact ih
    · refine pairwise_append.2 ⟨ih, pairwise_singleton _ _, fun x hx y hy ↦ ?_⟩
      rw [mem_singleton.1 hy]
      exact hn x (mem_firsts.1 hx)

/-- No two first occurrences have the same key. -/
theorem nodup_keys (h : Admissible number key l) : ((firsts l).map key).Nodup := by
  induction h with
  | nil => exact nodup_nil
  | again h ha => rwa [firsts_concat, if_pos (mem_firsts.2 ha)]
  | @fresh l a h hn hk ih =>
    rw [firsts_concat]
    split
    · exact ih
    · rw [map_append]
      refine nodup_append.2 ⟨ih, nodup_singleton _, fun k hk' k' hk'' heq ↦ ?_⟩
      obtain ⟨x, hx, rfl⟩ := mem_map.1 hk'
      rw [map_singleton, mem_singleton] at hk''
      exact hk x (mem_firsts.1 hx) (heq.trans hk'')

theorem nodup_numbers (h : Admissible number key l) : ((firsts l).map number).Nodup :=
  (pairwise_map.2 h.sorted).imp fun hlt ↦ Nat.ne_of_lt hlt

end Admissible

end Py
