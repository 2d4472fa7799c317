import AgentGateway.Py.Regex

/-!
# Replacing parts of a text by a marker

`Replaces m s t` says that `t` comes from `s` by replacing some parts of it, which do not overlap,
by the marker `m`.  A word that is apart from the marker, so that it has neither the first nor the
last character of it and is no part of it, is in `t` only where it was in `s`
(`Replaces.isInfix_source`): a word cannot lie across the end of a marker.

A substitution replaces parts of a text (`Regex.replaces_sub`), and one that looks for a word leaves
no occurrence of it (`Regex.not_infix_sub_text`).
-/

open List

namespace Py

section Replaces

variable {α : Type} {m s t w : List α}

/-- Some parts of the text are replaced by the marker. -/
inductive Replaces (m : List α) : List α → List α → Prop
  | nil : Replaces m [] []
  | keep (a : α) {s t : List α} (h : Replaces m s t) : Replaces m (a :: s) (a :: t)
  | cut (u : List α) {s t : List α} (h : Replaces m s t) : Replaces m (u ++ s) (m ++ t)

/-- The word has neither the first nor the last character of the marker, and is no part of it. -/
structure Apart (m w : List α) : Prop where
  ne_nil : w ≠ []
  first : ∃ a ∈ m.head?, a ∉ w
  last : ∃ a ∈ m.getLast?, a ∉ w
  notPart : ¬ w <:+: m

theorem Replaces.refl (m s : List α) : Replaces m s s := by
  induction s with
  | nil => exact .nil
  | cons a s ih => exact .keep a ih

/-- A word in a concatenation is in one of the two parts, or lies across the end of the first. -/
theorem infix_append_cases (h : w <:+: m ++ t) :
    w <:+: m ∨ w <:+: t ∨ ∃ a ∈ m.getLast?, a ∈ w := by
  obtain ⟨p, q, heq⟩ := h
  rw [append_assoc] at heq
  rcases append_eq_append_iff.1 heq with ⟨a, rfl, hwq⟩ | ⟨c, -, rfl⟩
  · rcases append_eq_append_iff.1 hwq with ⟨b, rfl, -⟩ | ⟨c, rfl, rfl⟩
    · exact .inl ⟨p, b, by rw [append_assoc]⟩
    · by_cases ha : a = []
      · subst ha
        exact .inr (.inl (prefix_append c q).isInfix)
      · have hlast : a.getLast ha ∈ (p ++ a).getLast? := by
          rw [getLast?_append_of_ne_nil p ha]
          exact getLast?_eq_some_getLast ha
        exact .inr (.inr ⟨_, hlast, mem_append_left c (getLast_mem ha)⟩)
  · exact .inr (.inl ⟨c, q, by rw [append_assoc]⟩)

/-- A word at the start of the result was at the start of the text. -/
theorem Replaces.isPrefix_source (h : Replaces m s t) (hfirst : ∃ a ∈ m.head?, a ∉ w)
    (hw : w <+: t) : w <+: s := by
  induction h generalizing w with
  | nil => exact hw
  | keep a h ih =>
    cases w with
    | nil => exact nil_prefix
    | cons =>
      obtain ⟨rfl, htail⟩ := cons_prefix_cons.1 hw
      obtain ⟨c, hc, hnot⟩ := hfirst
      exact cons_prefix_cons.2
        ⟨rfl, ih ⟨c, hc, fun hmem ↦ hnot (mem_cons_of_mem _ hmem)⟩ htail⟩
  | cut =>
    cases w with
    | nil => exact nil_prefix
    | cons b =>
      obtain ⟨c, hc, hnot⟩ := hfirst
      cases m with
      | nil => cases hc
      | cons =>
        obtain ⟨rfl, -⟩ := cons_prefix_cons.1 hw
        obtain rfl : b = c := Option.some.inj hc
        exact absurd mem_cons_self hnot

/-- A result without the first character of the marker is the text itself. -/
theorem Replaces.eq_source (h : Replaces m s t) (hfirst : ∃ a ∈ m.head?, a ∉ t) : t = s := by
  obtain ⟨a, ha, hnot⟩ := hfirst
  induction h with
  | nil => rfl
  | keep b h ih => rw [ih fun hmem ↦ hnot (mem_cons_of_mem b hmem)]
  | cut => exact absurd (mem_append_left _ (mem_of_mem_head? ha)) hnot

section Folds

variable {β : Type} {f : List α → β → List α} {P : List α → Prop}

theorem of_foldl_replaces (hP : ∀ s t, Replaces m s t → P s → P t) {l : List β}
    (hf : ∀ x ∈ l, ∀ s, Replaces m s (f s x)) (hs : P s) : P (l.foldl f s) := by
  induction l generalizing s with
  | nil => exact hs
  | cons x l ih =>
    exact ih (fun y hy ↦ hf y (mem_cons_of_mem x hy)) (hP _ _ (hf x mem_cons_self s) hs)

/-- What the replacement for `x` brings about, and no other one undoes, holds in the end. -/
theorem of_mem_foldl_replaces (hP : ∀ s t, Replaces m s t → P s → P t) {l : List β}
    (hf : ∀ x ∈ l, ∀ s, Replaces m s (f s x)) {x : β} (hmem : x ∈ l) (hx : ∀ s, P (f s x)) :
    P (l.foldl f s) := by
  induction l generalizing s with
  | nil => cases hmem
  | cons y l ih =>
    have hlater : ∀ x ∈ l, ∀ s, Replaces m s (f s x) := fun x hx ↦ hf x (mem_cons_of_mem y hx)
    rw [foldl_cons]
    rcases mem_cons.1 hmem with rfl | hmem
    · exact of_foldl_replaces hP hlater (hx s)
    · exact ih hlater hmem

end Folds

/-- **What is apart from the marker is in the result only where it was in the text.** -/
theorem Replaces.isInfix_source (h : Replaces m s t) (hw : Apart m w) (hin : w <:+: t) :
    w <:+: s := by
  induction h with
  | nil => exact hin
  | keep a h ih =>
    rcases infix_cons_iff.1 hin with hpre | hin
    · exact ((Replaces.keep a h).isPrefix_source hw.first hpre).isInfix
    · exact infix_cons (ih hin)
  | cut u h ih =>
    rcases infix_append_cases hin with hin | hin | ⟨a, ha, hmem⟩
    · exact absurd hin hw.notPart
    · exact infix_append_of_infix_right (ih hin)
    · obtain ⟨b, hb, hnot⟩ := hw.last
      rw [Option.mem_unique ha hb] at hmem
      exact absurd hmem hnot

end Replaces

namespace Regex

/-! ## Substitutions -/

theorem replaces_subFrom (r : Regex) (repl : Str) (fuel : Nat) (c : Cursor) :
    Replaces repl c.rest (r.subFrom repl fuel c) := by
  induction fuel generalizing c with
  | zero => exact .refl _ _
  | succ fuel ih =>
    unfold subFrom
    split
    next h => rw [h]; exact .nil
    next p rest h =>
      have hskip : Replaces repl c.rest (p :: r.subFrom repl fuel ⟨some p, rest⟩) := by
        rw [h]
        exact .keep p (ih ⟨some p, rest⟩)
      split
      next c' hc' =>
        split
        · obtain ⟨u, hu⟩ := rest_suffix_of_mem_ends (mem_of_mem_head? hc')
          rw [← hu]
          exact .cut u (ih c')
        · exact hskip
      · exact hskip

theorem replaces_sub (r : Regex) (repl s : Str) : Replaces repl s (r.sub repl s) :=
  r.replaces_subFrom repl s.length ⟨none, s⟩

/-- A word matches where it stands, and nowhere else. -/
theorem ends_text (w : Str) (c : Cursor) : (∀ c' ∈ (text w).ends c, c.rest = w ++ c'.rest) ∧
      (w <+: c.rest → ∃ c', (text w).ends c = [c']) := by
  induction w generalizing c with
  | nil => exact ⟨fun c' hc' ↦ by rw [mem_singleton.1 hc', nil_append], fun _ ↦ ⟨c, rfl⟩⟩
  | cons p w ih =>
    obtain ⟨prev, rest⟩ := c
    cases rest with
    | nil => exact ⟨nofun, fun h ↦ absurd (prefix_nil.1 h) (cons_ne_nil p w)⟩
    | cons q rest =>
      by_cases hpq : q = p
      · subst hpq
        have hends : (text (q :: w)).ends ⟨prev, q :: rest⟩ = (text w).ends ⟨some q, rest⟩ := by
          simp [text, ends]
        rw [hends]
        obtain ⟨hrest, hends⟩ := ih ⟨some q, rest⟩
        exact ⟨fun c' hc' ↦ congrArg (q :: ·) (hrest c' hc'),
          fun h ↦ hends (cons_prefix_cons.1 h).2⟩
      · have hends : (text (p :: w)).ends ⟨prev, q :: rest⟩ = [] := by
          simp [text, ends, hpq]
        rw [hends]
        exact ⟨nofun, fun h ↦ absurd (cons_prefix_cons.1 h).1.symm hpq⟩

theorem not_infix_subFrom_text {w repl : Str} (hw : Apart repl w) (fuel : Nat) (c : Cursor)
    (hfuel : c.rest.length ≤ fuel) : ¬ w <:+: (text w).subFrom repl fuel c := by
  induction fuel generalizing c with
  | zero =>
    rw [subFrom, length_eq_zero_iff.1 (Nat.le_zero.1 hfuel)]
    exact fun h ↦ hw.ne_nil (infix_nil.1 h)
  | succ fuel ih =>
    obtain ⟨hrest, hends⟩ := ends_text w c
    unfold subFrom
    split
    · exact fun h ↦ hw.ne_nil (infix_nil.1 h)
    next p rest h =>
      rw [h, length_cons] at hfuel
      split
      next c' hc' =>
        have heq := hrest c' (mem_of_mem_head? hc')
        have hlen : c'.rest.length < c.rest.length := by
          have := length_pos_iff.2 hw.ne_nil
          rw [heq, length_append]
          omega
        rw [if_pos hlen]
        intro hin
        rcases infix_append_cases hin with hin | hin | ⟨a, ha, hmem⟩
        · exact hw.notPart hin
        · refine ih c' ?_ hin
          rw [h, length_cons] at hlen
          omega
        · obtain ⟨b, hb, hnot⟩ := hw.last
          rw [Option.mem_unique ha hb] at hmem
          exact hnot hmem
      next hnone =>
        intro hin
        rcases infix_cons_iff.1 hin with hpre | hin
        · -- the word would stand at the cursor, where it did not match
          have hkeep : Replaces repl c.rest (p :: (text w).subFrom repl fuel ⟨some p, rest⟩) := by
            rw [h]
            exact .keep p (replaces_subFrom _ repl fuel ⟨some p, rest⟩)
          obtain ⟨c', hc'⟩ := hends (hkeep.isPrefix_source hw.first hpre)
          rw [hc'] at hnone
          cases hnone
        · exact ih ⟨some p, rest⟩ (by simpa using hfuel) hin

/-- **A substitution that looks for a word leaves no occurrence of it.** -/
theorem not_infix_sub_text {w repl : Str} (hw : Apart repl w) (s : Str) :
    ¬ w <:+: (text w).sub repl s :=
  not_infix_subFrom_text hw s.length ⟨none, s⟩ le_rfl

end Regex

end Py
