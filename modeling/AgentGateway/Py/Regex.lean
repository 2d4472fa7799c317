import AgentGateway.Py.Text

/-!
# Regular expressions with backtracking

The part of Python's `re` that a redaction filter needs: character classes, greedy and lazy
repetition of a class, word boundaries, concatenation and alternation.  A `Cursor` is a position in
the text, with the character before it; `Regex.ends` lists the cursors at which a match that starts
at a cursor may end, in the order a backtracking matcher tries them, so that its first element is
the match Python reports.

* `Regex.sub` is `pattern.sub(repl, text)` for a pattern that does not match the empty text: the
  leftmost matches, one after the other, are replaced.
* `Regex.Needs`: every match takes a character of some class.  A text without such a character is
  left alone (`Needs.sub_eq_self`).

What `\w` and `\d` say of characters beyond ASCII is a table of the interpreter, `CharTables`.
-/

open List

namespace Py

/-! ## Character classes -/

/-- What the interpreter's tables say of the characters beyond ASCII. -/
structure CharTables where
  /-- `\w` -/
  isWord : CodePoint → Bool
  /-- `\d` -/
  isDecimal : CodePoint → Bool

namespace CodePoint

/-- Is the code point in the range `[first-last]`? -/
def between (first last : Char) (p : CodePoint) : Bool :=
  decide (first.toNat ≤ p.ord) && decide (p.ord ≤ last.toNat)

/-- `[0-9]` -/
def isDigit : CodePoint → Bool := between '0' '9'

/-- `[A-Za-z0-9]` -/
def isAlnum (p : CodePoint) : Bool := between 'A' 'Z' p || between 'a' 'z' p || isDigit p

/-- Is the code point one of the characters of the text? -/
def oneOf (chars : String) (p : CodePoint) : Bool := (Str.lit chars).contains p

/-- `\w` -/
def isWord (tables : CharTables) (p : CodePoint) : Bool :=
  if p.ord < 128 then isAlnum p || oneOf "_" p else tables.isWord p

/-- `\d` -/
def isDecimal (tables : CharTables) (p : CodePoint) : Bool :=
  if p.ord < 128 then isDigit p else tables.isDecimal p

end CodePoint

/-! ## Matching -/

/-- A position in a text: the character before it and the text after it. -/
structure Cursor where
  prev : Option CodePoint
  rest : Str

/-- The cursor `n` characters further on. -/
def Cursor.advance (c : Cursor) (n : Nat) : Cursor :=
  ⟨(c.rest.take n).getLast?.or c.prev, c.rest.drop n⟩

/-- A pattern. -/
inductive Regex where
  /-- the empty pattern -/
  | eps
  /-- one character of a class -/
  | one (p : CodePoint → Bool)
  /-- at least so many characters of a class, as many as possible if greedy, else as few -/
  | many (p : CodePoint → Bool) (least : Nat) (greedy : Bool)
  /-- `\b` -/
  | boundary (isWord : CodePoint → Bool)
  | seq (r s : Regex)
  | alt (r s : Regex)

namespace Regex

/-- The characters of a text, one after the other. -/
def text : Str → Regex
  | [] => eps
  | p :: s => seq (one (· == p)) (text s)

/-- The concatenation of patterns. -/
def sequence (rs : List Regex) : Regex := rs.foldr seq eps

/-- `r?` -/
def opt (r : Regex) : Regex := alt r eps

/-- The ends of the matches that start at a cursor, in the order the matcher tries them. -/
def ends : Regex → Cursor → List Cursor
  | eps, c => [c]
  | one p, c =>
    match c.rest with
    | [] => []
    | q :: rest => if p q then [⟨some q, rest⟩] else []
  | many p least greedy, c =>
    let counts := (List.range ((c.rest.takeWhile p).length + 1)).filter (least ≤ ·)
    (if greedy then counts.reverse else counts).map c.advance
  | boundary isWord, c =>
    if (c.prev.any isWord) != (c.rest.head?.any isWord) then [c] else []
  | seq r s, c => (r.ends c).flatMap s.ends
  | alt r s, c => r.ends c ++ s.ends c

/-- Substitution from a cursor on; every turn leaves at least one character behind. -/
def subFrom (r : Regex) (repl : Str) : Nat → Cursor → Str
  | 0, c => c.rest
  | fuel + 1, c =>
    match c.rest with
    | [] => []
    | p :: rest =>
      match (r.ends c).head? with
      | some c' =>
        if c'.rest.length < c.rest.length then repl ++ subFrom r repl fuel c'
        else p :: subFrom r repl fuel ⟨some p, rest⟩
      | none => p :: subFrom r repl fuel ⟨some p, rest⟩

/-- `pattern.sub(repl, text)` -/
def sub (r : Regex) (repl s : Str) : Str := r.subFrom repl s.length ⟨none, s⟩

/-! ## Characters a match takes -/

/-- A match ends somewhere in the text that was left where it started. -/
theorem rest_suffix_of_mem_ends {r : Regex} {c c' : Cursor} (h : c' ∈ r.ends c) :
    c'.rest <:+ c.rest := by
  induction r generalizing c c' with
  | eps => exact mem_singleton.1 h ▸ suffix_refl _
  | one =>
    unfold ends at h
    split at h
    · cases h
    next q rest hrest =>
      split at h
      · rw [mem_singleton.1 h, hrest]
        exact suffix_cons q rest
      · cases h
  | many =>
    obtain ⟨n, -, rfl⟩ := mem_map.1 h
    exact drop_suffix n c.rest
  | boundary =>
    unfold ends at h
    split at h
    · exact mem_singleton.1 h ▸ suffix_refl _
    · cases h
  | seq r s hr hs =>
    obtain ⟨d, hd, hc'⟩ := mem_flatMap.1 h
    exact (hs hc').trans (hr hd)
  | alt r s hr hs =>
    rcases mem_append.1 h with h | h
    · exact hr h
    · exact hs h

/-- Every match takes a character of the class. -/
def Needs (r : Regex) (q : CodePoint → Prop) : Prop :=
  ∀ c c', c' ∈ r.ends c → ∃ p ∈ c.rest, q p

namespace Needs

variable {r s : Regex} {q : CodePoint → Prop}

theorem one {p : CodePoint → Bool} (h : ∀ x, p x = true → q x) : Needs (.one p) q := by
  intro c c' hc'
  unfold ends at hc'
  split at hc'
  · cases hc'
  next x rest hrest =>
    split at hc'
    next hx => exact ⟨x, hrest ▸ mem_cons_self, h x hx⟩
    · cases hc'

theorem many {p : CodePoint → Bool} {least : Nat} {greedy : Bool} (hleast : 0 < least)
    (h : ∀ x, p x = true → q x) : Needs (.many p least greedy) q := by
  intro c c' hc'
  obtain ⟨n, hn, -⟩ := mem_map.1 hc'
  have hn : n < (c.rest.takeWhile p).length + 1 ∧ least ≤ n := by
    cases greedy <;> simpa using hn
  obtain ⟨x, hx⟩ := exists_mem_of_length_pos (l := c.rest.takeWhile p) (by omega)
  exact ⟨x, (takeWhile_sublist p).subset hx, h x (all_eq_true.1 all_takeWhile x hx)⟩

theorem seq_left (h : Needs r q) : Needs (.seq r s) q := by
  intro c c' hc'
  obtain ⟨d, hd, -⟩ := mem_flatMap.1 hc'
  exact h c d hd

theorem seq_right (h : Needs s q) : Needs (.seq r s) q := by
  intro c c' hc'
  obtain ⟨d, hd, hc'⟩ := mem_flatMap.1 hc'
  obtain ⟨p, hp, hq⟩ := h d c' hc'
  exact ⟨p, (rest_suffix_of_mem_ends hd).subset hp, hq⟩

/-- A concatenation needs what one of its parts needs. -/
theorem sequence {rs : List Regex} (hr : r ∈ rs) (h : Needs r q) : Needs (sequence rs) q := by
  induction rs with
  | nil => cases hr
  | cons s rs ih =>
    rcases mem_cons.1 hr with rfl | hr
    · exact seq_left h
    · exact seq_right (ih hr)

theorem text {t : Str} {p : CodePoint} (hp : p ∈ t) (hq : q p) : Needs (text t) q := by
  induction t with
  | nil => cases hp
  | cons p' t ih =>
    rcases mem_cons.1 hp with rfl | hp
    · exact seq_left (one fun x hx ↦ beq_iff_eq.1 hx ▸ hq)
    · exact seq_right (ih hp)

theorem subFrom_eq_rest (h : Needs r q) (repl : Str) (fuel : Nat) (c : Cursor)
    (hc : ∀ p ∈ c.rest, ¬ q p) : r.subFrom repl fuel c = c.rest := by
  induction fuel generalizing c with
  | zero => rfl
  | succ fuel ih =>
    have hnil : r.ends c = [] := eq_nil_iff_forall_not_mem.2 fun c' hc' ↦ by
      obtain ⟨p, hp, hq⟩ := h c c' hc'
      exact hc p hp hq
    unfold subFrom
    split
    next hrest => exact hrest.symm
    next p rest hrest =>
      rw [hnil, head?_nil]
      rw [ih ⟨some p, rest⟩ fun p' hp' ↦ hc p' (hrest ▸ mem_cons_of_mem p hp'), hrest]

/-- **A text without a character the pattern needs is left alone.** -/
theorem sub_eq_self (h : Needs r q) (repl : Str) {t : Str} (ht : ∀ p ∈ t, ¬ q p) :
    r.sub repl t = t :=
  h.subFrom_eq_rest repl t.length ⟨none, t⟩ ht

end Needs

end Regex

end Py
