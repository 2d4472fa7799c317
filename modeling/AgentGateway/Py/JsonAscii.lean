import AgentGateway.Py.JsonRoundTrip

/-!
# JSON in ASCII

`json.dumps` with `ensure_ascii=True` writes every character beyond ASCII as the escapes of its
UTF-16 units.  A lone surrogate has such an escape too, so no string makes it raise.  But two
surrogates that happen to stand next to each other are written like one character, and are read
as that character.

* `scanString_escapeAscii`: a string is read back with its surrogate pairs joined.
* `loads_asciiText`: a value none of whose strings holds such a pair is read back.
-/

open List

namespace Py

/-! ## Strings -/

/-- `\uXXXX` -/
def hexEscape (n : Nat) : List Char :=
  ['\\', 'u', Nat.digitChar (n / 4096), Nat.digitChar (n / 256 % 16), Nat.digitChar (n / 16 % 16),
    Nat.digitChar (n % 16)]

namespace CodePoint

/-- The UTF-16 units of a code point. -/
def units : CodePoint → Str
  | .scalar c =>
    if c.toNat < 0x10000 then [.scalar c]
    else [.surrogate (Fin.ofNat 2048 ((c.toNat - 0x10000) / 1024)),
      .surrogate (Fin.ofNat 2048 (1024 + (c.toNat - 0x10000) % 1024))]
  | .surrogate n => [.surrogate n]

/-- The escape of a code point, with `ensure_ascii=True`. -/
def escapeAscii : CodePoint → List Char
  | .scalar c =>
    if c.toNat ≤ 0x7e then escapeChar c else (units (.scalar c)).flatMap fun p ↦ hexEscape p.ord
  | .surrogate n => hexEscape (0xD800 + n.val)

end CodePoint

/-- The text between the quotes, with `ensure_ascii=True`. -/
def escapeAscii (s : Str) : List Char := s.flatMap CodePoint.escapeAscii

/-- Four hexadecimal digits are read as the code point they name. -/
theorem scanStringRaw_hexEscape {p : CodePoint} (hp : p.ord < 0x10000) (r : List Char) :
    scanStringRaw (hexEscape p.ord ++ r) = (scanStringRaw r).map fun q ↦ (p :: q.1, q.2) := by
  have hhex : hex4 (Nat.digitChar (p.ord / 4096)) (Nat.digitChar (p.ord / 256 % 16))
      (Nat.digitChar (p.ord / 16 % 16)) (Nat.digitChar (p.ord % 16)) = some p := by
    have hsum : ((p.ord / 4096 * 16 + p.ord / 256 % 16) * 16 + p.ord / 16 % 16) * 16 + p.ord % 16 =
        p.ord := by omega
    rw [hex4, hexVal_digitChar (by omega), hexVal_digitChar (by omega),
      hexVal_digitChar (by omega), hexVal_digitChar (by omega)]
    simp only [Option.bind_eq_bind, Option.bind_some, hsum]
    cases p with
    | scalar c =>
      have hord : (CodePoint.scalar c).ord = c.toNat := rfl
      have := CodePoint.toNat_not_surrogate c
      rw [dif_neg (by omega), hord, Char.ofNat_toNat]
    | surrogate n =>
      have hord : (CodePoint.surrogate n).ord = 0xD800 + n.val := rfl
      rw [dif_pos ⟨by omega, by omega⟩]
      have hn : (⟨(CodePoint.surrogate n).ord - 0xD800, by omega⟩ : Fin 2048) = n :=
        Fin.ext (by dsimp only; omega)
      rw [hn]
  rw [hexEscape]
  simp only [cons_append, nil_append, scanStringRaw, hhex, Option.bind_eq_bind,
    Option.bind_some]
  cases scanStringRaw r <;> rfl

theorem scanStringRaw_hexEscapes {s : Str} (hs : ∀ p ∈ s, p.ord < 0x10000) (r : List Char) :
    scanStringRaw ((s.flatMap fun p ↦ hexEscape p.ord) ++ r) =
      (scanStringRaw r).map fun q ↦ (s ++ q.1, q.2) := by
  induction s with
  | nil =>
    rw [flatMap_nil, nil_append]
    cases scanStringRaw r <;> rfl
  | cons p s ih =>
    rw [flatMap_cons, append_assoc, scanStringRaw_hexEscape (hs p (by simp)),
      ih fun q hq ↦ hs q (mem_cons_of_mem _ hq)]
    cases scanStringRaw r <;> rfl

theorem CodePoint.ord_units_lt {p q : CodePoint} (h : q ∈ p.units) : q.ord < 0x10000 := by
  cases p with
  | scalar c =>
    by_cases hc : c.toNat < 0x10000
    · rw [units, if_pos hc, mem_singleton] at h
      rw [h]
      exact hc
    · rw [units, if_neg hc, mem_pair] at h
      rcases h with rfl | rfl
      · simp only [ord]
        omega
      · simp only [ord]
        omega
  | surrogate =>
    rw [units, mem_singleton] at h
    rw [h]
    simp only [ord]
    omega

/-- The escape of a code point is read as its units. -/
theorem scanStringRaw_escapeAscii (p : CodePoint) (r : List Char) :
    scanStringRaw (p.escapeAscii ++ r) = (scanStringRaw r).map fun q ↦ (p.units ++ q.1, q.2) := by
  cases p with
  | scalar c =>
    rw [CodePoint.escapeAscii]
    by_cases hc : c.toNat ≤ 0x7e
    · rw [if_pos hc, scanStringRaw_escapeChar, CodePoint.units, if_pos (by omega)]
      rfl
    · rw [if_neg hc, scanStringRaw_hexEscapes fun q hq ↦ CodePoint.ord_units_lt hq]
  | surrogate n =>
    exact scanStringRaw_hexEscape (p := .surrogate n) (by simp only [CodePoint.ord]; omega) r

theorem scanStringRaw_escapeAscii_append (s : Str) (r : List Char) :
    scanStringRaw (escapeAscii s ++ '"' :: r) = some (s.flatMap CodePoint.units, r) := by
  induction s with
  | nil => rfl
  | cons p s ih =>
    rw [escapeAscii, flatMap_cons, append_assoc, scanStringRaw_escapeAscii]
    rw [escapeAscii] at ih
    rw [ih]
    rfl

/-- Units that make up one character are joined to it again. -/
theorem joinSurrogates_units_append {c : Char} (hc : ¬ c.toNat < 0x10000) (s : Str) :
    joinSurrogates (CodePoint.units (.scalar c) ++ s) = .scalar c :: joinSurrogates s := by
  have hmax : c.toNat < 0x110000 := by
    have h := c.valid
    have : c.toNat = c.val.toNat := rfl
    omega
  have hhigh : (Fin.ofNat 2048 ((c.toNat - 0x10000) / 1024)).val = (c.toNat - 0x10000) / 1024 :=
    Nat.mod_eq_of_lt (by omega)
  have hlow : (Fin.ofNat 2048 (1024 + (c.toNat - 0x10000) % 1024)).val =
      1024 + (c.toNat - 0x10000) % 1024 := Nat.mod_eq_of_lt (by omega)
  have hsum : 0x10000 + (c.toNat - 0x10000) / 1024 * 1024 +
      (1024 + (c.toNat - 0x10000) % 1024 - 1024) = c.toNat := by omega
  rw [CodePoint.units, if_neg hc]
  simp only [cons_append, nil_append]
  rw [joinSurrogates, hhigh, hlow, if_pos ⟨by omega, by omega⟩, hsum, Char.ofNat_toNat]

/-- A surrogate with no low surrogate after it stands for itself. -/
theorem joinSurrogates_surrogate_cons {m : Fin 2048} {s : Str}
    (h : ∀ n s', s = .surrogate n :: s' → n.val < 1024) :
    joinSurrogates (.surrogate m :: s) = .surrogate m :: joinSurrogates s := by
  cases s with
  | nil => rfl
  | cons p s =>
    cases p with
    | scalar => rfl
    | surrogate n =>
      have := h n s rfl
      rw [joinSurrogates, if_neg (by omega)]

/-- Cutting the characters beyond the first plane into units is undone by joining. -/
theorem joinSurrogates_flatMap_units (s : Str) :
    joinSurrogates (s.flatMap CodePoint.units) = joinSurrogates s := by
  fun_induction joinSurrogates s with
  | case1 m n s hpair ih =>
    simp only [flatMap_cons, CodePoint.units, cons_append, nil_append]
    rw [joinSurrogates, if_pos hpair, ih]
  | case2 m n s hpair ih =>
    simp only [flatMap_cons, CodePoint.units, cons_append, nil_append] at ih ⊢
    rw [joinSurrogates, if_neg hpair, ih]
  | case3 p s hnext ih =>
    rw [flatMap_cons]
    cases p with
    | scalar c =>
      by_cases hc : c.toNat < 0x10000
      · rw [CodePoint.units, if_pos hc, singleton_append, joinSurrogates, ih]
        simp
      · rw [joinSurrogates_units_append hc, ih]
    | surrogate m =>
      rw [CodePoint.units, singleton_append, joinSurrogates_surrogate_cons, ih]
      intro n s' hs'
      cases s with
      | nil => cases hs'
      | cons q s =>
        cases q with
        | surrogate k => exact absurd rfl (hnext m k s rfl)
        | scalar c =>
          rw [flatMap_cons, CodePoint.units] at hs'
          split at hs'
          · cases hs'
          next hc =>
            cases hs'
            have h := c.valid
            have : c.toNat = c.val.toNat := rfl
            exact (Nat.mod_lt_of_lt (by omega))
  | case4 => rfl

theorem scanString_escapeAscii (s : Str) (r : List Char) :
    scanString (escapeAscii s ++ '"' :: r) = some (joinSurrogates s, r) := by
  rw [scanString, scanStringRaw_escapeAscii_append, Option.map_some, joinSurrogates_flatMap_units]

/-! ## Values -/

/-- No low surrogate follows a high one. -/
def noSurrogatePair (s : Str) : Bool := decide (joinSurrogates s = s)

theorem stringsReadBack_escapeAscii : StringsReadBack escapeAscii noSurrogatePair := by
  intro s hs r
  rw [scanString_escapeAscii, of_decide_eq_true hs]

variable {F : Type} [PyFloat F]

namespace Json

/-- `json.dumps(v, sort_keys=True, separators=(",", ":"), ensure_ascii=True)` -/
def asciiText (v : Json F) : List Char := v.sortKeys.render (compact Py.escapeAscii) 0

end Json

/-- **A value without surrogate pairs is read back from its ASCII text**, its keys in order. -/
theorem loads_asciiText {ε : Type} {hooks : LoadsHooks F ε} (hh : KeepsDistinct hooks) {v : Json F}
    (henc : v.encodableWith noSurrogatePair = true) (hu : v.UniqueKeys) :
    loads hooks v.asciiText = .ok v.sortKeys := by
  refine loads_compact hh stringsReadBack_escapeAscii ?_ ((Json.uniqueKeys_sortKeys v).2 hu)
  exact (Json.every_sortKeys ..).trans henc

end Py
