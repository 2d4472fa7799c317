import AgentGateway.Py.Json

/-!
# Reading back what was written

`loads_render`: a value with distinct keys that has a rendering is read back from it, whatever the
hooks do with a text that is no JSON, as long as the hook on objects lets distinct keys through.
The proof goes the way of the scanner:

* `scanString_escapeStr` for strings: each escape is undone, and there is no surrogate to join;
* `scanNumber_text` for numbers: a token is cut out again, given that what follows ends a value;
* `scanOnce_render` for values, by induction over the value, with the items of a list and the pairs
  of an object read by an inner induction.  It asks only that strings and floats are read back from
  their text and that there is nothing but whitespace between the tokens, so it holds for every such
  style (`StyleReadsBack`); `loads_compact` is the case of the compact one.

Sorting the keys changes neither whether a value has a rendering nor whether its keys are
distinct, so decoding the bytes of `dumps v` gives back `v` up to the order of keys (`loads_dumps`).
-/

open List

namespace Py

variable {F : Type}

/-! ## Strings -/

theorem hexVal_digitChar {n : Nat} (h : n < 16) : hexVal (Nat.digitChar n) = some n := by
  revert h
  revert n
  decide

/-- The characters with an escape of two characters. -/
def shortEscaped : List Char := ['"', '\\', '\n', '\r', '\t', '\x0c', '\x08']

/-- The three ways a character is written: a short escape, four hexadecimal digits, or as it is. -/
theorem escapeChar_cases (c : Char) :
    (c ∈ shortEscaped ∧ ∃ e, escapeChar c = ['\\', e] ∧ unescape e = some c ∧ e ≠ 'u' ∧
      e.utf8Size = 1) ∨
    (c ∉ shortEscaped ∧ c.toNat ≤ 0x1f ∧ escapeChar c =
      ['\\', 'u', '0', '0', Nat.digitChar (c.toNat / 16), Nat.digitChar (c.toNat % 16)]) ∨
    (c ∉ shortEscaped ∧ 0x1f < c.toNat ∧ escapeChar c = [c]) := by
  by_cases hmem : c ∈ shortEscaped
  · left
    refine ⟨hmem, ?_⟩
    simp only [shortEscaped, mem_cons, not_mem_nil, or_false] at hmem
    rcases hmem with rfl | rfl | rfl | rfl | rfl | rfl | rfl <;>
      exact ⟨_, rfl, rfl, by decide, rfl⟩
  · right
    have hne := hmem
    simp only [shortEscaped, mem_cons, not_mem_nil, or_false, not_or] at hne
    obtain ⟨hq, hb, hn, hr, ht, hf, hbs⟩ := hne
    rcases Nat.lt_or_ge 0x1f c.toNat with hctl | hctl
    · refine Or.inr ⟨hmem, hctl, ?_⟩
      simp only [escapeChar, hq, hb, hn, hr, ht, hf, hbs, Nat.not_le.2 hctl, if_false]
    · refine Or.inl ⟨hmem, hctl, ?_⟩
      simp only [escapeChar, hq, hb, hn, hr, ht, hf, hbs, hctl, if_true, if_false]

/-- An escaped character is read as that character. -/
theorem scanStringRaw_escapeChar (c : Char) (r : List Char) :
    scanStringRaw (escapeChar c ++ r) =
      (scanStringRaw r).map fun p ↦ (.scalar c :: p.1, p.2) := by
  have finish : ∀ q : Option (Str × List Char), q.bind (fun p ↦
      some ((.scalar c : CodePoint) :: p.1, p.2)) = q.map fun p ↦ (.scalar c :: p.1, p.2) := by
    intro q
    cases q <;> rfl
  obtain ⟨-, e, hesc, hun, hu, -⟩ | ⟨-, hctl, hesc⟩ | ⟨hmem, hctl, hesc⟩ := escapeChar_cases c
  · rw [hesc]
    simp only [cons_append, nil_append]
    rw [scanStringRaw, hun]
    · exact finish _
    · rintro a b c d r' rfl
      exact fun _ ↦ hu rfl
  · have h1 : c.toNat / 16 < 16 := by omega
    have h2 : c.toNat % 16 < 16 := by omega
    have hsum : (((0 * 16 + 0) * 16 + c.toNat / 16) * 16 + c.toNat % 16) = c.toNat := by omega
    have hhex : hex4 '0' '0' (Nat.digitChar (c.toNat / 16)) (Nat.digitChar (c.toNat % 16)) =
        some (.scalar c) := by
      have h0 : hexVal '0' = some 0 := by decide
      rw [hex4, h0, hexVal_digitChar h1, hexVal_digitChar h2]
      simp only [Option.bind_eq_bind, Option.bind_some, hsum]
      rw [dif_neg (by omega), Char.ofNat_toNat]
    rw [hesc]
    simp only [cons_append, nil_append, scanStringRaw, hhex, Option.bind_eq_bind,
      Option.bind_some]
    exact finish _
  · have hq : c ≠ '"' := by rintro rfl; exact hmem (by decide)
    have hb : c ≠ '\\' := by rintro rfl; exact hmem (by decide)
    rw [hesc, singleton_append, scanStringRaw, if_neg (by omega)]
    · exact finish _
    all_goals simp_all

/-- The string is read up to its closing quote. -/
theorem scanStringRaw_escapeStr (s : Str) (hs : strEncodable s = true) (r : List Char) :
    scanStringRaw (escapeStr s ++ '"' :: r) = some (s, r) := by
  induction s with
  | nil => rfl
  | cons p s ih =>
    cases p with
    | surrogate => simp [strEncodable, Str.chars?] at hs
    | scalar =>
      have hs' : strEncodable s = true := by
        simpa [strEncodable, Str.chars?] using hs
      rw [escapeStr, append_assoc, scanStringRaw_escapeChar, ih hs']
      rfl

/-- A string without surrogates has none to join. -/
theorem joinSurrogates_of_strEncodable (s : Str) (hs : strEncodable s = true) :
    joinSurrogates s = s := by
  induction s with
  | nil => rfl
  | cons p s ih =>
    cases p with
    | surrogate => simp [strEncodable, Str.chars?] at hs
    | scalar =>
      have hs' : strEncodable s = true := by
        simpa [strEncodable, Str.chars?] using hs
      rw [joinSurrogates, ih hs']
      simp

theorem scanString_escapeStr (s : Str) (hs : strEncodable s = true) (r : List Char) :
    scanString (escapeStr s ++ '"' :: r) = some (s, r) := by
  rw [scanString, scanStringRaw_escapeStr s hs, Option.map_some,
    joinSurrogates_of_strEncodable s hs]

/-! ## Numbers -/

/-- What may follow a value: the end of the text, a comma, a closing bracket or whitespace. -/
def endsValue : List Char → Bool
  | [] => true
  | c :: _ => c = ',' || c = ']' || c = '}' || isWs c

/-- No digit stands at the head. -/
def noDigitHead (s : List Char) : Prop := ∀ c ∈ s.head?, c.isDigit = false

variable {r : List Char}

theorem noDigitHead_of_endsValue (h : endsValue r = true) : noDigitHead r := by
  intro c hc
  cases r with
  | nil => simp at hc
  | cons d =>
    obtain rfl : d = c := by simpa using hc
    simp only [endsValue, isWs, Bool.or_eq_true, decide_eq_true_eq] at h
    rcases h with ((rfl | rfl) | rfl) | ((rfl | rfl) | rfl) | rfl <;> rfl

variable {ds : List Char}

/-- A run of digits is cut off where it ends. -/
theorem span_digits (hds : ds.all Char.isDigit = true) (hr : noDigitHead r) :
    (ds ++ r).takeWhile Char.isDigit = ds ∧ (ds ++ r).dropWhile Char.isDigit = r := by
  have hall : ∀ c ∈ ds, c.isDigit = true := all_eq_true.1 hds
  rw [takeWhile_append_of_pos hall, dropWhile_append_of_pos hall]
  cases r with
  | nil => simp
  | cons c =>
    have hc : c.isDigit = false := hr c rfl
    simp [hc]

theorem scanInt_append (hds : isIntPart ds = true) (hr : noDigitHead r) :
    scanInt (ds ++ r) = some (ds, r) := by
  simp only [isIntPart, isDigits, Bool.and_eq_true, Bool.or_eq_true] at hds
  cases ds with
  | nil => simp at hds
  | cons d ds =>
    obtain ⟨⟨-, hall⟩, hzero⟩ := hds
    obtain ⟨hd, hall⟩ := by simpa [all_cons] using hall
    have hall : ds.all Char.isDigit = true := by simpa using hall
    rw [cons_append, scanInt]
    by_cases h0 : d = '0'
    · have hnil : ds = [] := by simpa [h0] using hzero
      rw [if_pos h0, h0, hnil]
      rfl
    · rw [if_neg h0, if_pos hd, (span_digits hall hr).1, (span_digits hall hr).2]

/-- The text of an exponent starts with its letter. -/
theorem Exponent.text_head {e : Exponent} (he : e.valid = true) :
    ∃ c r, e.text = c :: r ∧ (c = 'e' ∨ c = 'E') := by
  simp only [Exponent.valid, Bool.and_eq_true, Bool.or_eq_true, beq_iff_eq] at he
  exact ⟨e.marker, _, rfl, he.1.1⟩

theorem scanSign_append {sign : Option Char}
    (hsign : sign = none ∨ sign = some '+' ∨ sign = some '-') (hds : isDigits ds = true) :
    scanSign (sign.toList ++ ds ++ r) = (sign, ds ++ r) := by
  rcases hsign with rfl | rfl | rfl
  · cases ds with
    | nil => simp [isDigits] at hds
    | cons d =>
      have hd : d.isDigit = true := by
        simp only [isDigits, all_cons, Bool.and_eq_true] at hds
        exact hds.2.1
      simp only [Option.toList_none, nil_append, cons_append]
      rw [scanSign]
      · rintro r' h
        obtain ⟨rfl, -⟩ := List.cons.inj h
        exact absurd hd (by decide)
      · rintro r' h
        obtain ⟨rfl, -⟩ := List.cons.inj h
        exact absurd hd (by decide)
  · rfl
  · rfl

/-- An exponent that is there is cut out whole. -/
theorem scanExp_text {e : Exponent} (he : e.valid = true) (hr : noDigitHead r) :
    scanExp (e.text ++ r) = (some e, r) := by
  simp only [Exponent.valid, Bool.and_eq_true, Bool.or_eq_true, beq_iff_eq] at he
  obtain ⟨⟨hm, hs⟩, hd⟩ := he
  have hall : e.digits.all Char.isDigit = true := by
    simp only [isDigits, Bool.and_eq_true] at hd
    exact hd.2
  rw [Exponent.text, cons_append, scanExp, if_pos hm,
    scanSign_append (by simpa [or_assoc] using hs) hd]
  simp only [(span_digits hall hr).1, (span_digits hall hr).2]
  cases e with
  | mk marker sign digits =>
    cases digits with
    | nil => simp [isDigits] at hd
    | cons => rfl

theorem scanExp_of_endsValue (hr : endsValue r = true) :
    scanExp r = (none, r) := by
  cases r with
  | nil => rfl
  | cons =>
    rw [scanExp, if_neg]
    rintro (rfl | rfl) <;> simp [endsValue, isWs] at hr

/-- A fraction that is there is cut out whole. -/
theorem scanFrac_some (hds : isDigits ds = true) (hr : noDigitHead r) :
    scanFrac ('.' :: ds ++ r) = (some ds, r) := by
  cases ds with
  | nil => simp [isDigits] at hds
  | cons =>
    simp only [isDigits, all_cons, Bool.and_eq_true] at hds
    obtain ⟨-, hd, hall⟩ := hds
    simp only [cons_append]
    rw [scanFrac, if_pos hd, (span_digits hall hr).1, (span_digits hall hr).2]

theorem scanFrac_none (hr : ∀ c ∈ r.head?, c ≠ '.') :
    scanFrac r = (none, r) := by
  rw [scanFrac]
  rintro d r' rfl
  exact hr '.' rfl rfl

/-- What follows the digits of a number: its exponent and the end of the value. -/
theorem exp_append_head {exp : Option Exponent} (hexp : exp.all Exponent.valid = true)
    (hr : endsValue r = true) :
    ∀ c ∈ (NumToken.expText exp ++ r).head?,
      c.isDigit = false ∧ c ≠ '.' := by
  cases exp with
  | none =>
    intro c hc
    refine ⟨noDigitHead_of_endsValue hr c hc, ?_⟩
    rintro rfl
    cases r with
    | nil => simp [NumToken.expText] at hc
    | cons d =>
      obtain rfl : d = '.' := by simpa [NumToken.expText] using hc
      simp [endsValue, isWs] at hr
  | some =>
    obtain ⟨m, t, ht, hm⟩ := Exponent.text_head (by simpa using hexp)
    intro c hc
    obtain rfl : m = c := by simpa [NumToken.expText, ht] using hc
    rcases hm with rfl | rfl <;> decide

theorem scanExp_append {exp : Option Exponent} (hexp : exp.all Exponent.valid = true)
    (hr : endsValue r = true) :
    scanExp (NumToken.expText exp ++ r) = (exp, r) := by
  cases exp with
  | none => exact scanExp_of_endsValue hr
  | some => exact scanExp_text (by simpa using hexp) (noDigitHead_of_endsValue hr)

/-- The digits after the sign of a number are digits, so the sign is read off the head. -/
theorem digits_head_ne_neg (hds : isIntPart ds = true) : ((ds ++ r).head? == some '-') = false := by
  simp only [isIntPart, isDigits, Bool.and_eq_true] at hds
  cases ds with
  | nil => simp at hds
  | cons d =>
    obtain ⟨⟨-, hall⟩, -⟩ := hds
    have hd : d.isDigit = true := by
      simp only [all_cons, Bool.and_eq_true] at hall
      exact hall.1
    rw [cons_append, head?_cons, beq_eq_false_iff_ne]
    rintro h
    obtain rfl := Option.some.inj h
    exact absurd hd (by decide)

/-- **A number is cut out of a text again**, if what follows it ends a value. -/
theorem scanNumber_text {t : NumToken} (ht : t.valid = true)
    (hr : endsValue r = true) : scanNumber (t.text ++ r) = some (t, r) := by
  obtain ⟨neg, ds, frac, exp⟩ := t
  simp only [NumToken.valid, Bool.and_eq_true] at ht
  obtain ⟨⟨hds, hfrac⟩, hexp⟩ := ht
  have hhead := exp_append_head hexp hr
  -- the digits stop at the fraction, the fraction at the exponent
  have hbody : noDigitHead (NumToken.fracText frac ++ (NumToken.expText exp ++ r)) ∧
      scanFrac (NumToken.fracText frac ++ (NumToken.expText exp ++ r)) =
        (frac, NumToken.expText exp ++ r) := by
    cases frac with
    | none =>
      exact ⟨fun c hc ↦ (hhead c hc).1, scanFrac_none fun c hc ↦ (hhead c hc).2⟩
    | some =>
      refine ⟨fun c hc ↦ ?_, scanFrac_some (by simpa using hfrac) fun c hc ↦ (hhead c hc).1⟩
      obtain rfl : '.' = c := by simpa [NumToken.fracText] using hc
      decide
  obtain ⟨hnd, hsf⟩ := hbody
  have hint := scanInt_append hds hnd
  cases neg with
  | true =>
    simp only [NumToken.text, if_true, append_assoc, cons_append, nil_append]
    simp only [scanNumber, head?_cons, beq_self_eq_true, if_true, tail_cons, hint, hsf,
      scanExp_append hexp hr]
  | false =>
    simp only [NumToken.text, Bool.false_eq_true, if_false, append_assoc, nil_append]
    simp only [scanNumber, digits_head_ne_neg hds, Bool.false_eq_true, if_false, hint, hsf,
      scanExp_append hexp hr]

/-- The token of an integer. -/
def intToken (n : Int) : NumToken := ⟨decide (n < 0), Nat.toDigits 10 n.natAbs, none, none⟩

theorem intToken_text (n : Int) : (intToken n).text = intText n := by
  cases n with
  | ofNat n =>
    have h : decide (Int.ofNat n < 0) = false := rfl
    simp only [intToken, h, NumToken.text, NumToken.fracText, NumToken.expText, intText,
      Bool.false_eq_true, if_false, append_nil, nil_append, Int.natAbs]
  | negSucc n =>
    have h : decide (Int.negSucc n < 0) = true := decide_eq_true (Int.negSucc_lt_zero n)
    simp only [intToken, h, NumToken.text, NumToken.fracText, NumToken.expText, intText, if_true,
      append_nil, singleton_append, Int.natAbs_negSucc, Nat.succ_eq_add_one]

/-- A decimal starts with zero only if it is zero. -/
theorem toDigits_head (n : Nat) :
    Nat.toDigits 10 n = ['0'] ∨ (Nat.toDigits 10 n).head? ≠ some '0' := by
  induction n using Nat.strongRecOn with
  | ind n ih =>
    rcases Nat.lt_or_ge n 10 with hn | hn
    · clear ih
      revert hn
      revert n
      decide
    · right
      have hlt : n / 10 < n := Nat.div_lt_self (by omega) (by omega)
      rw [Nat.toDigits_of_base_le (by omega) hn,
        head?_append_of_ne_nil _ Nat.toDigits_ne_nil]
      rcases ih (n / 10) hlt with h | h
      · have hval : Nat.ofDigitChars 10 (Nat.toDigits 10 (n / 10)) 0 = 0 := by rw [h]; rfl
        rw [Nat.ofDigitChars_toDigits (by omega) (by omega)] at hval
        omega
      · exact h

theorem isIntPart_toDigits (n : Nat) : isIntPart (Nat.toDigits 10 n) = true := by
  have hne : Nat.toDigits 10 n ≠ [] := Nat.toDigits_ne_nil
  have hall : (Nat.toDigits 10 n).all Char.isDigit = true :=
    all_eq_true.2 fun c hc ↦ Nat.isDigit_of_mem_toDigits (by omega) (by omega) hc
  simp only [isIntPart, isDigits, hall, Bool.and_true, Bool.and_eq_true, Bool.not_eq_true',
    isEmpty_eq_false_iff, Bool.or_eq_true, beq_iff_eq, bne_iff_ne]
  exact ⟨hne, toDigits_head n⟩

theorem intToken_valid (n : Int) : (intToken n).valid = true := by
  simp [intToken, NumToken.valid, isIntPart_toDigits]

theorem numberValue_intToken [PyFloat F] {n : Int} (h : intEncodable n = true) :
    numberValue (intToken n) = some (Json.int n : Json F) := by
  have hlen : (intToken n).digits.length ≤ maxStrDigits := of_decide_eq_true h
  have hval : Nat.ofDigitChars 10 (intToken n).digits 0 = n.natAbs := by
    simp [intToken]
  have hfloat : (intToken n).isFloat = false := rfl
  rw [numberValue, hfloat, if_neg Bool.false_ne_true, if_pos hlen, hval]
  congr 2
  rcases lt_or_ge n 0 with hn | hn
  · have hneg : (intToken n).neg = true := decide_eq_true hn
    rw [hneg, if_pos rfl]
    omega
  · have hneg : (intToken n).neg = false := decide_eq_false (by omega)
    rw [hneg, if_neg Bool.false_ne_true]
    omega

theorem numberValue_repr [PyFloat F] {x : F} (h : PyFloat.isFinite x = true) :
    numberValue (PyFloat.repr x) = some (Json.float x) := by
  rw [numberValue, if_pos (PyFloat.repr_valid x h).2, PyFloat.ofToken_repr x h]

/-! ## Values -/

/-- A number starts with a digit, or with a sign and a digit. -/
theorem NumToken.text_head {t : NumToken} (ht : t.valid = true) :
    ∃ d s, d.isDigit = true ∧ (t.text = d :: s ∨ t.text = '-' :: d :: s) := by
  obtain ⟨neg, ds, frac, exp⟩ := t
  simp only [NumToken.valid, isIntPart, isDigits, Bool.and_eq_true] at ht
  cases ds with
  | nil => simp at ht
  | cons d ds =>
    have hd : d.isDigit = true := by
      have hall := ht.1.1.1.2
      simp only [all_cons, Bool.and_eq_true] at hall
      exact hall.1
    refine ⟨d, ds ++ (NumToken.fracText frac ++ NumToken.expText exp), hd, ?_⟩
    cases neg with
    | true => exact Or.inr rfl
    | false => exact Or.inl rfl

/-- Nothing else that starts a value is a digit. -/
theorem digit_ne {d : Char} (hd : d.isDigit = true) :
    d ≠ '"' ∧ d ≠ 'n' ∧ d ≠ 't' ∧ d ≠ 'f' ∧ d ≠ 'N' ∧ d ≠ 'I' ∧ d ≠ '-' ∧ d ≠ '[' ∧ d ≠ '{' := by
  refine ⟨?_, ?_, ?_, ?_, ?_, ?_, ?_, ?_, ?_⟩ <;> (rintro rfl; exact absurd hd (by decide))

/-- The text starts a value: no whitespace, and no bracket that closes a container. -/
def startsValue (s : List Char) : Prop := ∃ c r, s = c :: r ∧ isWs c = false ∧ c ≠ ']' ∧ c ≠ '}'

theorem NumToken.startsValue_text {t : NumToken} (ht : t.valid = true) : startsValue t.text := by
  obtain ⟨d, s, hd, h | h⟩ := NumToken.text_head ht
  · refine ⟨d, s, h, ?_, ?_, ?_⟩
    · by_contra hws
      simp only [Bool.not_eq_false, isWs, Bool.or_eq_true, decide_eq_true_eq] at hws
      rcases hws with ((rfl | rfl) | rfl) | rfl <;> exact absurd hd (by decide)
    · rintro rfl; exact absurd hd (by decide)
    · rintro rfl; exact absurd hd (by decide)
  · exact ⟨'-', d :: s, h, by decide, by decide, by decide⟩

namespace Json

variable {esc : Str → List Char} {ok : Str → Bool} {okFloat : F → Bool} {S : Style F}

/-- What a rendering starts with. -/
theorem startsValue_render (hfloat : ∀ x, okFloat x = true → startsValue (S.float x)) {v : Json F}
    (hv : v.admits ok okFloat = true) (depth : Nat) : startsValue (v.render S depth) := by
  cases v with
  | null => exact ⟨_, _, rfl, by decide, by decide, by decide⟩
  | bool b => cases b <;> exact ⟨_, _, rfl, by decide, by decide, by decide⟩
  | int n =>
    rw [render, ← intToken_text]
    exact NumToken.startsValue_text (intToken_valid n)
  | float x => exact hfloat x hv
  | str => exact ⟨_, _, rfl, by decide, by decide, by decide⟩
  | list xs => cases xs <;> exact ⟨_, _, rfl, by decide, by decide, by decide⟩
  | dict kvs => cases kvs <;> exact ⟨_, _, rfl, by decide, by decide, by decide⟩
  | foreign => cases hv

variable [PyFloat F]

mutual
/-- The compact rendering does not depend on the depth. -/
theorem render_compact (m n : Nat) :
    ∀ v : Json F, v.render (compact esc) m = v.render (compact esc) n
  | .list (x :: xs) => by
    rw [render, render, render_compact _ (n + 1) x, renderTail_compact m n xs]
    rfl
  | .dict ((k, x) :: kvs) => by
    rw [render, render, render_compact _ (n + 1) x, renderItemsTail_compact m n kvs]
    rfl
  | .bool b => by cases b <;> rfl
  | .list [] | .dict [] | .null | .int _ | .float _ | .str _ | .foreign => rfl
theorem renderTail_compact (m n : Nat) :
    ∀ xs : List (Json F), renderTail (compact esc) m xs = renderTail (compact esc) n xs
  | [] => rfl
  | x :: xs => by
    rw [renderTail, renderTail, render_compact _ (n + 1) x, renderTail_compact m n xs]
    rfl
theorem renderItemsTail_compact (m n : Nat) : ∀ kvs : List (Str × Json F),
    renderItemsTail (compact esc) m kvs = renderItemsTail (compact esc) n kvs
  | [] => rfl
  | (k, x) :: kvs => by
    rw [renderItemsTail, renderItemsTail, render_compact _ (n + 1) x,
      renderItemsTail_compact m n kvs]
    rfl
end

end Json

theorem skipWs_cons {c : Char} {s : List Char} (hc : isWs c = false) :
    skipWs (c :: s) = c :: s := by
  rw [skipWs, dropWhile_cons_of_neg (by simp [hc])]

theorem skipWs_append {w s : List Char} (hw : ∀ c ∈ w, isWs c = true) :
    skipWs (w ++ s) = skipWs s := by
  rw [skipWs, skipWs, dropWhile_append_of_pos hw]

theorem skipWs_of_startsValue {s : List Char} (hs : startsValue s) (r : List Char) :
    skipWs (s ++ r) = s ++ r := by
  obtain ⟨c, t, rfl, hc, -, -⟩ := hs
  exact skipWs_cons hc

/-- Whitespace and then a comma or a bracket end a value. -/
theorem endsValue_append {w : List Char} (hw : ∀ c ∈ w, isWs c = true) (hr : endsValue r = true) :
    endsValue (w ++ r) = true := by
  cases w with
  | nil => exact hr
  | cons c => simp [endsValue, hw c (by simp)]

section Loads

variable [PyFloat F] {ε : Type} (hooks : LoadsHooks F ε)

variable {v : Json F}

/-- A number is no string, no literal and no constant, so the scanner asks for its token. -/
theorem scanAtom_number {t : NumToken} (ht : t.valid = true) (hv : numberValue t = some v)
    {r : List Char} (hr : endsValue r = true) :
    scanAtom hooks (t.text ++ r) = .ok (v, r) := by
  have hnum := scanNumber_text ht hr
  obtain ⟨d, s, hd, h | h⟩ := NumToken.text_head ht
  · obtain ⟨h1, h2, h3, h4, h5, h6, h7, -, -⟩ := digit_ne hd
    rw [h] at hnum ⊢
    rw [cons_append] at hnum ⊢
    rw [scanAtom]
    · simp [afterLit, List.isPrefixOf, h2.symm, h3.symm, h4.symm, h5.symm, h6.symm, h7.symm, hnum,
        hv]
    · intro r' h'
      exact h1 (List.cons.inj h').1
  · have h6 : 'I' ≠ d := (digit_ne hd).2.2.2.2.2.1.symm
    rw [h] at hnum ⊢
    rw [cons_append, cons_append] at hnum ⊢
    rw [scanAtom]
    · simp [afterLit, List.isPrefixOf, h6, hnum, hv]
    · intro r' h'
      exact absurd (List.cons.inj h').1 (by decide)

theorem scanOnce_atom {n : Nat} {c : Char} {s : List Char} (h1 : c ≠ '[') (h2 : c ≠ '{') :
    scanOnce hooks (n + 1) (c :: s) = scanAtom hooks (c :: s) := by
  rw [scanOnce]
  · intro r h
    exact h2 (List.cons.inj h).1
  · intro r h
    exact h1 (List.cons.inj h).1

theorem scanOnce_number {t : NumToken} (ht : t.valid = true) (hv : numberValue t = some v) {n : Nat}
    {r : List Char} (hr : endsValue r = true) :
    scanOnce hooks (n + 1) (t.text ++ r) = .ok (v, r) := by
  have hatom := scanAtom_number hooks ht hv hr
  obtain ⟨d, s, hd, h | h⟩ := NumToken.text_head ht
  · obtain ⟨-, -, -, -, -, -, -, h1, h2⟩ := digit_ne hd
    rw [h] at hatom ⊢
    rwa [cons_append, scanOnce_atom hooks h1 h2]
  · rw [h] at hatom ⊢
    rwa [cons_append, scanOnce_atom hooks (by decide) (by decide)]

/-- The value is read back from a text wherever that stands, with fuel for twice its length. -/
def ReadsBack (text : List Char) (v : Json F) : Prop :=
  ∀ n r, 2 * text.length ≤ n + 1 → endsValue r = true →
    scanOnce hooks (n + 1) (text ++ r) = .ok (v, r)

/-- An `ok` string is read back from between its quotes. -/
def StringsReadBack (esc : Str → List Char) (ok : Str → Bool) : Prop :=
  ∀ s, ok s = true → ∀ r, scanString (esc s ++ '"' :: r) = some (s, r)

/-- A style puts only whitespace between the tokens of a value, and what it writes for the strings
and the floats that are admitted is read back. -/
structure StyleReadsBack (S : Json.Style F) (ok : Str → Bool) (okFloat : F → Bool) : Prop where
  strings : StringsReadBack S.esc ok
  floatStarts : ∀ x, okFloat x = true → startsValue (S.float x)
  floats : ∀ x, okFloat x = true → ReadsBack hooks (S.float x) (.float x)
  before : ∀ depth, ∀ c ∈ S.before depth, isWs c = true
  between : ∀ depth, ∀ c ∈ S.between depth, isWs c = true
  after : ∀ depth, ∀ c ∈ S.after depth, isWs c = true
  colon : ∀ c ∈ S.colon, isWs c = true

variable {S : Json.Style F} {ok : Str → Bool} {okFloat : F → Bool}

section Style

variable (hS : StyleReadsBack hooks S ok okFloat)

include hS

/-- The items of a list are read back up to the closing bracket. -/
theorem scanItems_render {depth : Nat} {x : Json F} {xs : List (Json F)}
    (h : ∀ y ∈ x :: xs, ReadsBack hooks (y.render S (depth + 1)) y)
    (hadm : ∀ y ∈ x :: xs, y.admits ok okFloat = true) {n : Nat}
    (hn : 2 * ((x.render S (depth + 1)).length + (Json.renderTail S depth xs).length) ≤ n)
    (r : List Char) :
    scanItems hooks n (x.render S (depth + 1) ++ (Json.renderTail S depth xs ++ r)) =
      .ok (x :: xs, r) := by
  induction xs generalizing x n with
  | nil =>
    simp only [Json.renderTail, length_append, length_singleton] at hn
    obtain ⟨m, rfl⟩ : ∃ m, n = m + 2 := ⟨n - 2, by omega⟩
    have hx := h x (by simp) m (S.after depth ++ ']' :: r) (by omega)
      (endsValue_append (hS.after depth) (by simp [endsValue]))
    rw [scanItems, Json.renderTail, append_assoc, singleton_append, hx]
    simp only [skipWs_append (hS.after depth), skipWs_cons (show isWs ']' = false by decide)]
  | cons y ys ih =>
    simp only [Json.renderTail, length_cons, length_append] at hn
    obtain ⟨m, rfl⟩ : ∃ m, n = m + 2 := ⟨n - 2, by omega⟩
    have hx := h x (by simp) m
      (',' :: (S.between depth ++ (y.render S (depth + 1) ++ (Json.renderTail S depth ys ++ r))))
      (by omega) (by simp [endsValue])
    have hys := ih (x := y) (n := m + 1) (fun z hz ↦ h z (mem_cons_of_mem _ hz))
      (fun z hz ↦ hadm z (mem_cons_of_mem _ hz)) (by omega)
    have hskip := skipWs_of_startsValue
      (Json.startsValue_render hS.floatStarts (hadm y (by simp)) (depth + 1))
    rw [scanItems, Json.renderTail, cons_append, append_assoc, append_assoc, hx]
    simp only [skipWs_cons (show isWs ',' = false by decide), skipWs_append (hS.between depth),
      hskip, hys]

/-- The pairs of an object are read back up to the closing brace. -/
theorem scanPairs_render {depth : Nat} {k : Str} {x : Json F} {kvs : List (Str × Json F)}
    (h : ∀ kv ∈ (k, x) :: kvs, ReadsBack hooks (kv.2.render S (depth + 1)) kv.2)
    (hadm : ∀ kv ∈ (k, x) :: kvs, ok kv.1 = true ∧ kv.2.admits ok okFloat = true) {n : Nat}
    (hn : 2 * ((x.render S (depth + 1)).length + (Json.renderItemsTail S depth kvs).length) ≤ n)
    (r : List Char) :
    scanPairs hooks n ('"' :: (S.esc k ++ '"' :: ':' :: (S.colon ++ (x.render S (depth + 1) ++
        (Json.renderItemsTail S depth kvs ++ r))))) = .ok ((k, x) :: kvs, r) := by
  induction kvs generalizing k x n with
  | nil =>
    simp only [Json.renderItemsTail, length_append, length_singleton] at hn
    obtain ⟨m, rfl⟩ : ∃ m, n = m + 2 := ⟨n - 2, by omega⟩
    have hx : scanOnce hooks (m + 1) (x.render S (depth + 1) ++ (S.after depth ++ '}' :: r)) =
        .ok (x, S.after depth ++ '}' :: r) :=
      h (k, x) (by simp) m _ (by dsimp only; omega)
        (endsValue_append (hS.after depth) (by simp [endsValue]))
    obtain ⟨hk, hxe⟩ := hadm (k, x) (by simp)
    have hskip := skipWs_of_startsValue
      (Json.startsValue_render hS.floatStarts hxe (depth + 1))
    rw [scanPairs]
    simp only [hS.strings k hk, skipWs_cons (show isWs ':' = false by decide),
      skipWs_append hS.colon, hskip, Json.renderItemsTail, append_assoc, singleton_append,
      hx, skipWs_append (hS.after depth), skipWs_cons (show isWs '}' = false by decide)]
  | cons kv kvs ih =>
    obtain ⟨k', y⟩ := kv
    simp only [Json.renderItemsTail, length_cons, length_append] at hn
    obtain ⟨m, rfl⟩ : ∃ m, n = m + 2 := ⟨n - 2, by omega⟩
    have hx : ∀ t,
        scanOnce hooks (m + 1) (x.render S (depth + 1) ++ ',' :: t) = .ok (x, ',' :: t) := fun t ↦
      h (k, x) (by simp) m _ (by dsimp only; omega) (by simp [endsValue])
    have hys := ih (k := k') (x := y) (n := m + 1) (fun z hz ↦ h z (mem_cons_of_mem _ hz))
      (fun z hz ↦ hadm z (mem_cons_of_mem _ hz)) (by omega)
    obtain ⟨hk, hxe⟩ := hadm (k, x) (by simp)
    have hskip := skipWs_of_startsValue
      (Json.startsValue_render hS.floatStarts hxe (depth + 1))
    rw [scanPairs]
    simp only [hS.strings k hk, skipWs_cons (show isWs ':' = false by decide),
      skipWs_append hS.colon, hskip, Json.renderItemsTail, cons_append, append_assoc, hx,
      skipWs_cons (show isWs ',' = false by decide), skipWs_append (hS.between depth),
      skipWs_cons (show isWs '"' = false by decide), hys]

end Style

/-- The hook lets an object with distinct keys through unchanged. -/
def KeepsDistinct : Prop :=
  ∀ kvs : List (Str × Json F), (kvs.map Prod.fst).Nodup →
    hooks.objectPairsHook kvs = .ok (.dict kvs)

variable {hooks}

theorem scanOnce_render (hh : KeepsDistinct hooks) (hS : StyleReadsBack hooks S ok okFloat)
    (v : Json F) (hadm : v.admits ok okFloat = true) (hu : v.UniqueKeys) (depth : Nat) :
    ReadsBack hooks (v.render S depth) v := by
  induction v generalizing depth with
  | null =>
    intro n r _ _
    rfl
  | bool b =>
    intro n r _ _
    cases b <;> rfl
  | int k =>
    intro n r _ hr
    rw [Json.render, ← intToken_text]
    exact scanOnce_number hooks (intToken_valid k) (numberValue_intToken hadm) hr
  | float x => exact hS.floats x hadm
  | str s =>
    intro n r _ _
    rw [Json.render, cons_append, append_assoc, singleton_append,
      scanOnce_atom hooks (by decide) (by decide), scanAtom, hS.strings s hadm]
  | list xs ih =>
    intro n r hn _
    have hadms := Json.every_list_iff.1 hadm
    have hus := Json.uniqueKeys_list_iff.1 hu
    cases xs with
    | nil => rfl
    | cons x =>
      simp only [Json.render, length_cons, length_append] at hn
      have hitems := scanItems_render hooks hS
        (fun y hy ↦ ih y hy (hadms y hy) (hus y hy) (depth + 1)) hadms (n := n) (by omega) r
      obtain ⟨c, s, hc, hws, hne, -⟩ :=
        Json.startsValue_render hS.floatStarts (hadms x (by simp)) (depth + 1)
      rw [hc, cons_append] at hitems
      rw [Json.render, cons_append, append_assoc, append_assoc, hc, cons_append,
        scanOnce, skipWs_append (hS.before depth), skipWs_cons hws]
      split
      next h => exact absurd (List.cons.inj h).1 hne
      · rw [hitems]
  | dict kvs ih =>
    intro n r hn _
    have hadms := Json.every_dict_iff.1 hadm
    obtain ⟨hnd, hus⟩ := Json.uniqueKeys_dict_iff.1 hu
    cases kvs with
    | nil =>
      simp [Json.render, scanOnce, skipWs_cons (show isWs '}' = false by decide), hh [] hnd,
        Except.map]
    | cons kv =>
      obtain ⟨k, x⟩ := kv
      simp only [Json.render, length_cons, length_append] at hn
      have hpairs := scanPairs_render hooks hS
        (fun kv hkv ↦ ih kv hkv (hadms kv hkv).2 (hus kv hkv) (depth + 1)) hadms (n := n)
        (by omega) r
      rw [Json.render]
      simp only [cons_append, append_assoc] at hpairs ⊢
      rw [scanOnce, skipWs_append (hS.before depth), skipWs_cons (by decide)]
      split
      next h => exact absurd (List.cons.inj h).1 (by decide)
      · simp only [hpairs, hh _ hnd, Except.map]
  | foreign => cases hadm

/-- **A value with distinct keys is read back from its rendering**, if the style's strings and
floats are. -/
theorem loads_render (hh : KeepsDistinct hooks) (hS : StyleReadsBack hooks S ok okFloat)
    (hadm : v.admits ok okFloat = true) (hu : v.UniqueKeys) :
    loads hooks (v.render S 0) = .ok v := by
  have hskip := skipWs_of_startsValue (Json.startsValue_render hS.floatStarts hadm 0) []
  have hread := scanOnce_render hh hS v hadm hu 0 (2 * (v.render S 0).length + 1) [] (by omega) rfl
  rw [append_nil] at hskip hread
  rw [loads, hskip, hread]
  rfl

/-- Finite floats are read back from their `repr`. -/
theorem styleReadsBack_compact {esc : Str → List Char} (hstr : StringsReadBack esc ok) :
    StyleReadsBack hooks (Json.compact esc) ok PyFloat.isFinite where
  strings := hstr
  floatStarts x hx := NumToken.startsValue_text (PyFloat.repr_valid x hx).1
  floats x hx _ _ _ hr :=
    scanOnce_number hooks (PyFloat.repr_valid x hx).1 (numberValue_repr hx) hr
  before := by simp [Json.compact]
  between := by simp [Json.compact]
  after := by simp [Json.compact]
  colon := by simp [Json.compact]

theorem loads_compact (hh : KeepsDistinct hooks) {esc : Str → List Char}
    (hstr : StringsReadBack esc ok) (henc : v.encodableWith ok = true) (hu : v.UniqueKeys) :
    loads hooks (v.render (Json.compact esc) 0) = .ok v :=
  loads_render hh (styleReadsBack_compact hstr) henc hu

end Loads

/-! ## Sorting the keys -/

namespace Json

instance : Std.Total (keyLE (F := F)) := ⟨fun a b ↦ Str.le.total a.1 b.1⟩

instance : IsTrans (Str × Json F) keyLE := ⟨fun _ _ _ h h' ↦ Str.le.trans h h'⟩

/-- The object of a value with its keys in order. -/
theorem sortKeys_dict_perm (kvs : List (Str × Json F)) :
    ∃ kvs', (Json.dict kvs).sortKeys = .dict kvs' ∧
      kvs'.Perm (kvs.map fun kv ↦ (kv.1, kv.2.sortKeys)) :=
  ⟨_, sortKeys_dict, perm_insertionSort _ _⟩

/-- What does not look at the order of the keys of an object comes to the same. -/
theorem fold_sortKeys {β : Type*} {atom : Json F → β} {list : List β → β}
    (dict : List Str → List β → β)
    (hdict : ∀ l l' : List (Str × β), l.Perm l' →
      dict (l.map Prod.fst) (l.map Prod.snd) = dict (l'.map Prod.fst) (l'.map Prod.snd))
    (v : Json F) :
    v.sortKeys.fold atom list (fun kvs ↦ dict (kvs.map Prod.fst)) =
      v.fold atom list fun kvs ↦ dict (kvs.map Prod.fst) := by
  induction v with
  | list xs ih =>
    rw [sortKeys_list, fold_list, fold_list, map_map]
    exact congrArg list (map_congr_left ih)
  | dict kvs ih =>
    obtain ⟨kvs', hsorted, hperm⟩ := sortKeys_dict_perm kvs
    have h := hdict _ _
      (hperm.map fun kv ↦ (kv.1, kv.2.fold atom list fun kvs ↦ dict (kvs.map Prod.fst)))
    simp only [map_map, Function.comp_def] at h
    rw [hsorted, fold_dict, fold_dict, h, map_congr_left ih]
  | _ => rfl

theorem every_sortKeys (okStr : Str → Bool) (okInt : Int → Bool) (okFloat : F → Bool) (v : Json F) :
    v.sortKeys.every okStr okInt okFloat = v.every okStr okInt okFloat :=
  fold_sortKeys (fun ks oks ↦ ks.all okStr && oks.all id)
    (fun _ _ h ↦ by rw [(h.map _).all_eq, (h.map _).all_eq]) v

theorem uniqueKeys_sortKeys (v : Json F) : v.sortKeys.UniqueKeys ↔ v.UniqueKeys :=
  (fold_sortKeys (fun ks ps ↦ ks.Nodup ∧ ∀ p ∈ ps, p)
    (fun _ _ h ↦ by simp only [(h.map _).nodup_iff, (h.map _).mem_iff]) v).to_iff

/-- Keys once in order stay as they are. -/
theorem sortKeys_sortKeys (v : Json F) : v.sortKeys.sortKeys = v.sortKeys := by
  induction v with
  | list xs ih =>
    rw [sortKeys_list, sortKeys_list, map_map]
    congr 1
    exact map_congr_left fun x hx ↦ ih x hx
  | dict kvs ih =>
    rw [sortKeys_dict, sortKeys_dict]
    congr 1
    have hid : ((kvs.map fun kv ↦ (kv.1, kv.2.sortKeys)).insertionSort keyLE).map
        (fun kv ↦ (kv.1, kv.2.sortKeys)) =
          (kvs.map fun kv ↦ (kv.1, kv.2.sortKeys)).insertionSort keyLE := by
      refine (map_congr_left fun kv hkv ↦ ?_).trans (map_id _)
      rw [mem_insertionSort, mem_map] at hkv
      obtain ⟨kv, hmem, rfl⟩ := hkv
      simp only [ih kv hmem, id]
    rw [hid]
    exact List.Pairwise.insertionSort_eq (pairwise_insertionSort _ _)
  | _ => rfl

/-- With distinct keys a lookup finds what is there. -/
theorem lookup_eq_some_iff {α : Type} {kvs : List (Str × α)} (hnd : (kvs.map Prod.fst).Nodup)
    {k : Str} {x : α} : kvs.lookup k = some x ↔ (k, x) ∈ kvs := by
  induction kvs with
  | nil => simp
  | cons kv kvs ih =>
    obtain ⟨k', y⟩ := kv
    rw [map_cons, nodup_cons] at hnd
    rw [lookup_cons]
    by_cases hk : k = k'
    · subst hk
      have hnot : (k, x) ∉ kvs := fun hmem ↦ hnd.1 (mem_map.2 ⟨_, hmem, rfl⟩)
      simp [hnot, eq_comm]
    · rw [beq_false_of_ne hk]
      simp [ih hnd.2, hk]

/-- The order of keys does not matter to a lookup. -/
theorem get?_sortKeys {v : Json F} (hu : v.UniqueKeys) (k : Str) :
    v.sortKeys.get? k = (v.get? k).map sortKeys := by
  cases v with
  | dict kvs =>
    obtain ⟨hkeys, -⟩ := uniqueKeys_dict_iff.1 hu
    obtain ⟨kvs', hsorted, hperm⟩ := sortKeys_dict_perm kvs
    have hnd : (kvs'.map Prod.fst).Nodup := by
      rw [(hperm.map Prod.fst).nodup_iff, map_map]
      exact hkeys
    ext x
    rw [hsorted, get?, lookup_eq_some_iff hnd, hperm.mem_iff, mem_map, get?,
      Option.map_eq_some_iff]
    constructor
    · rintro ⟨⟨k', y⟩, hmem, heq⟩
      obtain ⟨rfl, rfl⟩ := Prod.mk.inj heq
      exact ⟨y, (lookup_eq_some_iff hkeys).2 hmem, rfl⟩
    · rintro ⟨y, hy, rfl⟩
      exact ⟨(k, y), (lookup_eq_some_iff hkeys).1 hy, rfl⟩
  | _ => rfl

end Json

theorem dumps_eq_some_iff [PyFloat F] {v : Json F} {bs : List UInt8} :
    dumps v = some bs ↔ v.encodable = true ∧ bs = encodeUtf8 v.sortKeys.text := by
  rw [dumps, show v.sortKeys.encodable = v.encodable from Json.every_sortKeys ..]
  split
  next h => simp [h, eq_comm]
  next h => simp [h]

/-- **Decoding what `dumps` wrote gives the value back**, its keys in order. -/
theorem loads_dumps [PyFloat F] {ε : Type} {hooks : LoadsHooks F ε} (hh : KeepsDistinct hooks)
    {v : Json F} {bs : List UInt8} (hbs : dumps v = some bs) (hu : v.UniqueKeys) :
    ∃ t, decodeUtf8 bs = some t ∧ loads hooks t = .ok v.sortKeys := by
  obtain ⟨henc, rfl⟩ := dumps_eq_some_iff.1 hbs
  refine ⟨_, decodeUtf8_encodeUtf8 _, loads_compact hh scanString_escapeStr ?_
    ((Json.uniqueKeys_sortKeys v).2 hu)⟩
  exact (Json.every_sortKeys ..).trans henc

end Py
