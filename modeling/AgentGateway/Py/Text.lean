import Mathlib

/-!
# Python text and its UTF-8 bytes

A Python `str` is a sequence of code points, and a code point may be a lone surrogate, which no
UTF-8 text can hold.  `CodePoint` keeps the two kinds apart: a `scalar` is a Lean `Char`, and a
`surrogate` is one of the 2048 values from U+D800 on.  Text that came out of a byte string is
therefore a `List Char`, and text a program holds is a `Str`, a `List CodePoint`.

* `Str.chars?` is the part of `str.encode("utf-8")` that can fail: it refuses a surrogate.
* `encodeUtf8` and `decodeUtf8` are the rest of `encode` and the strict `decode`, and
  `decodeUtf8_encodeUtf8` is the round trip.
* `Str.strip` strips the characters for which `str.isspace` holds, at both ends.
* `Str.le` compares by code point, which is how Python orders strings when it sorts keys.
-/

namespace Py

/-! ## Code points -/

/-- A code point of a Python string: a Unicode scalar value, or a lone surrogate. -/
inductive CodePoint where
  | scalar (c : Char)
  /-- The code point `0xD800 + n`. -/
  | surrogate (n : Fin 2048)
deriving DecidableEq

instance instNeZeroSurrogates : NeZero 2048 := ⟨by decide⟩

namespace CodePoint

/-- Python's `ord`. -/
def ord : CodePoint → Nat
  | scalar c => c.toNat
  | surrogate n => 0xD800 + n.val

theorem toNat_not_surrogate (c : Char) : c.toNat < 0xD800 ∨ 0xDFFF < c.toNat := by
  have h := c.valid
  have : c.toNat = c.val.toNat := rfl
  omega

/-- The characters `str.isspace` accepts, which are the ones `str.strip` removes. -/
def isSpace (p : CodePoint) : Bool :=
  let n := p.ord
  (0x09 ≤ n && n ≤ 0x0D) || (0x1C ≤ n && n ≤ 0x20) || n == 0x85 || n == 0xA0 || n == 0x1680 ||
    (0x2000 ≤ n && n ≤ 0x200A) || n == 0x2028 || n == 0x2029 || n == 0x202F || n == 0x205F ||
    n == 0x3000

end CodePoint

/-! ## Strings -/

/-- A Python `str`. -/
abbrev Str := List CodePoint

instance : LawfulBEq Str := inferInstance

namespace Str

/-- A string literal of the source. -/
def lit (s : String) : Str := s.toList.map .scalar

/-- `str.strip()`. -/
def strip (s : Str) : Str :=
  ((s.dropWhile CodePoint.isSpace).reverse.dropWhile CodePoint.isSpace).reverse

/-- The characters of a string with no surrogate in it, and `none` where there is one. -/
def chars? : Str → Option (List Char)
  | [] => some []
  | .scalar c :: s => (chars? s).map (c :: ·)
  | .surrogate _ :: _ => none

theorem chars?_map_scalar (t : List Char) : chars? (t.map .scalar) = some t := by
  induction t with
  | nil => rfl
  | cons c t ih => simp [chars?, ih]

theorem eq_map_scalar_of_chars? {s : Str} {t : List Char} (h : chars? s = some t) :
    s = t.map .scalar := by
  induction s generalizing t with
  | nil => simp only [chars?, Option.some.injEq] at h; subst h; rfl
  | cons p s ih =>
    cases p with
    | surrogate => simp [chars?] at h
    | scalar =>
      rw [chars?, Option.map_eq_some_iff] at h
      obtain ⟨t', ht', rfl⟩ := h
      rw [ih ht', List.map_cons]

/-- Comparison by code points, the order of `sorted` on keys. -/
def le (a b : Str) : Prop := a.map CodePoint.ord ≤ b.map CodePoint.ord

instance : DecidableRel le := fun a b =>
  inferInstanceAs (Decidable (a.map CodePoint.ord ≤ b.map CodePoint.ord))

theorem le.total (a b : Str) : le a b ∨ le b a :=
  le_total (a.map CodePoint.ord) (b.map CodePoint.ord)

theorem le.trans {a b c : Str} (hab : le a b) (hbc : le b c) : le a c :=
  le_trans (α := List ℕ) hab hbc

end Str

/-! ## UTF-8 -/

/-- `text.encode("utf-8")` for a text without surrogates. -/
def encodeUtf8 (t : List Char) : List UInt8 := t.flatMap String.utf8EncodeChar

/-- `bytes.decode("utf-8")`, strict. -/
def decodeUtf8 (bs : List UInt8) : Option (List Char) :=
  bs.toByteArray.utf8Decode?.map Array.toList

@[simp] theorem decodeUtf8_encodeUtf8 (t : List Char) : decodeUtf8 (encodeUtf8 t) = some t := by
  have h : (encodeUtf8 t).toByteArray = t.utf8Encode := rfl
  rw [decodeUtf8, h, List.utf8Decode?_utf8Encode]
  rfl

theorem encodeUtf8_append (t u : List Char) :
    encodeUtf8 (t ++ u) = encodeUtf8 t ++ encodeUtf8 u :=
  List.flatMap_append

/-- The number of bytes of a text. -/
def utf8Length (t : List Char) : Nat := (t.map Char.utf8Size).sum

@[simp] theorem utf8Length_nil : utf8Length [] = 0 := rfl

@[simp] theorem utf8Length_cons (c : Char) (t : List Char) :
    utf8Length (c :: t) = c.utf8Size + utf8Length t := by
  simp [utf8Length]

@[simp] theorem utf8Length_append (t u : List Char) :
    utf8Length (t ++ u) = utf8Length t + utf8Length u := by
  simp [utf8Length]

theorem length_encodeUtf8 (t : List Char) : (encodeUtf8 t).length = utf8Length t := by
  induction t with
  | nil => rfl
  | cons c t ih =>
    rw [encodeUtf8, List.flatMap_cons, List.length_append, utf8Length_cons, ← ih,
      String.length_utf8EncodeChar]
    rfl

theorem utf8Size_eq (c : Char) :
    c.utf8Size = if c.toNat ≤ 0x7F then 1 else if c.toNat ≤ 0x7FF then 2
      else if c.toNat ≤ 0xFFFF then 3 else 4 := rfl

/-- ASCII characters take one byte each. -/
theorem utf8Length_of_ascii {t : List Char} (h : ∀ c ∈ t, c.toNat ≤ 0x7F) :
    utf8Length t = t.length := by
  induction t with
  | nil => rfl
  | cons c t ih =>
    have hc : c.utf8Size = 1 := by rw [utf8Size_eq, if_pos (h c (by simp))]
    rw [utf8Length_cons, ih fun d hd ↦ h d (List.mem_cons_of_mem _ hd), hc, List.length_cons]
    omega

theorem isDigit_ascii {c : Char} (h : c.isDigit = true) : c.toNat ≤ 0x7F := by
  simp only [Char.isDigit, Bool.and_eq_true, decide_eq_true_eq, ge_iff_le] at h
  have h2 : c.val.toNat ≤ '9'.val.toNat := UInt32.le_iff_toNat_le.1 h.2
  have h9 : '9'.val.toNat = 57 := rfl
  have hc : c.toNat = c.val.toNat := rfl
  omega

end Py
