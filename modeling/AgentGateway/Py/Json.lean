import AgentGateway.Py.Text

/-!
# Python's JSON values, `json.dumps` and `json.loads`

A `Json F` is what `json.dumps` may be handed: the exact JSON types, and `foreign` for an object of
any other type, on which `dumps` raises.  A `dict` is the list of its items in insertion order.
Python keeps the keys of a `dict` distinct, which is `Json.UniqueKeys` here.

* `Json.sortKeys` is what `sort_keys=True` does at every level, and `Json.Equiv` is equality of
  values up to the order of keys, the equality of Python's dictionaries.
* `Json.render` is the rendering in a `Style`, of a value whose keys are already in order;
  `Json.text` is the compact one, with `ensure_ascii=False` and `separators=(",", ":")`.
  `Json.every` checks all strings and numbers of a value; `Json.encodable` says which values have a
  compact rendering.
* `scanOnce` and `loads` follow the scanner of the standard library: whitespace, escapes, surrogate
  pairs, the three non-JSON constants, the number grammar, and the hook called on the pairs of each
  object as it is closed.

Floats are left abstract: `PyFloat F` says what the codec relies on, that the `repr` of a finite
float is a JSON number with a fraction or an exponent and that reading it back gives the float.
-/

namespace Py

/-! ## Number tokens -/

/-- The exponent of a number: the letter, the sign if there is one, and the digits. -/
structure Exponent where
  marker : Char
  sign : Option Char
  digits : List Char
deriving DecidableEq

/-- A JSON number as the scanner cuts it out of a text. -/
structure NumToken where
  neg : Bool
  digits : List Char
  frac : Option (List Char)
  exp : Option Exponent
deriving DecidableEq

/-- A nonempty run of decimal digits. -/
def isDigits (ds : List Char) : Bool := !ds.isEmpty && ds.all Char.isDigit

/-- The integer part of a number: one zero, or digits that do not start with zero. -/
def isIntPart (ds : List Char) : Bool := isDigits ds && (ds == ['0'] || ds.head? != some '0')

namespace Exponent

def text (e : Exponent) : List Char := e.marker :: (e.sign.toList ++ e.digits)

def valid (e : Exponent) : Bool :=
  (e.marker == 'e' || e.marker == 'E') &&
    (e.sign == none || e.sign == some '+' || e.sign == some '-') && isDigits e.digits

end Exponent

namespace NumToken

def fracText : Option (List Char) → List Char
  | none => []
  | some ds => '.' :: ds

def expText : Option Exponent → List Char
  | none => []
  | some e => e.text

/-- The characters the token was cut from. -/
def text (t : NumToken) : List Char :=
  (if t.neg then ['-'] else []) ++ (t.digits ++ (fracText t.frac ++ expText t.exp))

def valid (t : NumToken) : Bool :=
  isIntPart t.digits && t.frac.all isDigits && t.exp.all Exponent.valid

/-- The scanner makes a float of a number with a fraction or an exponent, an integer of the rest. -/
def isFloat (t : NumToken) : Bool := t.frac.isSome || t.exp.isSome

end NumToken

/-- Python's `float`, as far as the JSON codec looks at it. -/
class PyFloat (F : Type) where
  /-- `math.isfinite` -/
  isFinite : F → Bool
  /-- `float.__repr__` of a finite float -/
  repr : F → NumToken
  /-- `float(text)` on a number the scanner found -/
  ofToken : NumToken → F
  repr_valid : ∀ x, isFinite x = true → (repr x).valid = true ∧ (repr x).isFloat = true
  ofToken_repr : ∀ x, isFinite x = true → ofToken (repr x) = x

/-- Floats that are kept as the text they were read from. -/
instance : PyFloat NumToken where
  isFinite t := t.valid && t.isFloat
  repr t := t
  ofToken t := t
  repr_valid _ h := by simpa using h
  ofToken_repr _ _ := rfl

/-! ## Values -/

/-- A value as `json.dumps` sees it. -/
inductive Json (F : Type) where
  | null
  | bool (b : Bool)
  | int (n : Int)
  | float (x : F)
  | str (s : Str)
  | list (xs : List (Json F))
  | dict (kvs : List (Str × Json F))
  /-- an object of a type `json.dumps` does not know -/
  | foreign

variable {F : Type}

variable {xs : List (Json F)} {kvs : List (Str × Json F)}

namespace Json

/-- Induction over a value, with one hypothesis for every item of a container. -/
@[induction_eliminator]
theorem ind {P : Json F → Prop} (null : P .null) (bool : ∀ b, P (.bool b)) (int : ∀ n, P (.int n))
    (float : ∀ x, P (.float x)) (str : ∀ s, P (.str s))
    (list : ∀ xs, (∀ x ∈ xs, P x) → P (.list xs))
    (dict : ∀ kvs : List (Str × Json F), (∀ kv ∈ kvs, P kv.2) → P (.dict kvs))
    (foreign : P .foreign) (v : Json F) : P v := by
  refine @Json.rec F P (fun xs => ∀ x ∈ xs, P x) (fun kvs => ∀ kv ∈ kvs, P kv.2) (fun kv => P kv.2)
    null bool int float str list dict foreign ?_ ?_ ?_ ?_ ?_ v
  · simp
  · intro x xs hx hxs y hy
    rcases List.mem_cons.1 hy with rfl | hy
    · exact hx
    · exact hxs y hy
  · simp
  · intro kv kvs hkv hkvs y hy
    rcases List.mem_cons.1 hy with rfl | hy
    · exact hkv
    · exact hkvs y hy
  · exact fun _ _ h => h

/-- `dict.get(key)`. -/
def get? (v : Json F) (key : Str) : Option (Json F) :=
  match v with
  | .dict kvs => kvs.lookup key
  | _ => none

/-- Keys are compared by code point. -/
def keyLE (a b : Str × Json F) : Prop := a.1.le b.1

instance : DecidableRel (keyLE (F := F)) := fun a b => inferInstanceAs (Decidable (a.1.le b.1))

section Fold

variable {β : Type*} (atom : Json F → β) (list : List β → β)
  (dict : List (Str × Json F) → List β → β)

mutual
/-- A value from the bottom up: what is no container by `atom`, a container by what its items have
come to. -/
def fold : Json F → β
  | .list xs => list (foldList xs)
  | .dict kvs => dict kvs (foldItems kvs)
  | .null => atom .null
  | .bool b => atom (.bool b)
  | .int n => atom (.int n)
  | .float x => atom (.float x)
  | .str s => atom (.str s)
  | .foreign => atom .foreign
def foldList : List (Json F) → List β
  | [] => []
  | x :: xs => fold x :: foldList xs
def foldItems : List (Str × Json F) → List β
  | [] => []
  | (_, x) :: kvs => fold x :: foldItems kvs
end

variable {atom list dict}

theorem fold_list :
    fold atom list dict (.list xs) = list (xs.map (fold atom list dict)) := by
  rw [fold]
  congr 1
  induction xs with
  | nil => rfl
  | cons x xs ih => rw [foldList, ih, List.map_cons]

theorem fold_dict :
    fold atom list dict (.dict kvs) =
      dict kvs (kvs.map fun kv ↦ fold atom list dict kv.2) := by
  rw [fold]
  congr 1
  induction kvs with
  | nil => rfl
  | cons kv kvs ih => rw [foldItems, ih, List.map_cons]

end Fold

/-- The value with the keys of every object in order, as `sort_keys=True` visits them. -/
def sortKeys : Json F → Json F :=
  fold id .list fun kvs xs ↦ .dict (((kvs.map Prod.fst).zip xs).insertionSort keyLE)

/-- Equality of Python values: the order of the keys of a dictionary does not count. -/
def Equiv (v w : Json F) : Prop := sortKeys v = sortKeys w

/-- Every dictionary has distinct keys. -/
def UniqueKeys : Json F → Prop :=
  fold (fun _ ↦ True) (∀ p ∈ ·, p) fun kvs ps ↦ (kvs.map Prod.fst).Nodup ∧ ∀ p ∈ ps, p

theorem sortKeys_list : (Json.list xs).sortKeys = .list (xs.map sortKeys) := fold_list

theorem sortKeys_dict :
    (Json.dict kvs).sortKeys =
      .dict ((kvs.map fun kv ↦ (kv.1, kv.2.sortKeys)).insertionSort keyLE) := by
  rw [sortKeys, fold_dict, List.zip_map']

@[simp]
theorem uniqueKeys_int (n : Int) : (Json.int n : Json F).UniqueKeys := trivial

@[simp]
theorem uniqueKeys_str (s : Str) : (Json.str s : Json F).UniqueKeys := trivial

@[simp]
theorem uniqueKeys_list_iff : (Json.list xs).UniqueKeys ↔ ∀ x ∈ xs, x.UniqueKeys := by
  rw [UniqueKeys, fold_list, List.forall_mem_map]

@[simp]
theorem uniqueKeys_dict_iff :
    (Json.dict kvs).UniqueKeys ↔
      (kvs.map Prod.fst).Nodup ∧ ∀ kv ∈ kvs, kv.2.UniqueKeys := by
  rw [UniqueKeys, fold_dict, List.forall_mem_map]

end Json

/-! ## Rendering -/

/-- `sys.int_info.default_max_str_digits`: a longer decimal raises `ValueError`, both ways. -/
def maxStrDigits : Nat := 4300

/-- The escape of one character in a string, with `ensure_ascii=False`. -/
def escapeChar (c : Char) : List Char :=
  if c = '"' then ['\\', '"']
  else if c = '\\' then ['\\', '\\']
  else if c = '\n' then ['\\', 'n']
  else if c = '\r' then ['\\', 'r']
  else if c = '\t' then ['\\', 't']
  else if c = '\x0c' then ['\\', 'f']
  else if c = '\x08' then ['\\', 'b']
  else if c.toNat ≤ 0x1f then
    ['\\', 'u', '0', '0', Nat.digitChar (c.toNat / 16), Nat.digitChar (c.toNat % 16)]
  else [c]

/-- The text between the quotes.  A surrogate has no character of its own: `encodable` refuses
the string. -/
def escapeStr : Str → List Char
  | [] => []
  | .scalar c :: s => escapeChar c ++ escapeStr s
  | .surrogate _ :: s => escapeStr s

def strText (s : Str) : List Char := '"' :: (escapeStr s ++ ['"'])

/-- `int.__repr__`. -/
def intText : Int → List Char
  | .ofNat n => Nat.toDigits 10 n
  | .negSucc n => '-' :: Nat.toDigits 10 (n + 1)

def strEncodable (s : Str) : Bool := (Str.chars? s).isSome

def intEncodable (n : Int) : Bool := decide ((Nat.toDigits 10 n.natAbs).length ≤ maxStrDigits)

namespace Json

section Every

variable (okStr : Str → Bool) (okInt : Int → Bool) (okFloat : F → Bool)

/-- Every string of the value, key or not, every integer and every float passes, and nothing in it
is foreign. -/
def every : Json F → Bool :=
  fold
    (fun
      | .int n => okInt n
      | .float x => okFloat x
      | .str s => okStr s
      | .foreign => false
      | _ => true)
    (·.all id) fun kvs oks ↦ (kvs.map Prod.fst).all okStr && oks.all id

variable {okStr okInt okFloat}

theorem every_str (s : Str) : every okStr okInt okFloat (.str s) = okStr s := rfl

theorem every_list_iff :
    every okStr okInt okFloat (.list xs) = true ↔
      ∀ x ∈ xs, every okStr okInt okFloat x = true := by
  simp [every, fold_list]

theorem every_dict_iff :
    every okStr okInt okFloat (.dict kvs) = true ↔
      ∀ kv ∈ kvs, okStr kv.1 = true ∧ every okStr okInt okFloat kv.2 = true := by
  simp [every, fold_dict, forall_and]

theorem every_mono {okStr' : Str → Bool} (h : ∀ s, okStr s = true → okStr' s = true) {v : Json F}
    (hv : every okStr okInt okFloat v = true) : every okStr' okInt okFloat v = true := by
  induction v with
  | str s => exact h s hv
  | list xs ih =>
    rw [every_list_iff] at hv ⊢
    exact fun x hx ↦ ih x hx (hv x hx)
  | dict kvs ih =>
    rw [every_dict_iff] at hv ⊢
    exact fun kv hkv ↦ ⟨h kv.1 (hv kv hkv).1, ih kv hkv (hv kv hkv).2⟩
  | foreign => cases hv
  | null | bool | int | float => exact hv

end Every

/-- Every string and every float of the value is admitted, and `json.dumps` can write the integers.
-/
abbrev admits (ok : Str → Bool) (okFloat : F → Bool) (v : Json F) : Bool :=
  v.every ok intEncodable okFloat

/-- How a value is laid out: how strings and floats are written, and the whitespace after an opening
bracket, after a comma and before a closing bracket at a depth, and after a colon. -/
structure Style (F : Type) where
  esc : Str → List Char
  float : F → List Char
  before : Nat → List Char
  between : Nat → List Char
  after : Nat → List Char
  colon : List Char

mutual
/-- The rendering in a style, its keys in the order they stand. -/
def render (S : Style F) (depth : Nat) : Json F → List Char
  | .null => ['n', 'u', 'l', 'l']
  | .bool true => ['t', 'r', 'u', 'e']
  | .bool false => ['f', 'a', 'l', 's', 'e']
  | .int n => intText n
  | .float x => S.float x
  | .str s => '"' :: (S.esc s ++ ['"'])
  | .list [] => ['[', ']']
  | .list (x :: xs) => '[' :: (S.before depth ++ (render S (depth + 1) x ++ renderTail S depth xs))
  | .dict [] => ['{', '}']
  | .dict ((k, x) :: kvs) =>
    '{' :: (S.before depth ++ '"' :: (S.esc k ++
      '"' :: ':' :: (S.colon ++ (render S (depth + 1) x ++ renderItemsTail S depth kvs))))
  | .foreign => []
/-- What follows the first item of a list. -/
def renderTail (S : Style F) (depth : Nat) : List (Json F) → List Char
  | [] => S.after depth ++ [']']
  | x :: xs => ',' :: (S.between depth ++ (render S (depth + 1) x ++ renderTail S depth xs))
/-- What follows the first item of an object. -/
def renderItemsTail (S : Style F) (depth : Nat) : List (Str × Json F) → List Char
  | [] => S.after depth ++ ['}']
  | (k, x) :: kvs =>
    ',' :: (S.between depth ++ '"' :: (S.esc k ++
      '"' :: ':' :: (S.colon ++ (render S (depth + 1) x ++ renderItemsTail S depth kvs))))
end

variable [PyFloat F]

/-- `json.dumps(.., allow_nan=False)` does not raise, and every string of the value is `ok`. -/
abbrev encodableWith (ok : Str → Bool) (v : Json F) : Bool := v.admits ok PyFloat.isFinite

/-- `json.dumps(.., allow_nan=False)` and the encoding after it do not raise. -/
abbrev encodable (v : Json F) : Bool := v.encodableWith strEncodable

/-- The compact style, with strings escaped by `esc`. -/
def compact (esc : Str → List Char) : Style F :=
  ⟨esc, fun x ↦ (PyFloat.repr x).text, fun _ ↦ [], fun _ ↦ [], fun _ ↦ [], []⟩

/-- The compact rendering of a value, its keys in the order they stand. -/
abbrev text (v : Json F) : List Char := v.render (compact escapeStr) 0

end Json

/-- `json.dumps(v, allow_nan=False, ensure_ascii=False, separators=(",", ":"), sort_keys=True)`
and `.encode("utf-8")`.  The callers put both in one `try`, so the two ways to fail are one here:
with `ensure_ascii=False` a lone surrogate passes `dumps` and stops the encoder. -/
def dumps [PyFloat F] (v : Json F) : Option (List UInt8) :=
  if v.sortKeys.encodable then some (encodeUtf8 v.sortKeys.text) else none

/-! ## Scanning -/

def isWs (c : Char) : Bool := c = ' ' || c = '\t' || c = '\n' || c = '\r'

def skipWs (s : List Char) : List Char := s.dropWhile isWs

/-- The value of a hexadecimal digit. -/
def hexVal (c : Char) : Option Nat :=
  if '0' ≤ c ∧ c ≤ '9' then some (c.toNat - '0'.toNat)
  else if 'a' ≤ c ∧ c ≤ 'f' then some (c.toNat - 'a'.toNat + 10)
  else if 'A' ≤ c ∧ c ≤ 'F' then some (c.toNat - 'A'.toNat + 10)
  else none

/-- The code point four hexadecimal digits name. -/
def hex4 (a b c d : Char) : Option CodePoint := do
  let n := (((← hexVal a) * 16 + (← hexVal b)) * 16 + (← hexVal c)) * 16 + (← hexVal d)
  if h : 0xD800 ≤ n ∧ n < 0xD800 + 2048 then some (.surrogate ⟨n - 0xD800, by omega⟩)
  else some (.scalar (Char.ofNat n))

/-- The character after a backslash, for the one-letter escapes. -/
def unescape (c : Char) : Option Char :=
  if c = '"' then some '"'
  else if c = '\\' then some '\\'
  else if c = '/' then some '/'
  else if c = 'b' then some '\x08'
  else if c = 'f' then some '\x0c'
  else if c = 'n' then some '\n'
  else if c = 'r' then some '\r'
  else if c = 't' then some '\t'
  else none

/-- The code points up to the closing quote, and what follows it.  Escaped surrogates are still
apart here, see `joinSurrogates`. -/
def scanStringRaw : List Char → Option (Str × List Char)
  | [] => none
  | '"' :: r => some ([], r)
  | '\\' :: 'u' :: a :: b :: c :: d :: r => do
    let p ← hex4 a b c d
    let (s, r') ← scanStringRaw r
    some (p :: s, r')
  | '\\' :: e :: r => do
    let c ← unescape e
    let (s, r') ← scanStringRaw r
    some (.scalar c :: s, r')
  | c :: r =>
    -- `strict=True`: a raw control character is refused
    if c.toNat ≤ 0x1f then none
    else do
      let (s, r') ← scanStringRaw r
      some (.scalar c :: s, r')

/-- An escaped high surrogate followed by an escaped low one is one character. -/
def joinSurrogates : Str → Str
  | .surrogate m :: .surrogate n :: s =>
    if m.val < 1024 ∧ 1024 ≤ n.val then
      .scalar (Char.ofNat (0x10000 + m.val * 1024 + (n.val - 1024))) :: joinSurrogates s
    else .surrogate m :: joinSurrogates (.surrogate n :: s)
  | p :: s => p :: joinSurrogates s
  | [] => []

/-- `scanstring`, called after the opening quote. -/
def scanString (s : List Char) : Option (Str × List Char) :=
  (scanStringRaw s).map fun p => (joinSurrogates p.1, p.2)

/-- One zero, or a run of digits that starts with another digit. -/
def scanInt : List Char → Option (List Char × List Char)
  | [] => none
  | c :: r =>
    if c = '0' then some (['0'], r)
    else if c.isDigit then some (c :: r.takeWhile Char.isDigit, r.dropWhile Char.isDigit)
    else none

/-- A point with a digit after it, and all the digits that follow. -/
def scanFrac : List Char → Option (List Char) × List Char
  | '.' :: d :: r =>
    if d.isDigit then (some (d :: r.takeWhile Char.isDigit), r.dropWhile Char.isDigit)
    else (none, '.' :: d :: r)
  | r => (none, r)

def scanSign : List Char → Option Char × List Char
  | '+' :: r => (some '+', r)
  | '-' :: r => (some '-', r)
  | r => (none, r)

/-- The exponent, or nothing at all where no digit follows the letter. -/
def scanExp : List Char → Option Exponent × List Char
  | [] => (none, [])
  | c :: r =>
    if c = 'e' ∨ c = 'E' then
      match (scanSign r).2.takeWhile Char.isDigit with
      | [] => (none, c :: r)
      | d :: ds => (some ⟨c, (scanSign r).1, d :: ds⟩, (scanSign r).2.dropWhile Char.isDigit)
    else (none, c :: r)

/-- `_match_number`: the longest number at the head of the text. -/
def scanNumber (s : List Char) : Option (NumToken × List Char) :=
  let neg := s.head? == some '-'
  match scanInt (if neg then s.tail else s) with
  | none => none
  | some (ds, r) =>
    let f := scanFrac r
    let e := scanExp f.2
    some (⟨neg, ds, f.1, e.1⟩, e.2)

/-- The text after a literal, where the text starts with it. -/
def afterLit (w s : List Char) : Option (List Char) :=
  if w.isPrefixOf s then some (s.drop w.length) else none

section Loads

variable [PyFloat F] {ε : Type}

/-- The number of a token: `int(text)` or `float(text)`. -/
def numberValue (t : NumToken) : Option (Json F) :=
  if t.isFloat then some (.float (PyFloat.ofToken t))
  else if t.digits.length ≤ maxStrDigits then
    some (.int ((if t.neg then -1 else 1) * (Nat.ofDigitChars 10 t.digits 0 : Nat)))
  else none

/-- What a caller of `json.loads` sets: the error it raises for a text that is no JSON, the hook
on the pairs of an object, and the error it raises for a constant such as `NaN`.  A caller that does
not set `parse_constant` gets the float of that name. -/
structure LoadsHooks (F ε : Type) where
  invalid : ε
  objectPairsHook : List (Str × Json F) → Except ε (Json F)
  parseConstant : String → ε
  constant : String → Option F := fun _ ↦ none

variable (hooks : LoadsHooks F ε)

/-- The constant at the head of a text. -/
def scanConstant (w : String) (s : List Char) : Except ε (Json F × List Char) :=
  match hooks.constant w with
  | some x => .ok (.float x, s.drop w.length)
  | none => .error (hooks.parseConstant w)

/-- A value that is not a container, at the head of a text. -/
def scanAtom (s : List Char) : Except ε (Json F × List Char) :=
  match s with
  | '"' :: r =>
    match scanString r with
    | some (t, r') => .ok (.str t, r')
    | none => .error hooks.invalid
  | _ =>
    match afterLit ['n', 'u', 'l', 'l'] s with
    | some r => .ok (.null, r)
    | none =>
    match afterLit ['t', 'r', 'u', 'e'] s with
    | some r => .ok (.bool true, r)
    | none =>
    match afterLit ['f', 'a', 'l', 's', 'e'] s with
    | some r => .ok (.bool false, r)
    | none =>
    if "NaN".toList.isPrefixOf s then scanConstant hooks "NaN" s
    else if "Infinity".toList.isPrefixOf s then scanConstant hooks "Infinity" s
    else if "-Infinity".toList.isPrefixOf s then scanConstant hooks "-Infinity" s
    else
      match scanNumber s with
      | none => .error hooks.invalid
      | some (t, r) =>
        match numberValue t with
        | some v => .ok (v, r)
        | none => .error hooks.invalid

mutual
/-- `scan_once`: one value, and what follows it.  Every call uses one unit of fuel, and every two
calls read a character, so twice the length of the text is enough. -/
def scanOnce : Nat → List Char → Except ε (Json F × List Char)
  | 0, _ => .error hooks.invalid
  | n + 1, s =>
    match s with
    | '{' :: r =>
      match skipWs r with
      | '}' :: r' => (hooks.objectPairsHook []).map (·, r')
      | r' =>
        match scanPairs n r' with
        | .error e => .error e
        | .ok (kvs, r'') => (hooks.objectPairsHook kvs).map (·, r'')
    | '[' :: r =>
      match skipWs r with
      | ']' :: r' => .ok (.list [], r')
      | r' =>
        match scanItems n r' with
        | .error e => .error e
        | .ok (xs, r'') => .ok (.list xs, r'')
    | _ => scanAtom hooks s
/-- The items of a list up to its closing bracket. -/
def scanItems : Nat → List Char → Except ε (List (Json F) × List Char)
  | 0, _ => .error hooks.invalid
  | n + 1, s =>
    match scanOnce n s with
    | .error e => .error e
    | .ok (v, r) =>
      match skipWs r with
      | ']' :: r' => .ok ([v], r')
      | ',' :: r' =>
        match scanItems n (skipWs r') with
        | .error e => .error e
        | .ok (vs, r'') => .ok (v :: vs, r'')
      | _ => .error hooks.invalid
/-- The pairs of an object up to its closing brace. -/
def scanPairs : Nat → List Char → Except ε (List (Str × Json F) × List Char)
  | 0, _ => .error hooks.invalid
  | n + 1, s =>
    match s with
    | '"' :: r =>
      match scanString r with
      | none => .error hooks.invalid
      | some (k, r1) =>
        match skipWs r1 with
        | ':' :: r2 =>
          match scanOnce n (skipWs r2) with
          | .error e => .error e
          | .ok (v, r3) =>
            match skipWs r3 with
            | '}' :: r4 => .ok ([(k, v)], r4)
            | ',' :: r4 =>
              match scanPairs n (skipWs r4) with
              | .error e => .error e
              | .ok (kvs, r5) => .ok ((k, v) :: kvs, r5)
            | _ => .error hooks.invalid
        | _ => .error hooks.invalid
    | _ => .error hooks.invalid
end

/-- `json.loads(text, object_pairs_hook=.., parse_constant=..)`. -/
def loads (s : List Char) : Except ε (Json F) :=
  match scanOnce hooks (2 * s.length + 2) (skipWs s) with
  | .error e => .error e
  | .ok (v, r) => if (skipWs r).isEmpty then .ok v else .error hooks.invalid

end Loads

end Py
