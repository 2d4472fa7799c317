import AgentGateway.Py.JsonAscii
import AgentGateway.SecretBoundary

/-!
# No registered secret crosses the boundary

`SecretBoundary.sanitize` takes any Python value.  Here the value is a graph of objects: a container
has an identity, may be reached in several ways and may contain itself, a mapping may have keys of
any type, and there may be objects of types the walk does not know.  The walk carries the
identities of the containers it is inside of.  On the objects of a JSON value it does what
`sanitizeLevels` does (`sanitizeGraph_eq_sanitize`).

What the credential patterns match is left open: a pattern replaces some parts of a text by
`<redacted-secret>`, as every `Regex.sub` does.

* `Registers`: what the constructor keeps of the secrets it is given, in any order of equal lengths.
* `no_secret_survives`: every string and every key of the result conceals every registered secret,
  and no entry of a mapping replaces another.

The secrets are replaced one after the other.  A later replacement cannot bring back an earlier
secret: what it puts in has a bracket at both ends, and no secret has one.
-/

open Py List

namespace AgentGateway.SecretBoundary

/-! ## Registration -/

/-- `json.dumps(secret)[1:-1]` -/
def jsonEscaped (secret : Str) : Str := (escapeAscii secret).map .scalar

/-- What `__init__` makes of the values it is given; the order of a set is open. -/
structure Registers (values : List Str) (boundary : SecretBoundary) : Prop where
  exactValues : boundary.exactValues.Perm (values.filter fun v ↦ decide (v.strip ≠ [])).dedup
  longestFirst : boundary.exactValues.Pairwise fun v w ↦ w.length ≤ v.length
  jsonEscapedValues : boundary.jsonEscapedValues.Perm
    (((boundary.exactValues.filter fun v ↦ decide (minSubstringSecretLength ≤ v.length)).filter
      fun v ↦ decide (jsonEscaped v ≠ v)).map jsonEscaped).dedup
  longestEscapedFirst : boundary.jsonEscapedValues.Pairwise fun v w ↦ w.length ≤ v.length

/-! ## The walk -/

section Walk

variable {F : Type}

/-- `None`, a `bool`, an `int` or a `float` -/
inductive Atom (F : Type) where
  | none
  | bool (b : Bool)
  | int (n : Int)
  | float (f : F)

/-- A key of a mapping; `other` is one of any other type. -/
inductive Key (F : Type) where
  | str (s : Str)
  | atom (a : Atom F)
  | other

/-- A value; a container is known by its identity. -/
inductive Value (F : Type) where
  | atom (a : Atom F)
  | str (s : Str)
  | bytes
  | container (id : Nat)
  | foreign

/-- What a container holds: a mapping, or a list, a tuple or a set. -/
inductive Container (F : Type) where
  | mapping (items : List (Key F × Value F))
  | sequence (items : List (Value F))

/-- A key of the result. -/
inductive OutKey (F : Type) where
  | str (s : Str)
  | atom (a : Atom F)

/-- The result. -/
inductive Out (F : Type) where
  | atom (a : Atom F)
  | str (s : Str)
  | list (items : List (Out F))
  | dict (items : List (OutKey F × Out F))

/-- Do two keys of a dictionary count as the same one?  For numbers this is left open. -/
def OutKey.same (same : Atom F → Atom F → Bool) : OutKey F → OutKey F → Bool
  | .str s, .str t => decide (s = t)
  | .atom a, .atom b => same a b
  | _, _ => false

variable (heap : Nat → Container F) (redact : Str → Str) (same : Atom F → Atom F → Bool)

def sanitizeKey : Key F → OutKey F
  | .str s => .str (redact s)
  | .atom a => .atom a
  | .other => .str unsupportedValue

/-- The loop over the items of a mapping. -/
def sanitizeItems (sanitizeValue : Value F → Out F) :
    List (OutKey F × Out F) → List (Key F × Value F) → Out F
  | sanitized, [] => .dict sanitized
  | sanitized, (rawKey, rawValue) :: items =>
    let key := sanitizeKey redact rawKey
    if sanitized.any fun kv ↦ kv.1.same same key then .str sanitizationFailed
    else sanitizeItems sanitizeValue (sanitized ++ [(key, sanitizeValue rawValue)]) items

/-- `_sanitize`, with the number of levels that are left and the containers the walk is inside of -/
def walk : Nat → List Nat → Value F → Out F
  | 0, _, _ => .str unsupportedValue
  | levels + 1, active, value =>
    match value with
    | .atom a => .atom a
    | .str s => .str (redact s)
    | .bytes => .str unsupportedValue
    | .container id =>
      if id ∈ active then .str sanitizationFailed
      else
        match heap id with
        | .mapping items => sanitizeItems redact same (walk levels (id :: active)) [] items
        | .sequence items => .list (items.map (walk levels (id :: active)))
    | .foreign => .str unsupportedValue

/-- `sanitize` -/
def sanitizeGraph (value : Value F) : Out F := walk heap redact same (maxDepth + 1) [] value

/-- A text stands somewhere in a result, as a string or as a key. -/
inductive Out.Occurs (s : Str) : Out F → Prop
  | here : Occurs s (.str s)
  | item {x : Out F} {items : List (Out F)} (hx : x ∈ items) (h : Occurs s x) :
    Occurs s (.list items)
  | key {x : Out F} {items : List (OutKey F × Out F)} (hx : (.str s, x) ∈ items) :
    Occurs s (.dict items)
  | value {key : OutKey F} {x : Out F} {items : List (OutKey F × Out F)} (hx : (key, x) ∈ items)
    (h : Occurs s x) : Occurs s (.dict items)

variable {heap redact same}

/-! ### Keys -/

/-- The items of a mapping, one by one, unless two keys become the same. -/
theorem sanitizeItems_eq (f : Value F → Out F) (items : List (Key F × Value F))
    (sanitized : List (OutKey F × Out F))
    (h : sanitized.Pairwise fun a b ↦ a.1.same same b.1 = false) :
    sanitizeItems redact same f sanitized items =
      if (sanitized ++ items.map fun kv ↦ (sanitizeKey redact kv.1, f kv.2)).Pairwise
          fun a b ↦ a.1.same same b.1 = false then
        .dict (sanitized ++ items.map fun kv ↦ (sanitizeKey redact kv.1, f kv.2))
      else .str sanitizationFailed := by
  induction items generalizing sanitized with
  | nil => rw [sanitizeItems, map_nil, append_nil, if_pos h]
  | cons kv items ih =>
    rw [sanitizeItems, map_cons]
    split
    next hany =>
      rw [if_neg]
      intro hpair
      obtain ⟨e, he, hsame⟩ := any_eq_true.1 hany
      rw [(pairwise_append.1 hpair).2.2 e he _ mem_cons_self] at hsame
      exact Bool.false_ne_true hsame
    next hany =>
      have hnew : ∀ e ∈ sanitized, e.1.same same (sanitizeKey redact kv.1) = false := by
        intro e he
        by_contra hsame
        exact hany (any_eq_true.2 ⟨e, he, Bool.eq_true_of_not_eq_false hsame⟩)
      rw [ih (sanitized ++ [(sanitizeKey redact kv.1, f kv.2)]), append_assoc, singleton_append]
      refine pairwise_append.2 ⟨h, pairwise_singleton _ _, fun e he e' he' ↦ ?_⟩
      rw [mem_singleton.1 he']
      exact hnew e he

/-! ### JSON values -/

def Atom.json : Atom F → Json F
  | .none => .null
  | .bool b => .bool b
  | .int n => .int n
  | .float f => .float f

/-- The objects of a JSON value, outside of the containers the walk is inside of. -/
inductive Stands (heap : Nat → Container F) : List Nat → Json F → Value F → Prop
  | atom {active : List Nat} (a : Atom F) : Stands heap active a.json (.atom a)
  | str {active : List Nat} (s : Str) : Stands heap active (.str s) (.str s)
  | foreign {active : List Nat} : Stands heap active .foreign .foreign
  | list {active : List Nat} {id : Nat} {items : List (Json F × Value F)} (hid : id ∉ active)
    (hheap : heap id = .sequence (items.map Prod.snd))
    (h : ∀ p ∈ items, Stands heap (id :: active) p.1 p.2) :
    Stands heap active (.list (items.map Prod.fst)) (.container id)
  | dict {active : List Nat} {id : Nat} {items : List (Str × Json F × Value F)} (hid : id ∉ active)
    (hheap : heap id = .mapping (items.map fun p ↦ (.str p.1, p.2.2)))
    (h : ∀ p ∈ items, Stands heap (id :: active) p.2.1 p.2.2) :
    Stands heap active (.dict (items.map fun p ↦ (p.1, p.2.1))) (.container id)

/-- A sanitized JSON value, as a result of the walk. -/
def outOf : Json F → Out F :=
  Json.fold (fun
      | .null => .atom .none
      | .bool b => .atom (.bool b)
      | .int n => .atom (.int n)
      | .float f => .atom (.float f)
      | .str s => .str s
      | _ => .str unsupportedValue)
    .list fun kvs outs ↦ .dict ((kvs.map fun kv ↦ .str kv.1).zip outs)

theorem walk_eq_sanitizeLevels {active : List Nat} {v : Json F} {value : Value F}
    (h : Stands heap active v value) (levels : Nat) :
    walk heap redact same levels active value = outOf (sanitizeLevels redact levels v) := by
  induction levels generalizing active v value with
  | zero => rfl
  | succ levels ih =>
    cases h with
    | atom a => cases a <;> rfl
    | str => rfl
    | foreign => rfl
    | list hid hheap h =>
      rw [walk, if_neg hid, hheap, sanitizeLevels, outOf, Json.fold_list]
      simp only [map_map]
      exact congrArg Out.list (map_congr_left fun p hp ↦ ih (h p hp))
    | dict hid hheap h =>
      rw [walk, if_neg hid, hheap, sanitizeLevels]
      simp only [sanitizeItems_eq _ _ [] .nil, nil_append, Nodup, pairwise_map, map_map,
        Function.comp_def, sanitizeKey, OutKey.same, decide_eq_false_iff_not, ← ne_eq]
      split
      · rw [outOf, Json.fold_dict, map_map, map_map, zip_map']
        exact congrArg Out.dict (map_congr_left fun p hp ↦ congrArg (Prod.mk _) (ih (h p hp)))
      · rfl

/-- **On the objects of a JSON value the walk is `sanitize`**, whatever else is on the heap. -/
theorem sanitizeGraph_eq_sanitize {v : Json F} {value : Value F} (h : Stands heap [] v value)
    (boundary : SecretBoundary) (tables : CharTables) :
    sanitizeGraph heap (boundary.sanitizeStringWith (substitutions tables)) same value =
      outOf (boundary.sanitize tables v) :=
  walk_eq_sanitizeLevels h (maxDepth + 1)

/-! ### Strings -/

/-- What every redacted string and every tombstone satisfies, all strings of the result do. -/
theorem of_occurs_walk {P : Str → Prop} (hredact : ∀ s, P (redact s))
    (hunsupported : P unsupportedValue)
    (hfailed : P sanitizationFailed) (levels : Nat) (active : List Nat) (value : Value F) {s : Str}
    (h : (walk heap redact same levels active value).Occurs s) : P s := by
  induction levels generalizing active value with
  | zero =>
    cases h
    exact hunsupported
  | succ levels ih =>
    cases value with
    | atom => cases h
    | str t =>
      cases h
      exact hredact t
    | bytes =>
      cases h
      exact hunsupported
    | foreign =>
      cases h
      exact hunsupported
    | container =>
      rw [walk] at h
      split at h
      · cases h
        exact hfailed
      · split at h
        next items _ =>
          rw [sanitizeItems_eq _ items [] .nil, nil_append] at h
          split at h
          · cases h with
            | key hx =>
              obtain ⟨⟨key, x⟩, -, heq⟩ := mem_map.1 hx
              cases key with
              | str t =>
                cases heq
                exact hredact t
              | atom => cases heq
              | other =>
                cases heq
                exact hunsupported
            | value hx h =>
              obtain ⟨kv, -, heq⟩ := mem_map.1 hx
              cases heq
              exact ih _ kv.2 h
          · cases h
            exact hfailed
        next items _ =>
          cases h with
          | item hx h =>
            obtain ⟨x, -, rfl⟩ := mem_map.1 hx
            exact ih _ x h

end Walk

/-! ## JSON forms -/

/-- An escape has a backslash, and no bracket. -/
theorem hexEscape_spec (n : Nat) :
    '\\' ∈ hexEscape n ∧ '<' ∉ hexEscape n ∧ '>' ∉ hexEscape n := by
  simp only [hexEscape, mem_cons, not_mem_nil, or_false, true_or, true_and]
  grind

/-- A character is written as it is, or as an escape. -/
theorem escapeAscii_cases (p : CodePoint) : (∃ c, p = .scalar c ∧ p.escapeAscii = [c]) ∨
      '\\' ∈ p.escapeAscii ∧ '<' ∉ p.escapeAscii ∧ '>' ∉ p.escapeAscii := by
  cases p with
  | scalar c =>
    rw [CodePoint.escapeAscii]
    split
    next hle =>
      have hall : ∀ n < 0x7f, escapeChar (Char.ofNat n) = [Char.ofNat n] ∨
          '\\' ∈ escapeChar (Char.ofNat n) ∧ '<' ∉ escapeChar (Char.ofNat n) ∧
            '>' ∉ escapeChar (Char.ofNat n) := by decide +kernel
      have := hall c.toNat (by omega)
      rw [Char.ofNat_toNat] at this
      exact this.imp_left fun heq ↦ ⟨c, rfl, heq⟩
    · refine .inr ⟨?_, fun h ↦ ?_, fun h ↦ ?_⟩
      · obtain ⟨q, hq⟩ : ∃ q, q ∈ CodePoint.units (.scalar c) := by
          rw [CodePoint.units]
          split
          · exact ⟨_, mem_cons_self⟩
          · exact ⟨_, mem_cons_self⟩
        exact mem_flatMap.2 ⟨q, hq, (hexEscape_spec _).1⟩
      · obtain ⟨q, hq, hmem⟩ := mem_flatMap.1 h
        exact (hexEscape_spec _).2.1 hmem
      · obtain ⟨q, hq, hmem⟩ := mem_flatMap.1 h
        exact (hexEscape_spec _).2.2 hmem
  | surrogate => exact .inr (hexEscape_spec _)

theorem jsonEscaped_cons (p : CodePoint) (s : Str) :
    jsonEscaped (p :: s) = p.escapeAscii.map .scalar ++ jsonEscaped s := by
  rw [jsonEscaped, escapeAscii, flatMap_cons, map_append]
  rfl

/-- The JSON form is the secret itself, or has a backslash in it. -/
theorem jsonEscaped_eq_or_mem (s : Str) :
    jsonEscaped s = s ∨ CodePoint.scalar '\\' ∈ jsonEscaped s := by
  induction s with
  | nil => exact .inl rfl
  | cons p s ih =>
    rw [jsonEscaped_cons]
    rcases escapeAscii_cases p with ⟨c, rfl, heq⟩ | ⟨hmem, -⟩
    · rw [heq]
      exact ih.imp (congrArg (_ :: ·)) (mem_cons_of_mem _)
    · exact .inr (mem_append_left _ (mem_map_of_mem hmem))

/-- A bracket in the JSON form is one of the secret. -/
theorem mem_of_mem_jsonEscaped {s : Str} {c : Char} (hc : c = '<' ∨ c = '>')
    (h : CodePoint.scalar c ∈ jsonEscaped s) : CodePoint.scalar c ∈ s := by
  obtain ⟨d, hd, heq⟩ := mem_map.1 h
  cases heq
  obtain ⟨p, hp, hmem⟩ := mem_flatMap.1 hd
  rcases escapeAscii_cases p with ⟨d, rfl, hone⟩ | ⟨-, hlt, hgt⟩
  · rw [hone] at hmem
    rw [mem_singleton.1 hmem]
    exact hp
  · rcases hc with rfl | rfl
    · exact absurd hmem hlt
    · exact absurd hmem hgt

/-! ## Secrets -/

/-- The texts that stand for something that was taken out. -/
def tombstones : List Str := [redactedSecret, sanitizationFailed, unsupportedValue]

/-- The secret has no bracket, and is not in one of the fixed texts. -/
structure Concealable (secret : Str) : Prop where
  less : CodePoint.scalar '<' ∉ secret
  greater : CodePoint.scalar '>' ∉ secret
  fixed : ∀ t ∈ tombstones, ¬ secret <:+: t

/-- Nothing of the secret can be read off the text. -/
def Conceals (secret s : Str) : Prop :=
  (minSubstringSecretLength ≤ secret.length → ¬ secret <:+: s ∧ ¬ jsonEscaped secret <:+: s) ∧
    (secret.length < minSubstringSecretLength → s ≠ secret)

section Secrets

variable {values : List Str} {boundary : SecretBoundary} {patterns : List (Str → Str)}
  {secret : Str}

theorem Concealable.ne_nil (h : Concealable secret) : secret ≠ [] := by
  rintro rfl
  exact h.fixed redactedSecret (by decide) nil_infix

theorem Concealable.apart (h : Concealable secret) : Apart redactedSecret secret :=
  ⟨h.ne_nil, ⟨.scalar '<', rfl, h.less⟩, ⟨.scalar '>', rfl, h.greater⟩, h.fixed _ (by decide)⟩

/-- The JSON form of a secret is as good a secret. -/
theorem Concealable.jsonEscaped (h : Concealable secret) : Concealable (jsonEscaped secret) where
  less hmem := h.less (mem_of_mem_jsonEscaped (.inl rfl) hmem)
  greater hmem := h.greater (mem_of_mem_jsonEscaped (.inr rfl) hmem)
  fixed t ht hin := by
    rcases jsonEscaped_eq_or_mem secret with heq | hmem
    · rw [heq] at hin
      exact h.fixed t ht hin
    · have hnone : ∀ t ∈ tombstones, CodePoint.scalar '\\' ∉ t := by decide
      exact hnone t ht (hin.subset hmem)

theorem Registers.mem_exactValues (h : Registers values boundary) :
    secret ∈ boundary.exactValues ↔ secret ∈ values ∧ secret.strip ≠ [] := by
  rw [h.exactValues.mem_iff, mem_dedup, mem_filter, decide_eq_true_eq]

theorem Registers.mem_jsonEscapedValues (h : Registers values boundary)
    (hmem : secret ∈ boundary.exactValues) (hlen : minSubstringSecretLength ≤ secret.length)
    (hne : SecretBoundary.jsonEscaped secret ≠ secret) :
    SecretBoundary.jsonEscaped secret ∈ boundary.jsonEscapedValues := by
  rw [h.jsonEscapedValues.mem_iff, mem_dedup]
  refine mem_map_of_mem (mem_filter.2 ⟨mem_filter.2 ⟨hmem, ?_⟩, ?_⟩)
  · exact decide_eq_true hlen
  · exact decide_eq_true hne

/-- **The strings that come out of redaction conceal every registered secret.** -/
theorem Registers.conceals_sanitizeStringWith (h : Registers values boundary)
    (hpatterns : ∀ p ∈ patterns, ∀ s, Replaces redactedSecret s (p s))
    (hmem : secret ∈ boundary.exactValues) (hsecret : Concealable secret) (s : Str) :
    Conceals secret (boundary.sanitizeStringWith patterns s) := by
  have hexact : ∀ secret ∈ boundary.exactValues, ∀ s, Replaces redactedSecret s _ :=
    fun secret _ s ↦ replaces_redactExact s secret
  have hescaped : ∀ t ∈ boundary.jsonEscapedValues, ∀ s,
    Replaces redactedSecret s (redactAll t s) :=
    fun t _ s ↦ Regex.replaces_sub _ _ s
  -- a word that is gone after the first loop is gone in the end
  have hgone {w : Str} (hw : Apart redactedSecret w) :
      ∀ s t, Replaces redactedSecret s t → ¬ w <:+: s → ¬ w <:+: t :=
    fun s t hst hs hin ↦ hs (hst.isInfix_source hw hin)
  refine ⟨fun hlen ↦ ?_, fun hlen ↦ ?_⟩
  · have hraw : ¬ secret <:+: boundary.sanitizeStringWith patterns s := by
      refine of_foldl_replaces (hgone hsecret.apart) hpatterns
        (of_foldl_replaces (hgone hsecret.apart) hescaped
          (of_mem_foldl_replaces (hgone hsecret.apart) hexact hmem fun s ↦ ?_))
      rw [redactExact, if_pos hlen]
      exact Regex.not_infix_sub_text hsecret.apart s
    refine ⟨hraw, ?_⟩
    by_cases heq : SecretBoundary.jsonEscaped secret = secret
    · rw [heq]
      exact hraw
    · exact of_foldl_replaces (hgone hsecret.jsonEscaped.apart) hpatterns
        (of_mem_foldl_replaces (hgone hsecret.jsonEscaped.apart) hescaped
          (h.mem_jsonEscapedValues hmem hlen heq)
          fun s ↦ Regex.not_infix_sub_text hsecret.jsonEscaped.apart s)
  · -- a short secret has no bracket, so a text it was not before does not become it
    have hne : ∀ s t, Replaces redactedSecret s t → s ≠ secret → t ≠ secret := by
      rintro s t hst hs rfl
      exact hs (hst.eq_source ⟨.scalar '<', rfl, hsecret.less⟩).symm
    refine of_foldl_replaces hne hpatterns (of_foldl_replaces hne hescaped
      (of_mem_foldl_replaces hne hexact hmem fun s ↦ ?_))
    rw [redactExact, if_neg (Nat.not_le.2 hlen)]
    split
    · rintro rfl
      exact hsecret.less (by decide)
    · assumption

theorem Concealable.conceals_tombstone (h : Concealable secret) {t : Str} (ht : t ∈ tombstones) :
    Conceals secret t := by
  refine ⟨fun _ ↦ ⟨h.fixed t ht, h.jsonEscaped.fixed t ht⟩, ?_⟩
  rintro - rfl
  exact h.fixed _ ht infix_rfl

end Secrets

/-! ## What crosses the boundary -/

section Boundary

variable {F : Type}

/-- **No registered secret crosses the boundary, and no entry of a mapping is lost.**  Every string
and every key of the result conceals every registered secret.  Wherever the walk comes to a mapping,
its items are kept one by one, unless two of its keys become the same, and then the tombstone stands
in its place. -/
theorem no_secret_survives {values : List Str} {boundary : SecretBoundary}
    (hregisters : Registers values boundary)
    (hsecrets : ∀ secret ∈ boundary.exactValues, Concealable secret) {patterns : List (Str → Str)}
    (hpatterns : ∀ p ∈ patterns, ∀ s, Replaces redactedSecret s (p s)) (heap : Nat → Container F)
    (same : Atom F → Atom F → Bool) (value : Value F) :
    let redact := boundary.sanitizeStringWith patterns
    (∀ s, (sanitizeGraph heap redact same value).Occurs s →
      ∀ secret ∈ values, secret.strip ≠ [] → Conceals secret s) ∧
    ∀ levels active id items, id ∉ active → heap id = .mapping items →
      walk heap redact same (levels + 1) active (.container id) =
        if (items.map fun kv ↦ sanitizeKey redact kv.1).Pairwise fun a b ↦
          a.same same b = false then
          .dict (items.map fun kv ↦
            (sanitizeKey redact kv.1, walk heap redact same levels (id :: active) kv.2))
        else .str sanitizationFailed := by
  intro redact
  constructor
  · intro s hs secret hmem hstrip
    have hexact := hregisters.mem_exactValues.2 ⟨hmem, hstrip⟩
    have hsecret := hsecrets secret hexact
    exact of_occurs_walk (hregisters.conceals_sanitizeStringWith hpatterns hexact hsecret)
      (hsecret.conceals_tombstone (by decide)) (hsecret.conceals_tombstone (by decide)) _ []
        value hs
  · intro levels active id items hactive hheap
    rw [walk, if_neg hactive, hheap]
    simp only [sanitizeItems_eq _ items [] .nil, nil_append, pairwise_map]

/-- A secret with a quote in it, and a short one. -/
def sampleSecrets : List Str := [.lit "pass\"word", .lit "1234"]

def sampleBoundary : SecretBoundary := ⟨sampleSecrets, [.lit "pass\\\"word"]⟩

/-- A mapping that contains itself, with both secrets in it. -/
def sampleHeap (_ : Nat) : Container Unit :=
  .mapping [(.str (.lit "a pass\"word"), .str (.lit "1234")), (.other, .container 0)]

theorem no_secret_survives_sample : ∃ s, (sanitizeGraph sampleHeap
      (sampleBoundary.sanitizeStringWith []) (fun _ _ ↦ false) (.container 0)).Occurs s ∧
    Conceals (.lit "pass\"word") s := by
  have hregisters : Registers sampleSecrets sampleBoundary := by
    constructor <;> decide +kernel
  have hsecrets : ∀ secret ∈ sampleBoundary.exactValues, Concealable secret := by
    have hall : ∀ secret ∈ sampleBoundary.exactValues, CodePoint.scalar '<' ∉ secret ∧
        CodePoint.scalar '>' ∉ secret ∧ ∀ t ∈ tombstones, ¬ secret <:+: t := by decide +kernel
    exact fun secret hmem ↦ ⟨(hall secret hmem).1, (hall secret hmem).2.1, (hall secret hmem).2.2⟩
  have hpatterns : ∀ p ∈ ([] : List (Str → Str)), ∀ s, Replaces redactedSecret s (p s) := nofun
  obtain ⟨hconceals, hmapping⟩ := no_secret_survives hregisters hsecrets hpatterns sampleHeap
    (fun _ _ ↦ false) (.container 0)
  have hwalk := hmapping maxDepth [] 0 _ not_mem_nil rfl
  have hoccurs : (sanitizeGraph sampleHeap (sampleBoundary.sanitizeStringWith []) (fun _ _ ↦ false)
      (.container 0)).Occurs (sampleBoundary.sanitizeStringWith [] (.lit "a pass\"word")) := by
    exact .key mem_cons_self
  exact ⟨_, hoccurs, hconceals _ hoccurs _ (by decide) (by decide)⟩

end Boundary

end AgentGateway.SecretBoundary
