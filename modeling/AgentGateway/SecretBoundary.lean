import AgentGateway.Py.Redaction
import AgentGateway.Py.Values

/-!
# The secret boundary

Every text the process retains or streams crosses a `SecretBoundary`: registered secrets and
whatever looks like a credential are replaced by a fixed text, in strings at any depth and in the
keys of mappings.  A mapping two of whose keys become equal, and a subtree deeper than 32 levels,
are replaced by a tombstone.

* `SecretBoundary.sanitizeString`, `SecretBoundary.sanitize` and `sanitizeBoundaryValue` follow the
  class; `highConfidencePatterns` are its credential patterns.
* `sanitizeTypedBlocks` and `sanitizeToolEvent` project the content blocks and the events.
* `sanitizeString_eq_or_mark_mem`: a string is left alone, or it has a `<` in it afterwards.  So a
  text without a `<` can only come from itself, and a block keeps its type
  (`get?_type_sanitizeBlock`) and, if redaction leaves it alone, its id (`get?_id_sanitizeBlock`).
-/

namespace AgentGateway

open Py List

/-- An event of a session log, the dictionary an entry carries. -/
abbrev Event (F : Type) := Dict Str (Json F)

namespace SecretBoundary

variable {F : Type}

/-! ## Texts and patterns -/

def redactedSecret : Str := Str.lit "<redacted-secret>"

def sanitizationFailed : Str := Str.lit "<secret-sanitization-failed>"

def unsupportedValue : Str := Str.lit "<unsupported-boundary-value>"

def minSubstringSecretLength : Nat := 8

def maxDepth : Nat := 32

def projectedBlockTypes : List Str :=
  [Str.lit "tool_use", Str.lit "server_tool_use", Str.lit "tool_result"]

section Patterns

open Regex

/-- `[A-Za-z0-9_-]` -/
def tokenChar (p : CodePoint) : Bool := p.isAlnum || p.oneOf "_-"

/-- `[A-Za-z0-9._~+/=-]` under `re.IGNORECASE`, which adds the four letters beyond ASCII whose
lower or upper case is an ASCII letter. -/
def bearerChar (p : CodePoint) : Bool :=
  p.isAlnum || p.oneOf "._~+/=-" || p.ord == 0x130 || p.ord == 0x131 || p.ord == 0x17F ||
    p.ord == 0x212A

/-- `Bearer` under `re.IGNORECASE` -/
def bearerWord : Regex :=
  sequence (["Bb", "Ee", "Aa", "Rr", "Ee", "Rr"].map fun cs ↦ one (CodePoint.oneOf cs))

/-- `(?:[A-Z0-9]+ )?` -/
def keyKind : Regex :=
  opt (seq (many (fun p ↦ p.between 'A' 'Z' || p.isDigit) 1 true) (text (Str.lit " ")))

def highConfidencePatterns (tables : CharTables) : List Regex :=
  let b := boundary (CodePoint.isWord tables)
  let d := one (CodePoint.isDecimal tables)
  let t (s : String) := text (Str.lit s)
  [ sequence [b, t "sk-ant-", alt (sequence [t "api", d, d]) (sequence [t "oat", d, d]), t "-",
      many tokenChar 16 true, b],
    sequence [b, t "sk-", opt (seq (alt (t "proj") (t "svcacct")) (t "-")),
      many tokenChar 24 true, b],
    sequence [b, bearerWord, many CodePoint.isSpace 1 true, many bearerChar 20 true, b],
    sequence [t "-----BEGIN ", keyKind, t "PRIVATE KEY-----", many (fun _ ↦ true) 0 false,
      t "-----END ", keyKind, t "PRIVATE KEY-----"] ]

end Patterns

/-! ## Redaction -/

end SecretBoundary

/-- What a boundary knows: the registered secrets, longest first, and their JSON encodings. -/
structure SecretBoundary where
  exactValues : List Str
  jsonEscapedValues : List Str

namespace SecretBoundary

variable {F : Type}

/-- `SecretBoundary()`, with no secret registered -/
def unregistered : SecretBoundary := ⟨[], []⟩

/-- `text.replace(old, REDACTED_SECRET)` for a nonempty `old` -/
def redactAll (old s : Str) : Str := (Regex.text old).sub redactedSecret s

/-- One turn of the loop over the registered secrets. -/
def redactExact (s secret : Str) : Str :=
  if minSubstringSecretLength ≤ secret.length then redactAll secret s
  else if s = secret then redactedSecret else s

/-- `_sanitize_string`, with any patterns -/
def sanitizeStringWith (boundary : SecretBoundary) (patterns : List (Str → Str)) (value : Str) :
    Str :=
  let value := boundary.exactValues.foldl redactExact value
  let value := boundary.jsonEscapedValues.foldl (fun s escaped ↦ redactAll escaped s) value
  patterns.foldl (fun s pattern ↦ pattern s) value

/-- The substitutions of the credential patterns. -/
def substitutions (tables : CharTables) : List (Str → Str) :=
  (highConfidencePatterns tables).map fun pattern ↦ pattern.sub redactedSecret

def sanitizeString (boundary : SecretBoundary) (tables : CharTables) (value : Str) : Str :=
  boundary.sanitizeStringWith (substitutions tables) value

/-- `_sanitize`, with the number of levels that are left.  Two keys of a mapping that become equal
void the mapping. -/
def sanitizeLevels (r : Str → Str) : Nat → Json F → Json F
  | 0, _ => .str unsupportedValue
  | levels + 1, v =>
    match v with
    | .null | .bool _ | .int _ | .float _ => v
    | .str s => .str (r s)
    | .dict kvs =>
      if (kvs.map fun kv ↦ r kv.1).Nodup then
        .dict (kvs.map fun kv ↦ (r kv.1, sanitizeLevels r levels kv.2))
      else .str sanitizationFailed
    | .list xs => .list (xs.map (sanitizeLevels r levels))
    | .foreign => .str unsupportedValue

def sanitize (boundary : SecretBoundary) (tables : CharTables) (value : Json F) : Json F :=
  sanitizeLevels (boundary.sanitizeString tables) (maxDepth + 1) value

/-- `sanitize_boundary_value`; the walk over a JSON value raises nothing -/
def sanitizeBoundaryValue (boundary : SecretBoundary) (tables : CharTables) (value : Json F) :
    Json F :=
  boundary.sanitize tables value

/-! ## Content blocks and events -/

def sanitizationFailureToolInput : Json F :=
  .dict [(Str.lit "_boundary_error", .str sanitizationFailed)]

/-- A structurally valid, value-free block of a type. -/
def sanitizationFailureToolBlock (blockType : Str) : Dict Str (Json F) :=
  let safeId : Json F := .str (Str.lit "boundary-sanitization-failed")
  if blockType ∈ [Str.lit "tool_use", Str.lit "server_tool_use"] then
    [(Str.lit "type", .str blockType), (Str.lit "id", safeId),
      (Str.lit "name", .str (Str.lit "boundary_sanitization_failed")),
      (Str.lit "input", sanitizationFailureToolInput)]
  else
    [(Str.lit "type", .str (Str.lit "tool_result")), (Str.lit "tool_use_id", safeId),
      (Str.lit "content", .str sanitizationFailed), (Str.lit "is_error", .bool true)]

/-- The keys that say which call a block belongs to. -/
def identityKeys : List Str :=
  [Str.lit "type", Str.lit "id", Str.lit "name", Str.lit "tool_use_id", Str.lit "tool_call_id",
    Str.lit "tool_name"]

/-- The identity of a block, in the order of `identityKeys`. -/
def identity (block : Dict Str (Json F)) : Dict Str (Json F) :=
  identityKeys.filterMap fun key ↦ (block.lookup key).map fun v ↦ (key, v)

section Events

variable (I : Interp F) (boundary : SecretBoundary)

/-- One turn of the loop of `_sanitize_typed_blocks`. -/
def sanitizeBlock (everyBlock : Bool) (block : Json F) : Json F :=
  match block with
  | .dict kvs =>
    let blockType := strOr I kvs (Str.lit "type") []
    if everyBlock || blockType ∈ projectedBlockTypes then
      match boundary.sanitizeBoundaryValue I.tables block with
      | .dict safe => .dict safe
      | _ =>
        let tombstone : Dict Str (Json F) :=
          if blockType ∈ projectedBlockTypes then sanitizationFailureToolBlock blockType
          else [(Str.lit "type", .str (if blockType.isEmpty then Str.lit "text" else blockType)),
            (Str.lit "text", .str sanitizationFailed)]
        match boundary.sanitizeBoundaryValue I.tables (.dict (identity kvs)) with
        | .dict safeIdentity => .dict (tombstone.update safeIdentity)
        | _ => .dict tombstone
    else block
  | _ => block

def sanitizeTypedBlocks (everyBlock : Bool) (blocks : List (Json F)) : List (Json F) :=
  blocks.map (sanitizeBlock I boundary everyBlock)

/-- `projected[field] = sanitize_boundary_value(projected[field])`, if it is there -/
def sanitizeField (event : Event F) (field : Str) : Event F :=
  match event.lookup field with
  | some v => event.set field (boundary.sanitizeBoundaryValue I.tables v)
  | none => event

/-- `projected[field] = _sanitize_typed_blocks(projected[field])`, if it is a list -/
def sanitizeBlocksField (everyBlock : Bool) (event : Event F) (field : Str) : Event F :=
  match event.lookup field with
  | some (.list blocks) =>
    event.set field (.list (sanitizeTypedBlocks I boundary everyBlock blocks))
  | _ => event

def toolInputFields : List Str := [Str.lit "tool_input", Str.lit "display"]

/-- The calls of a `tool_calls_planned` event, with their inputs projected. -/
def sanitizeCalls (event : Event F) : Event F :=
  match event.lookup (Str.lit "calls") with
  | some (.list calls) =>
    event.set (Str.lit "calls") (.list (calls.map fun call ↦
      match call with
      | .dict kvs => .dict (toolInputFields.foldl (sanitizeField I boundary) kvs)
      | _ => call))
  | _ => event

/-- The fields whose whole value is projected, by type of the event. -/
def projectedFields (eventType : Str) : List Str :=
  if eventType ∈ [Str.lit "tool_call_start", Str.lit "tool_call_interrupted",
      Str.lit "tool_execute_request", Str.lit "tool_approval_request"] then toolInputFields
  else if eventType = Str.lit "tool_call_complete" then
    [Str.lit "error", Str.lit "semantic_error", Str.lit "dispatch", Str.lit "result"]
  else if eventType = Str.lit "tool_output_chunk" then [Str.lit "text", Str.lit "content"]
  else if eventType ∈ [Str.lit "error", Str.lit "run_error", Str.lit "stream_retry"] then
    [Str.lit "error", Str.lit "message", Str.lit "detail", Str.lit "reason"]
  else if eventType = Str.lit "runtime_guard" then [Str.lit "message"]
  else if eventType ∈ [Str.lit "readable_resource_ready", Str.lit "artifact_ready"] then
    [Str.lit "content", Str.lit "artifact", Str.lit "metadata"]
  else []

/-- The fields that hold typed blocks of which only the tool blocks are projected. -/
def blockFields (eventType : Str) : List Str :=
  if eventType = Str.lit "assistant_message" then [Str.lit "content_blocks"]
  else if eventType = Str.lit "runtime_guard" then [Str.lit "draft_content_blocks"]
  else if eventType = Str.lit "user_message" then [Str.lit "content", Str.lit "analyst_content"]
  else []

def sanitizeToolEvent (event : Event F) : Event F :=
  let eventType := strOr I event (Str.lit "type") []
  let event :=
    if eventType = Str.lit "tool_calls_planned" then sanitizeCalls I boundary event
    else if eventType = Str.lit "tool_call_complete" then
      sanitizeBlocksField I boundary true event (Str.lit "final_tool_result_blocks")
    else event
  let event := (projectedFields eventType).foldl (sanitizeField I boundary) event
  (blockFields eventType).foldl (sanitizeBlocksField I boundary false) event

end Events

/-! ## What redaction leaves alone -/

/-- The character every replacement text has. -/
def mark : CodePoint := .scalar '<'

theorem replaces_redactExact (s secret : Str) :
    Replaces redactedSecret s (redactExact s secret) := by
  unfold redactExact
  split
  · exact Regex.replaces_sub _ _ s
  · split
    · have hcut : Replaces redactedSecret (s ++ []) (redactedSecret ++ []) := .cut s .nil
      rwa [append_nil, append_nil] at hcut
    · exact .refl _ s

theorem replaces_substitutions (tables : CharTables) :
    ∀ p ∈ substitutions tables, ∀ s, Replaces redactedSecret s (p s) := by
  intro p hp s
  obtain ⟨r, -, rfl⟩ := mem_map.1 hp
  exact r.replaces_sub redactedSecret s

/-- **Redaction leaves a string as it is, or leaves a `<` in it.** -/
theorem sanitizeString_eq_or_mark_mem (boundary : SecretBoundary) (tables : CharTables)
    (s : Str) : boundary.sanitizeString tables s = s ∨ mark ∈ boundary.sanitizeString tables s := by
  have hkeep : ∀ u t, Replaces redactedSecret u t → u = s ∨ mark ∈ u → t = s ∨ mark ∈ t := by
    intro u t hut hu
    by_cases hmark : mark ∈ t
    · exact .inr hmark
    · rwa [hut.eq_source ⟨mark, rfl, hmark⟩]
  exact of_foldl_replaces hkeep (replaces_substitutions tables)
    (of_foldl_replaces hkeep (fun _ _ s ↦ Regex.replaces_sub _ _ s)
      (of_foldl_replaces hkeep (fun secret _ s ↦ replaces_redactExact s secret) (.inl rfl)))

/-- A text without a `<` that redaction leaves alone comes from nothing but itself. -/
theorem sanitizeString_eq_iff {boundary : SecretBoundary} {tables : CharTables} {t : Str}
    (hmark : mark ∉ t) (hfix : boundary.sanitizeString tables t = t) (s : Str) :
    boundary.sanitizeString tables s = t ↔ s = t := by
  constructor
  · intro h
    rcases boundary.sanitizeString_eq_or_mark_mem tables s with heq | hmem
    · exact heq.symm.trans h
    · exact absurd (h ▸ hmem) hmark
  · rintro rfl
    exact hfix

/-- A character some credential pattern needs. -/
def Telling (p : CodePoint) : Prop := p = .scalar '-' ∨ p.isSpace = true

instance : DecidablePred Telling := fun p ↦
  inferInstanceAs (Decidable (p = .scalar '-' ∨ p.isSpace = true))

/-- Every credential pattern needs a dash or a blank. -/
theorem needs_highConfidencePatterns (tables : CharTables) :
    ∀ r ∈ highConfidencePatterns tables, r.Needs Telling := by
  have hdash {s : String} (h : CodePoint.scalar '-' ∈ Str.lit s) :
      (Regex.text (Str.lit s)).Needs Telling :=
    .text h (.inl rfl)
  intro r hr
  simp only [highConfidencePatterns, mem_cons, not_mem_nil, or_false] at hr
  rcases hr with rfl | rfl | rfl | rfl
  · exact .sequence (mem_cons_of_mem _ mem_cons_self) (hdash (by decide))
  · exact .sequence (mem_cons_of_mem _ mem_cons_self) (hdash (by decide))
  · exact .sequence (mem_cons_of_mem _ (mem_cons_of_mem _ mem_cons_self))
      (.many Nat.one_pos fun _ ↦ .inr)
  · exact .sequence mem_cons_self (hdash (by decide))

/-- **With no secret registered, a text without dashes and blanks is left alone.** -/
theorem sanitizeString_unregistered (tables : CharTables) {s : Str} (h : ∀ p ∈ s, ¬ Telling p) :
    unregistered.sanitizeString tables s = s := by
  have hfold : ∀ ps : List (Str → Str), (∀ p ∈ ps, p s = s) →
      ps.foldl (fun s pattern ↦ pattern s) s = s := by
    intro ps hps
    induction ps with
    | nil => rfl
    | cons p ps ih =>
      rw [foldl_cons, hps p mem_cons_self]
      exact ih fun p hp ↦ hps p (mem_cons_of_mem _ hp)
  refine hfold _ (forall_mem_map.2 fun r hr ↦ ?_)
  exact (needs_highConfidencePatterns tables r hr).sub_eq_self redactedSecret h

/-- The keys a reader of blocks goes by survive a boundary with no registered secret. -/
theorem sanitizeString_identityKeys (tables : CharTables) :
    ∀ key ∈ identityKeys, mark ∉ key ∧ unregistered.sanitizeString tables key = key := by
  have h : ∀ key ∈ identityKeys, mark ∉ key ∧ ∀ p ∈ key, ¬ Telling p := by decide
  exact fun key hkey ↦ ⟨(h key hkey).1, sanitizeString_unregistered tables (h key hkey).2⟩

theorem sanitizeString_blockTypes (tables : CharTables) :
    ∀ t ∈ projectedBlockTypes, mark ∉ t ∧ unregistered.sanitizeString tables t = t := by
  have h : ∀ t ∈ projectedBlockTypes, mark ∉ t ∧ ∀ p ∈ t, ¬ Telling p := by decide
  exact fun t ht ↦ ⟨(h t ht).1, sanitizeString_unregistered tables (h t ht).2⟩

/-! ## What a block keeps

With no secret registered a block is still a block afterwards, of the same type and with the same
id, unless the id itself looks like a credential. -/

section Blocks

variable (I : Interp F)

/-- The string redaction of a boundary with no registered secret. -/
abbrev redact : Str → Str := unregistered.sanitizeString I.tables

variable {I}

variable {kvs : Dict Str (Json F)}

theorem lookup_identity {key : Str} (hkey : key ∈ identityKeys) :
    (identity kvs).lookup key = kvs.lookup key := by
  have hgen : ∀ l : List Str, (l.filterMap fun key ↦ (kvs.lookup key).map fun v ↦ (key, v)).lookup
      key = if key ∈ l then kvs.lookup key else none := by
    intro l
    induction l with
    | nil => rfl
    | cons k l ih =>
      by_cases hk : key = k
      · subst hk
        cases hv : kvs.lookup key with
        | none => simp [hv, ih]
        | some => simp [hv]
      · cases hv : kvs.lookup k with
        | none => simp [hv, ih, hk]
        | some => simp [hv, ih, hk, lookup_cons, beq_eq_false_iff_ne.2 hk]
  rw [identity, hgen, if_pos hkey]

theorem keys_identity_sublist (kvs : Dict Str (Json F)) :
    List.Sublist ((identity kvs).map Prod.fst) identityKeys := by
  have hgen : ∀ l : List Str,
      List.Sublist ((l.filterMap fun key ↦ (kvs.lookup key).map fun v ↦ (key, v)).map Prod.fst)
        l := by
    intro l
    induction l with
    | nil => exact List.Sublist.refl _
    | cons k l ih =>
      cases hv : kvs.lookup k with
      | none => simpa [hv] using ih.cons k
      | some => simpa [hv] using ih.cons_cons k
  exact hgen identityKeys

/-- The items of a mapping after redaction, at a key that redaction leaves alone. -/
theorem lookup_redacted {key : Str} (hkey : key ∈ identityKeys) (f : Json F → Json F) :
    (kvs.map fun kv ↦ (redact I kv.1, f kv.2)).lookup key = (kvs.lookup key).map f :=
  have h := sanitizeString_identityKeys I.tables key hkey
  Dict.lookup_map_of_iff (sanitizeString_eq_iff h.1 h.2)

/-- The identity of a block, after redaction, has the keys it had. -/
theorem keys_redacted_identity (kvs : Dict Str (Json F)) :
    ((identity kvs).map fun kv ↦ redact I kv.1) = (identity kvs).map Prod.fst :=
  map_congr_left fun kv hkv ↦ (sanitizeString_identityKeys I.tables kv.1
    ((keys_identity_sublist kvs).subset (mem_map_of_mem hkv))).2

theorem nodup_keys_redacted_identity (kvs : Dict Str (Json F)) :
    ((identity kvs).map fun kv ↦ redact I kv.1).Nodup := by
  rw [keys_redacted_identity]
  exact (show identityKeys.Nodup by decide).sublist (keys_identity_sublist kvs)

/-- So it is sanitized to a mapping, whatever the block. -/
theorem sanitize_identity (kvs : Dict Str (Json F)) :
    unregistered.sanitizeBoundaryValue I.tables (.dict (identity kvs)) =
      .dict ((identity kvs).map fun kv ↦
        (redact I kv.1, sanitizeLevels (redact I) maxDepth kv.2)) :=
  if_pos (nodup_keys_redacted_identity kvs)

/-- Is the block one of those that are projected? -/
def Projected (I : Interp F) (everyBlock : Bool) (kvs : Dict Str (Json F)) : Prop :=
  (everyBlock || strOr I kvs (Str.lit "type") [] ∈ projectedBlockTypes) = true

theorem sanitizeBlock_of_not_projected {everyBlock : Bool} (h : ¬ Projected I everyBlock kvs)
    (boundary : SecretBoundary) :
    sanitizeBlock I boundary everyBlock (.dict kvs) = .dict kvs :=
  if_neg h

/-- **A projected block is a mapping again, and keeps the entries that identify it** up to
redaction, whether its body survives or is replaced by a tombstone. -/
theorem sanitizeBlock_of_projected {everyBlock : Bool} (h : Projected I everyBlock kvs) :
    ∃ kvs', sanitizeBlock I unregistered everyBlock (.dict kvs) = .dict kvs' ∧
      ∀ key ∈ identityKeys, ∀ v, kvs.lookup key = some v →
        kvs'.lookup key = some (sanitizeLevels (redact I) maxDepth v) := by
  have hbody : unregistered.sanitizeBoundaryValue I.tables (.dict kvs) =
      if (kvs.map fun kv ↦ redact I kv.1).Nodup then
        .dict (kvs.map fun kv ↦ (redact I kv.1, sanitizeLevels (redact I) maxDepth kv.2))
      else .str sanitizationFailed := rfl
  unfold Projected at h
  unfold sanitizeBlock
  dsimp only
  rw [if_pos h, hbody, sanitize_identity]
  split
  next safe heq =>
    split at heq
    · cases heq
      refine ⟨_, rfl, fun key hkey v hv ↦ ?_⟩
      rw [lookup_redacted hkey, hv, Option.map_some]
    · cases heq
  · refine ⟨_, rfl, fun key hkey v hv ↦ ?_⟩
    have hkeys : (((identity kvs).map fun kv ↦
        (redact I kv.1, sanitizeLevels (redact I) maxDepth kv.2)).map Prod.fst).Nodup := by
      rw [map_map]
      exact nodup_keys_redacted_identity kvs
    rw [Dict.lookup_update hkeys, lookup_redacted hkey, lookup_identity hkey, hv, Option.map_some]
    rfl

/-- A string without a `<` in a sanitized value was there before. -/
theorem sanitizeLevels_eq_str_iff {t : Str} (hmark : mark ∉ t) (hfix : redact I t = t) (n : Nat)
    (v : Json F) : sanitizeLevels (redact I) (n + 1) v = .str t ↔ v = .str t := by
  have hne : ∀ s : Str, mark ∈ s → Json.str (F := F) s ≠ .str t := by
    intro s hs heq
    exact hmark (Json.str.inj heq ▸ hs)
  cases v with
  | str s =>
    simp only [sanitizeLevels, Json.str.injEq]
    exact sanitizeString_eq_iff hmark hfix s
  | dict =>
    unfold sanitizeLevels
    dsimp only
    split
    · exact ⟨nofun, nofun⟩
    · exact ⟨fun h ↦ absurd h (hne _ (by decide)), nofun⟩
  | foreign => exact ⟨fun h ↦ absurd h (hne _ (by decide)), nofun⟩
  | null => exact Iff.rfl
  | bool => exact Iff.rfl
  | int => exact Iff.rfl
  | float => exact Iff.rfl
  | list => exact ⟨nofun, nofun⟩

theorem lookup_type_of_projected (h : Projected I false kvs) :
    ∃ v, kvs.lookup (Str.lit "type") = some v := by
  unfold Projected strOr at h
  split at h
  next v hv => exact ⟨v, hv⟩
  · have hempty : ([] : Str) ∉ projectedBlockTypes := by decide
    simp [hempty] at h

/-- **A block has the type of a tool block after sanitization exactly if it had it before.** -/
theorem get?_type_sanitizeBlock {t : Str} (ht : t ∈ projectedBlockTypes) (kvs : Dict Str (Json F)) :
    (sanitizeBlock I unregistered false (.dict kvs)).get? (Str.lit "type") = some (.str t) ↔
      kvs.lookup (Str.lit "type") = some (.str t) := by
  by_cases h : Projected I false kvs
  · obtain ⟨kvs', heq, hkeys⟩ := sanitizeBlock_of_projected h
    obtain ⟨v, hv⟩ := lookup_type_of_projected h
    have hfix := sanitizeString_blockTypes I.tables t ht
    rw [heq, Json.get?, hkeys _ mem_cons_self v hv, hv, Option.some_inj, Option.some_inj]
    exact sanitizeLevels_eq_str_iff hfix.1 hfix.2 _ v
  · rw [sanitizeBlock_of_not_projected h]
    rfl

/-- **A block keeps its id, unless redaction changes the id.** -/
theorem get?_id_sanitizeBlock {id : Str} (hid : kvs.lookup (Str.lit "id") = some (.str id))
    (hfix : redact I id = id) :
    (sanitizeBlock I unregistered false (.dict kvs)).get? (Str.lit "id") = some (.str id) := by
  by_cases h : Projected I false kvs
  · obtain ⟨kvs', heq, hkeys⟩ := sanitizeBlock_of_projected h
    rw [heq, Json.get?, hkeys _ (by decide) _ hid]
    exact congrArg (fun s ↦ some (Json.str s)) hfix
  · rw [sanitizeBlock_of_not_projected h]
    exact hid

theorem sanitizeBlock_dict (kvs : Dict Str (Json F)) :
    ∃ kvs', sanitizeBlock I unregistered false (.dict kvs) = .dict kvs' := by
  by_cases h : Projected I false kvs
  · obtain ⟨kvs', heq, -⟩ := sanitizeBlock_of_projected h
    exact ⟨kvs', heq⟩
  · exact ⟨kvs, sanitizeBlock_of_not_projected h _⟩

end Blocks

/-! ## What an event keeps -/

section EventLookup

variable {I : Interp F} {boundary : SecretBoundary} {event : Event F} {key field : Str}

theorem lookup_sanitizeField_of_ne (h : key ≠ field) :
    (sanitizeField I boundary event field).lookup key = event.lookup key := by
  unfold sanitizeField
  split
  · rw [Dict.lookup_set, if_neg h]
  · rfl

theorem lookup_sanitizeBlocksField_of_ne {everyBlock : Bool} (h : key ≠ field) :
    (sanitizeBlocksField I boundary everyBlock event field).lookup key = event.lookup key := by
  unfold sanitizeBlocksField
  split
  · rw [Dict.lookup_set, if_neg h]
  · rfl

/-- The blocks of a list are sanitized one by one; what is not a list is left alone. -/
def sanitizeBlocksValue (I : Interp F) (boundary : SecretBoundary) : Json F → Json F
  | .list blocks => .list (blocks.map (sanitizeBlock I boundary false))
  | v => v

theorem lookup_sanitizeBlocksField :
    (sanitizeBlocksField I boundary false event field).lookup field =
      (event.lookup field).map (sanitizeBlocksValue I boundary) := by
  unfold sanitizeBlocksField
  split
  next blocks heq =>
    rw [Dict.lookup_set, if_pos rfl, heq]
    rfl
  next hne =>
    cases hv : event.lookup field with
    | none => rfl
    | some =>
      rw [Option.map_some]
      unfold sanitizeBlocksValue
      split
      next blocks => exact absurd hv (hne blocks)
      · rfl

theorem sanitizeToolEvent_assistant_message
    (h : strOr I event (Str.lit "type") [] = Str.lit "assistant_message") :
    sanitizeToolEvent I boundary event =
      sanitizeBlocksField I boundary false event (Str.lit "content_blocks") := by
  unfold sanitizeToolEvent
  rw [h]
  rfl

theorem sanitizeToolEvent_runtime_guard
    (h : strOr I event (Str.lit "type") [] = Str.lit "runtime_guard") :
    sanitizeToolEvent I boundary event =
      sanitizeBlocksField I boundary false (sanitizeField I boundary event (Str.lit "message"))
        (Str.lit "draft_content_blocks") := by
  unfold sanitizeToolEvent
  rw [h]
  rfl

end EventLookup

end SecretBoundary

end AgentGateway
