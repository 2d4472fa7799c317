import AgentGateway.Py.Calls
import AgentGateway.Py.Dict
import AgentGateway.Py.JsonAscii

/-!
# `json.loads` and `json.dumps` without options

Without hooks `json.loads` builds dictionaries as assignments do, the last value of a key counting,
and it reads `NaN`, `Infinity` and `-Infinity` as floats, which `json.dumps` writes as it finds
them.  `PyFloatNames` are the floats with these three.

* `indented` is the style of `indent=1, ensure_ascii=False` and `oneLine` the default one; what
  either writes is read back (`loads_indented`, `loads_oneLine`).
* What comes out of `json.loads` has distinct keys (`uniqueKeys_of_loads`), and in none of its
  strings does a low surrogate follow a high one (`allStr_of_loads`), since the scanner joins such
  pairs.  Both follow from a rule for whatever holds of the parts that the scanner puts together
  (`of_loads`).
-/

open List

namespace Py

/-! ## Floats that are not finite -/

/-- Python's `float`, with the names `json` has for those that are not finite. -/
class PyFloatNames (F : Type) extends PyFloat F where
  name : F → String
  ofName : String → F
  name_mem : ∀ x, isFinite x = false → name x ∈ ["NaN", "Infinity", "-Infinity"]
  ofName_name : ∀ x, isFinite x = false → ofName (name x) = x

/-- Floats that are kept as the text they were read from, and the three that are not finite. -/
inductive TokenFloat where
  | token (t : NumToken) (h : (t.valid && t.isFloat) = true)
  | nan
  | infinity
  | negInfinity
deriving DecidableEq

namespace TokenFloat

def ofToken (t : NumToken) : TokenFloat :=
  if h : (t.valid && t.isFloat) = true then token t h else nan

instance : PyFloatNames TokenFloat where
  isFinite
    | token _ _ => true
    | _ => false
  repr
    | token t _ => t
    | _ => ⟨false, [], none, none⟩
  ofToken := ofToken
  repr_valid
    | token _ h, _ => Bool.and_eq_true_iff.1 h
  ofToken_repr
    | token t h, _ => dif_pos h
  name
    | infinity => "Infinity"
    | negInfinity => "-Infinity"
    | _ => "NaN"
  ofName w := if w = "Infinity" then infinity else if w = "-Infinity" then negInfinity else nan
  name_mem
    | nan, _ => by simp
    | infinity, _ => by simp
    | negInfinity, _ => by simp
  ofName_name
    | nan, _ => rfl
    | infinity, _ => rfl
    | negInfinity, _ => rfl

end TokenFloat

variable {F : Type}

variable {v : Json F} {s : List Char}

section Floats

variable [PyFloatNames F]

/-- How `json.dumps` writes a float. -/
def floatText (x : F) : List Char :=
  if PyFloat.isFinite x then (PyFloat.repr x).text else (PyFloatNames.name x).toList

/-- `json.loads` without options -/
def plainHooks : LoadsHooks F Unit where
  invalid := ()
  objectPairsHook pairs := .ok (.dict (Dict.update [] pairs))
  parseConstant _ := ()
  constant w := some (PyFloatNames.ofName w)

theorem startsValue_floatText (x : F) : startsValue (floatText x) := by
  rw [floatText]
  split
  next hfinite => exact NumToken.startsValue_text (PyFloat.repr_valid x hfinite).1
  next hnot =>
    have hmem := PyFloatNames.name_mem x (Bool.eq_false_iff.2 hnot)
    simp only [mem_cons, not_mem_nil, or_false] at hmem
    rcases hmem with h | h | h
    · exact ⟨'N', ['a', 'N'], by rw [h]; rfl, by decide, by decide, by decide⟩
    · exact ⟨'I', "nfinity".toList, by rw [h]; rfl, by decide, by decide, by decide⟩
    · exact ⟨'-', "Infinity".toList, by rw [h]; rfl, by decide, by decide, by decide⟩

theorem readsBack_floatText (x : F) : ReadsBack plainHooks (floatText x) (.float x) := by
  intro n r _ hr
  rw [floatText]
  split
  next hfinite =>
    exact scanOnce_number plainHooks (PyFloat.repr_valid x hfinite).1 (numberValue_repr hfinite) hr
  next hnot =>
    have hback := PyFloatNames.ofName_name x (Bool.eq_false_iff.2 hnot)
    have hmem := PyFloatNames.name_mem x (Bool.eq_false_iff.2 hnot)
    simp only [mem_cons, not_mem_nil, or_false] at hmem
    have hconst (w : String) (hw : PyFloatNames.name x = w) :
        scanConstant plainHooks w (w.toList ++ r) = .ok (.float x, r) := by
      rw [← hw]
      simp only [scanConstant, plainHooks, hback]
      rw [← String.length_toList, drop_left]
    rcases hmem with h | h | h
    · rw [h]
      exact hconst "NaN" h
    · rw [h]
      exact hconst "Infinity" h
    · rw [h]
      exact hconst "-Infinity" h

/-! ## Characters of escapes -/

variable {n : Nat}

theorem printable_digitChar (h : n < 16) :
    0x20 ≤ (Nat.digitChar n).toNat ∧ (Nat.digitChar n).toNat ≤ 0x7e := by
  revert h
  revert n
  decide

theorem printable_hexEscape (hn : n < 0x10000) :
    ∀ c ∈ hexEscape n, 0x20 ≤ c.toNat ∧ c.toNat ≤ 0x7e := by
  simp only [hexEscape, forall_mem_cons]
  refine ⟨by decide, by decide, printable_digitChar (by omega), printable_digitChar (by omega),
    printable_digitChar (by omega), printable_digitChar (by omega), by simp⟩

theorem printable_escapeChar {c : Char} (hc : c.toNat ≤ 0x7e) :
    ∀ d ∈ escapeChar c, 0x20 ≤ d.toNat ∧ d.toNat ≤ 0x7e := by
  have hall : ∀ n < 0x7f, (escapeChar (Char.ofNat n)).all
      fun d ↦ decide (0x20 ≤ d.toNat ∧ d.toNat ≤ 0x7e) := by decide +kernel
  have := hall c.toNat (by omega)
  rw [Char.ofNat_toNat, all_eq_true] at this
  exact fun d hd ↦ of_decide_eq_true (this d hd)

/-- With `ensure_ascii=True` only printable characters are written. -/
theorem printable_escapeAscii (s : Str) : ∀ c ∈ escapeAscii s, 0x20 ≤ c.toNat ∧ c.toNat ≤ 0x7e := by
  intro c hc
  obtain ⟨p, -, hp⟩ := mem_flatMap.1 hc
  cases p with
  | scalar =>
    rw [CodePoint.escapeAscii] at hp
    split at hp
    next hle => exact printable_escapeChar hle c hp
    · obtain ⟨q, hq, hcq⟩ := mem_flatMap.1 hp
      exact printable_hexEscape (CodePoint.ord_units_lt hq) c hcq
  | surrogate => exact printable_hexEscape (by omega) c hp

/-! ## Reading back -/

namespace Json

/-- `indent=1, ensure_ascii=False` -/
def indented : Style F where
  esc := escapeStr
  float := floatText
  before depth := '\n' :: List.replicate (depth + 1) ' '
  between depth := '\n' :: List.replicate (depth + 1) ' '
  after depth := '\n' :: List.replicate depth ' '
  colon := [' ']

/-- The style of `json.dumps` if no separators are set. -/
def oneLine (esc : Str → List Char) : Style F where
  esc := esc
  float := floatText
  before _ := []
  between _ := [' ']
  after _ := []
  colon := [' ']

end Json

theorem keepsDistinct_plainHooks : KeepsDistinct (plainHooks (F := F)) := by
  intro kvs hnodup
  simp only [plainHooks, Dict.update_nil hnodup]

theorem isWs_newline : ∀ c ∈ '\n' :: List.replicate n ' ', isWs c = true := by
  intro c hc
  rcases mem_cons.1 hc with rfl | hc
  · rfl
  · rw [eq_of_mem_replicate hc]
    rfl

theorem isWs_space : ∀ c ∈ [' '], isWs c = true := by
  intro c hc
  rw [mem_singleton.1 hc]
  rfl

theorem styleReadsBack_indented :
    StyleReadsBack plainHooks (Json.indented (F := F)) strEncodable fun _ ↦ true where
  strings := scanString_escapeStr
  floatStarts x _ := startsValue_floatText x
  floats x _ := readsBack_floatText x
  before _ := isWs_newline
  between _ := isWs_newline
  after _ := isWs_newline
  colon := isWs_space

/-- **A value is read back from its indented text.** -/
theorem loads_indented (hadm : v.admits strEncodable (fun _ ↦ true) = true) (hu : v.UniqueKeys) :
    loads plainHooks (v.render Json.indented 0) = .ok v :=
  loads_render keepsDistinct_plainHooks styleReadsBack_indented hadm hu

theorem styleReadsBack_oneLine {esc : Str → List Char} {ok : Str → Bool}
    (hstr : StringsReadBack esc ok) :
    StyleReadsBack plainHooks (Json.oneLine (F := F) esc) ok fun _ ↦ true where
  strings := hstr
  floatStarts x _ := startsValue_floatText x
  floats x _ := readsBack_floatText x
  before _ := by simp [Json.oneLine]
  between _ := isWs_space
  after _ := by simp [Json.oneLine]
  colon := isWs_space

theorem loads_oneLine {esc : Str → List Char} {ok : Str → Bool} (hstr : StringsReadBack esc ok)
    (hadm : v.admits ok (fun _ ↦ true) = true) (hu : v.UniqueKeys) :
    loads plainHooks (v.render (Json.oneLine esc) 0) = .ok v :=
  loads_render keepsDistinct_plainHooks (styleReadsBack_oneLine hstr) hadm hu

/-! ## What the scanner puts together -/

section Scan

variable {ε : Type} {hooks : LoadsHooks F ε} {P : Json F → Prop}

/-- What holds of every atom, and of a list and of what the hook makes of pairs if it holds of the
items, holds of whatever the scanner reads. -/
theorem scan_induction (hatom : ∀ s v r, scanAtom hooks s = .ok (v, r) → P v)
    (hlist : ∀ xs, (∀ x ∈ xs, P x) → P (.list xs))
    (hhook : ∀ kvs v, (∀ kv ∈ kvs, P kv.2) → hooks.objectPairsHook kvs = .ok v → P v) (n : Nat) :
    (∀ s v r, scanOnce hooks n s = .ok (v, r) → P v) ∧
      (∀ s xs r, scanItems hooks n s = .ok (xs, r) → ∀ x ∈ xs, P x) ∧
      ∀ s kvs r, scanPairs hooks n s = .ok (kvs, r) → ∀ kv ∈ kvs, P kv.2 := by
  induction n with
  | zero =>
    refine ⟨fun s v r h ↦ ?_, fun s xs r h ↦ ?_, fun s kvs r h ↦ ?_⟩
    · rw [scanOnce] at h; cases h
    · rw [scanItems] at h; cases h
    · rw [scanPairs] at h; cases h
  | succ n ih =>
    obtain ⟨hone, hitems, hpairs⟩ := ih
    have hmap {kvs : List (Str × Json F)} {t r : List Char} {v : Json F}
        (hkvs : ∀ kv ∈ kvs, P kv.2)
        (h : (hooks.objectPairsHook kvs).map (·, t) = .ok (v, r)) : P v := by
      obtain ⟨w, hw, hwv⟩ := map_eq_ok_iff.1 h
      cases hwv
      exact hhook kvs v hkvs hw
    refine ⟨fun s v r h ↦ ?_, fun s xs r h ↦ ?_, fun s kvs r h ↦ ?_⟩
    · rw [scanOnce.eq_def] at h
      dsimp only at h
      split at h
      · split at h
        · exact hmap (by simp) h
        · split at h
          · cases h
          next hscan => exact hmap (hpairs _ _ _ hscan) h
      · split at h
        · cases h
          exact hlist [] (by simp)
        · split at h
          · cases h
          next hscan =>
            cases h
            exact hlist _ (hitems _ _ _ hscan)
      · exact hatom _ _ _ h
    · rw [scanItems.eq_def] at h
      dsimp only at h
      split at h
      · cases h
      next hscan =>
        have hhead := hone _ _ _ hscan
        split at h
        · cases h
          exact fun x hx ↦ mem_singleton.1 hx ▸ hhead
        · split at h
          · cases h
          next hrest =>
            cases h
            exact forall_mem_cons.2 ⟨hhead, hitems _ _ _ hrest⟩
        · cases h
    · rw [scanPairs.eq_def] at h
      dsimp only at h
      split at h
      · split at h
        · cases h
        · split at h
          · split at h
            · cases h
            next hscan =>
              have hhead := hone _ _ _ hscan
              split at h
              · cases h
                exact fun kv hkv ↦ mem_singleton.1 hkv ▸ hhead
              · split at h
                · cases h
                next hrest =>
                  cases h
                  exact forall_mem_cons.2 ⟨hhead, hpairs _ _ _ hrest⟩
              · cases h
          · cases h
      · cases h

/-- **What holds of the parts holds of what is read.** -/
theorem of_loads (hatom : ∀ s v r, scanAtom hooks s = .ok (v, r) → P v)
    (hlist : ∀ xs, (∀ x ∈ xs, P x) → P (.list xs))
    (hhook : ∀ kvs v, (∀ kv ∈ kvs, P kv.2) → hooks.objectPairsHook kvs = .ok v → P v)
    (h : loads hooks s = .ok v) : P v := by
  rw [loads] at h
  split at h
  · cases h
  next hscan =>
    split at h
    · cases h
      exact (scan_induction hatom hlist hhook _).1 _ _ _ hscan
    · cases h

/-- What an atom can be. -/
theorem scanAtom_cases {r : List Char} (h : scanAtom hooks s = .ok (v, r)) :
    (∃ t, v = .str (joinSurrogates t)) ∨ v = .null ∨ (∃ b, v = .bool b) ∨ (∃ n, v = .int n) ∨
      ∃ x, v = .float x := by
  have hconst {w : String} {s : List Char} (h : scanConstant hooks w s = .ok (v, r)) :
      ∃ x, v = .float x := by
    rw [scanConstant] at h
    split at h
    next x _ =>
      cases h
      exact ⟨x, rfl⟩
    · cases h
  have hnumber {t : NumToken} (h : numberValue t = some v) : (∃ n, v = .int n) ∨
    ∃ x, v = .float x := by
    rw [numberValue] at h
    split at h
    · cases h
      exact .inr ⟨_, rfl⟩
    · split at h
      · cases h
        exact .inl ⟨_, rfl⟩
      · cases h
  rw [scanAtom.eq_def] at h
  split at h
  · split at h
    next t r' hscan =>
      cases h
      rw [scanString, Option.map_eq_some_iff] at hscan
      obtain ⟨p, -, hp⟩ := hscan
      cases hp
      exact .inl ⟨p.1, rfl⟩
    · cases h
  · split at h
    · cases h; exact .inr (.inl rfl)
    · split at h
      · cases h; exact .inr (.inr (.inl ⟨true, rfl⟩))
      · split at h
        · cases h; exact .inr (.inr (.inl ⟨false, rfl⟩))
        · split at h
          · exact .inr (.inr (.inr (.inr (hconst h))))
          · split at h
            · exact .inr (.inr (.inr (.inr (hconst h))))
            · split at h
              · exact .inr (.inr (.inr (.inr (hconst h))))
              · split at h
                · cases h
                · split at h
                  next hvalue =>
                    cases h
                    exact .inr (.inr (.inr (hnumber hvalue)))
                  · cases h

end Scan

/-! ## What comes out of `json.loads` -/

/-- The keys of every object are distinct. -/
theorem uniqueKeys_of_loads (h : loads plainHooks s = .ok v) :
    v.UniqueKeys := by
  refine of_loads (P := Json.UniqueKeys) (fun s v r h ↦ ?_) (fun xs hxs ↦ ?_)
    (fun kvs v hkvs h ↦ ?_) h
  · rcases scanAtom_cases h with ⟨t, rfl⟩ | rfl | ⟨b, rfl⟩ | ⟨n, rfl⟩ | ⟨x, rfl⟩ <;> trivial
  · rwa [Json.uniqueKeys_list_iff]
  · cases h
    rw [Json.uniqueKeys_dict_iff]
    refine ⟨Dict.nodup_keys_update (d := []) nodup_nil kvs, fun kv hkv ↦ ?_⟩
    rcases Dict.mem_of_mem_update hkv with hkv | hkv
    · cases hkv
    · exact hkvs kv hkv

end Floats

namespace Json

variable {ok : Str → Prop}

/-- Every string that is a value satisfies `ok`. -/
def AllStr (ok : Str → Prop) : Json F → Prop :=
  fold
    (fun
      | .str s => ok s
      | _ => True)
    (∀ p ∈ ·, p) fun _ ps ↦ ∀ p ∈ ps, p

theorem allStr_list_iff {xs : List (Json F)} :
    (Json.list xs).AllStr ok ↔ ∀ x ∈ xs, x.AllStr ok := by
  rw [AllStr, fold_list, forall_mem_map]

theorem allStr_dict_iff {kvs : List (Str × Json F)} :
    (Json.dict kvs).AllStr ok ↔ ∀ kv ∈ kvs, kv.2.AllStr ok := by
  rw [AllStr, fold_dict, forall_mem_map]

end Json

/-! ## Surrogate pairs -/

/-- A low surrogate follows a high one. -/
def isSurrogatePair : CodePoint → CodePoint → Prop
  | .surrogate m, .surrogate n => m.val < 1024 ∧ 1024 ≤ n.val
  | _, _ => False

/-- Joining leaves the first code point alone, or makes a character of it. -/
theorem head_joinSurrogates {s : Str} {q : CodePoint} (h : q ∈ (joinSurrogates s).head?) :
    s.head? = some q ∨ ∃ c, q = .scalar c := by
  fun_induction joinSurrogates s with
  | case1 m n s hpair ih =>
    cases h
    exact .inr ⟨_, rfl⟩
  | case2 m n s hpair ih =>
    cases h
    exact .inl rfl
  | case3 p s hnext ih =>
    cases h
    exact .inl rfl
  | case4 => cases h

theorem isChain_joinSurrogates (s : Str) :
    (joinSurrogates s).IsChain fun p q ↦ ¬ isSurrogatePair p q := by
  fun_induction joinSurrogates s with
  | case1 m n s hpair ih =>
    rw [isChain_cons]
    exact ⟨fun q _ ↦ id, ih⟩
  | case2 m n s hpair ih =>
    rw [isChain_cons]
    refine ⟨fun q hq ↦ ?_, ih⟩
    rcases head_joinSurrogates hq with hhead | ⟨c, rfl⟩
    · cases hhead
      exact hpair
    · exact id
  | case3 p s hnext ih =>
    rw [isChain_cons]
    refine ⟨fun q hq ↦ ?_, ih⟩
    rcases head_joinSurrogates hq with hhead | ⟨c, rfl⟩
    · cases s with
      | nil => cases hhead
      | cons p' s =>
        cases hhead
        cases p with
        | scalar => exact id
        | surrogate m =>
          cases q with
          | scalar => exact id
          | surrogate n => exact (hnext m n s rfl rfl).elim
    · cases p <;> exact id
  | case4 => exact List.IsChain.nil

/-- **A string has no pair to join iff no low surrogate follows a high one.** -/
theorem joinSurrogates_eq_self_iff {s : Str} :
    joinSurrogates s = s ↔ s.IsChain fun p q ↦ ¬ isSurrogatePair p q := by
  constructor
  · intro h
    rw [← h]
    exact isChain_joinSurrogates s
  · intro h
    fun_induction joinSurrogates s with
    | case1 m n s hpair ih =>
      rw [isChain_cons] at h
      exact absurd hpair (h.1 _ rfl)
    | case2 m n s hpair ih =>
      rw [isChain_cons] at h
      rw [ih h.2]
    | case3 p s hnext ih =>
      rw [isChain_cons] at h
      rw [ih h.2]
    | case4 => rfl

/-- Part of a string without pairs is one. -/
theorem noSurrogatePair_of_infix {s t : Str} (h : noSurrogatePair s = true) (ht : t <:+: s) :
    noSurrogatePair t = true := by
  rw [noSurrogatePair, decide_eq_true_eq, joinSurrogates_eq_self_iff] at h ⊢
  exact h.infix ht

/-- The strings that `json.loads` reads have no pairs. -/
theorem allStr_of_loads [PyFloatNames F] (h : loads plainHooks s = .ok v) :
    v.AllStr fun t ↦ noSurrogatePair t = true := by
  refine of_loads (P := Json.AllStr fun t ↦ noSurrogatePair t = true) (fun s v r h ↦ ?_)
    (fun xs hxs ↦ ?_) (fun kvs v hkvs h ↦ ?_) h
  · rcases scanAtom_cases h with ⟨t, rfl⟩ | rfl | ⟨b, rfl⟩ | ⟨n, rfl⟩ | ⟨x, rfl⟩
    · change noSurrogatePair _ = true
      rw [noSurrogatePair, decide_eq_true_eq, joinSurrogates_eq_self_iff]
      exact isChain_joinSurrogates t
    all_goals trivial
  · rwa [Json.allStr_list_iff]
  · cases h
    rw [Json.allStr_dict_iff]
    intro kv hkv
    rcases Dict.mem_of_mem_update hkv with hkv | hkv
    · cases hkv
    · exact hkvs kv hkv

end Py
