import AgentGateway.EventChannel.Snapshot

/-!
# The canonical encoding of a snapshot

`_canonical_json_snapshot` renders what the walk copied, as compact JSON with sorted keys, and
checks the real length against the bound and against the estimate.  The second check is there in
case the estimate was too low; `length_le_estimate` shows that it never is, so that check never
fires.  The one case with an argument in it is an integer: `b` bits take at most
`b * 1234 / 4096 + 1` decimal digits, because `2 ^ 4096 ≤ 10 ^ 1234`.

* `canonicalJsonSnapshot_ok`: what is known of a value that has a canonical snapshot.
* `canonicalJsonSnapshot_of_within`: a value within the bounds that can be encoded has one.
* `preflight_brackets_encoding`: the walk's minimum and estimate bracket the encoded length.
-/

namespace AgentGateway.EventChannel

open Py List

variable {F : Type} [PyFloat F]

structure CanonicalJsonSnapshot (F : Type) where
  value : Json F
  encoded : List UInt8

def canonicalJsonSnapshot (value : Json F) (maxBytes : Nat) :
    Except ChannelError (CanonicalJsonSnapshot F) :=
  if maxBytes = 0 then .error (.value "autonomous event channel canonical JSON bound is invalid")
  else do
    let s ← snapshotJsonValue 0 maxBytes 0 value
    match dumps s.value with
    | none => .error (.protocol "autonomous event channel payload is not canonical-JSON encodable")
    | some encoded =>
      if encoded.length > maxBytes then .error (.byteBounds encoded.length)
      else if encoded.length > s.size then
        .error (.protocol
          "autonomous event channel canonical JSON preflight underestimated output")
      else .ok ⟨s.value, encoded⟩

/-! ## The estimate covers the encoding -/

/-- The charge of a character is the length of its escape. -/
theorem sum_utf8Size_escapeChar (c : Char) :
    ((escapeChar c).map Char.utf8Size).sum = charSize (.scalar c) := by
  have hdig : ∀ n, n < 16 → (Nat.digitChar n).utf8Size = 1 := by decide
  have hspecial : c ∈ shortEscaped ↔ c.toNat = 0x22 ∨ c.toNat = 0x5C ∨ c.toNat = 0x08 ∨
      c.toNat = 0x0C ∨ c.toNat = 0x0A ∨ c.toNat = 0x0D ∨ c.toNat = 0x09 := by
    simp only [shortEscaped, mem_cons, not_mem_nil, or_false, ← Char.toNat_inj]
    change (c.toNat = 0x22 ∨ c.toNat = 0x5C ∨ c.toNat = 0x0A ∨ c.toNat = 0x0D ∨ c.toNat = 0x09 ∨
      c.toNat = 0x0C ∨ c.toNat = 0x08) ↔ _
    omega
  have hsize : charSize (.scalar c) = (codepointIncrement c.toNat).toOption.getD 0 := rfl
  rw [hsize, codepointIncrement]
  obtain ⟨hmem, e, hesc, -, -, he⟩ | ⟨hmem, hctl, hesc⟩ | ⟨hmem, hctl, hesc⟩ := escapeChar_cases c
  · rw [if_pos (hspecial.1 hmem), hesc]
    simp only [map_cons, he, map_nil]
    rfl
  · rw [if_neg (fun h ↦ hmem (hspecial.2 h)), if_pos hctl, hesc]
    simp only [map_cons, hdig _ (show c.toNat / 16 < 16 by omega),
      hdig _ (show c.toNat % 16 < 16 by omega), map_nil]
    rfl
  · have hsur := CodePoint.toNat_not_surrogate c
    rw [if_neg (fun h ↦ hmem (hspecial.2 h)), if_neg (by omega),
      if_neg (show ¬ (0xD800 ≤ c.toNat ∧ c.toNat ≤ 0xDFFF) by omega), hesc]
    simp only [map_cons, map_nil, sum_cons, sum_nil, Nat.add_zero,
      utf8Size_eq]
    split_ifs <;> rfl

theorem utf8Length_strText {s : Str} (hs : strEncodable s = true) :
    utf8Length (strText s) = strSize s := by
  have hbody : utf8Length (escapeStr s) = (s.map charSize).sum := by
    induction s with
    | nil => rfl
    | cons p s ih =>
      cases p with
      | surrogate => simp [strEncodable, Str.chars?] at hs
      | scalar =>
        have hs' : strEncodable s = true := by
          simpa [strEncodable, Str.chars?] using hs
        rw [escapeStr, utf8Length_append, ih hs', utf8Length, sum_utf8Size_escapeChar,
          map_cons, sum_cons]
  have hq : ('"').utf8Size = 1 := rfl
  simp only [strText, strSize, utf8Length_cons, utf8Length_append, hbody, utf8Length_nil, hq]
  omega

theorem utf8Length_key {s : Str} (hs : strEncodable s = true) (r : List Char) :
    utf8Length ('"' :: (escapeStr s ++ '"' :: ':' :: r)) = strSize s + 1 + utf8Length r := by
  have hcolon : (':').utf8Size = 1 := rfl
  have hsplit : '"' :: (escapeStr s ++ '"' :: ':' :: r) = strText s ++ ':' :: r := by
    simp [strText]
  rw [hsplit, utf8Length_append, utf8Length_strText hs, utf8Length_cons, hcolon]
  omega

theorem isDigits_ascii {ds : List Char} (h : isDigits ds = true) : ∀ c ∈ ds, c.toNat ≤ 0x7F := by
  simp only [isDigits, Bool.and_eq_true] at h
  exact fun c hc ↦ isDigit_ascii (all_eq_true.1 h.2 c hc)

/-- A number is written in ASCII. -/
theorem numToken_ascii {t : NumToken} (ht : t.valid = true) : ∀ c ∈ t.text, c.toNat ≤ 0x7F := by
  obtain ⟨neg, ds, frac, exp⟩ := t
  simp only [NumToken.valid, Bool.and_eq_true] at ht
  obtain ⟨⟨hds, hfrac⟩, hexp⟩ := ht
  have hint : ∀ c ∈ ds, c.toNat ≤ 0x7F := by
    simp only [isIntPart, Bool.and_eq_true] at hds
    exact isDigits_ascii hds.1
  have hneg : ∀ c ∈ (if neg then ['-'] else []), c.toNat ≤ 0x7F := by
    cases neg <;> simp
  have hf : ∀ c ∈ NumToken.fracText frac, c.toNat ≤ 0x7F := by
    cases frac with
    | none => simp [NumToken.fracText]
    | some =>
      intro c hc
      rcases mem_cons.1 hc with rfl | hc
      · decide
      · exact isDigits_ascii (by simpa using hfrac) c hc
  have he : ∀ c ∈ NumToken.expText exp, c.toNat ≤ 0x7F := by
    cases exp with
    | none => simp [NumToken.expText]
    | some e =>
      have hv : e.valid = true := by simpa using hexp
      simp only [Exponent.valid, Bool.and_eq_true, Bool.or_eq_true, beq_iff_eq] at hv
      obtain ⟨⟨hm, hs⟩, hd⟩ := hv
      intro c hc
      simp only [NumToken.expText, Exponent.text, mem_cons, mem_append,
        Option.mem_toList] at hc
      rcases hc with rfl | hc | hc
      · rcases hm with hm | hm <;> rw [hm] <;> decide
      · rcases hs with (hs | hs) | hs
        · simp [hs] at hc
        · obtain rfl : '+' = c := by simpa [hs] using hc
          decide
        · obtain rfl : '-' = c := by simpa [hs] using hc
          decide
      · exact isDigits_ascii hd c hc
  intro c hc
  simp only [NumToken.text, mem_append] at hc
  rcases hc with hc | hc | hc | hc
  · exact hneg c hc
  · exact hint c hc
  · exact hf c hc
  · exact he c hc

/-- The decimal of an integer, in characters. -/
def intLength (n : Int) : Nat := (intText n).length

theorem intLength_eq (n : Int) :
    intLength n = (Nat.toDigits 10 n.natAbs).length + (if n < 0 then 1 else 0) := by
  cases n with
  | ofNat n =>
    have h : ¬ Int.ofNat n < 0 := Int.not_lt.2 (Int.natCast_nonneg n)
    rfl
  | negSucc n =>
    rw [if_pos (Int.negSucc_lt_zero n)]
    rfl

variable {n : Nat}

/-- A comparison of two fixed powers, carried over to other exponents. -/
theorem pow_le_pow_of_mul_le {a c p q m : Nat} (hp : p ≠ 0) (hc : 0 < c) (hbase : a ^ p ≤ c ^ q)
    (h : q * m ≤ n * p) : a ^ m ≤ c ^ n := by
  refine (Nat.pow_le_pow_iff_left hp).1 ?_
  calc (a ^ m) ^ p = (a ^ p) ^ m := by rw [← Nat.pow_mul, ← Nat.pow_mul, Nat.mul_comm]
    _ ≤ (c ^ q) ^ m := Nat.pow_le_pow_left hbase m
    _ = c ^ (q * m) := (Nat.pow_mul c q m).symm
    _ ≤ c ^ (n * p) := Nat.pow_le_pow_right hc h
    _ = (c ^ n) ^ p := Nat.pow_mul c n p

theorem intLength_le_intEstimate (n : Int) : intLength n ≤ intEstimate n := by
  rw [intLength_eq, intEstimate]
  by_cases h0 : n = 0
  · subst h0
    decide
  · have hlt : n.natAbs < 2 ^ bitLength n := by
      rw [bitLength, if_neg h0]
      exact Nat.lt_log2_self
    have hdigits : (Nat.toDigits 10 n.natAbs).length ≤ (bitLength n * 1234) / 4096 + 1 := by
      rw [Nat.length_toDigits_le_iff (by omega) (by omega)]
      exact hlt.trans_le (pow_le_pow_of_mul_le (p := 4096) (q := 1234) (by decide) (by decide)
        (by decide +kernel) (by omega))
    rw [if_neg h0, Nat.shiftRight_eq_div_pow]
    omega

theorem jsonIntMinimumSize_le_intLength (n : Int) : jsonIntMinimumSize n ≤ intLength n := by
  rw [intLength_eq, jsonIntMinimumSize, Nat.shiftRight_eq_div_pow]
  by_cases h0 : n = 0
  · subst h0
    decide
  · have hle : 2 ^ (bitLength n - 1) ≤ n.natAbs := by
      rw [bitLength, if_neg h0]
      exact Nat.log2_self_le (by omega)
    have hdigits : (bitLength n - 1) * 1233 / 4096 < (Nat.toDigits 10 n.natAbs).length := by
      rcases Nat.eq_zero_or_pos ((bitLength n - 1) * 1233 / 4096) with h | h
      · rw [h]
        exact Nat.length_toDigits_pos
      · rw [← not_le, Nat.length_toDigits_le_iff (by omega) h, not_lt]
        exact (pow_le_pow_of_mul_le (p := 1233) (q := 4096) (by decide) (by decide)
          (by decide +kernel) (by omega)).trans hle
    omega

variable {xs : List (Json F)} {kvs : List (Str × Json F)}

theorem utf8Length_renderTail (depth : Nat)
    (h : ∀ x ∈ xs, utf8Length (x.render (Json.compact escapeStr) (depth + 1)) =
      weight intLength x) :
    utf8Length (Json.renderTail (Json.compact escapeStr) depth xs) =
      1 + xs.length + (xs.map (weight intLength)).sum := by
  induction xs with
  | nil => rfl
  | cons x xs ih =>
    have hcomma : (',').utf8Size = 1 := rfl
    rw [Json.renderTail, utf8Length_cons]
    change _ + utf8Length (x.render _ _ ++ _) = _
    rw [utf8Length_append, h x (by simp), ih fun y hy ↦ h y (mem_cons_of_mem _ hy), map_cons,
      sum_cons, length_cons, hcomma]
    omega

theorem utf8Length_renderItemsTail (depth : Nat)
    (h : ∀ kv ∈ kvs, strEncodable kv.1 = true ∧
      utf8Length (kv.2.render (Json.compact escapeStr) (depth + 1)) = weight intLength kv.2) :
    utf8Length (Json.renderItemsTail (Json.compact escapeStr) depth kvs) =
      1 + kvs.length + ((kvs.map fun kv ↦ strSize kv.1 + 1).sum +
        (kvs.map fun kv ↦ weight intLength kv.2).sum) := by
  induction kvs with
  | nil => rfl
  | cons kv kvs ih =>
    obtain ⟨k, x⟩ := kv
    have hcomma : (',').utf8Size = 1 := rfl
    obtain ⟨hk, hx⟩ := h (k, x) (by simp)
    rw [Json.renderItemsTail, utf8Length_cons]
    change _ + utf8Length ('"' :: (escapeStr k ++ '"' :: ':' :: (x.render _ _ ++ _))) = _
    rw [utf8Length_key hk, utf8Length_append, hx,
      ih fun y hy ↦ h y (mem_cons_of_mem _ hy), hcomma]
    simp only [map_cons, sum_cons, length_cons]
    omega

/-- The length of a rendering is the weight with every integer at its decimal length. -/
theorem utf8Length_render (v : Json F) (hv : clean v = true) (depth : Nat) :
    utf8Length (v.render (Json.compact escapeStr) depth) = weight intLength v := by
  induction v generalizing depth with
  | null => rfl
  | bool b => cases b <;> rfl
  | int n =>
    change utf8Length (intText n) = (intText n).length
    rw [← intToken_text]
    exact utf8Length_of_ascii (numToken_ascii (intToken_valid n))
  | float x =>
    exact utf8Length_of_ascii (numToken_ascii (PyFloat.repr_valid x hv).1)
  | str =>
    exact utf8Length_strText hv
  | list xs ih =>
    have hencs := Json.every_list_iff.1 hv
    cases xs with
    | nil => rfl
    | cons x xs =>
      have hopen : ('[').utf8Size = 1 := rfl
      have htail := utf8Length_renderTail depth fun y (hy : y ∈ xs) ↦
        ih y (mem_cons_of_mem _ hy) (hencs y (mem_cons_of_mem _ hy)) _
      rw [Json.render, utf8Length_cons]
      change _ + utf8Length (x.render _ _ ++ _) = _
      rw [utf8Length_append, ih x (by simp) (hencs x (by simp)), htail, weight_list,
        map_cons, sum_cons, length_cons, hopen]
      omega
  | dict kvs ih =>
    have hencs := Json.every_dict_iff.1 hv
    cases kvs with
    | nil => rfl
    | cons kv kvs =>
      obtain ⟨k, x⟩ := kv
      have hopen : ('{').utf8Size = 1 := rfl
      obtain ⟨hk, hx⟩ := hencs (k, x) (by simp)
      have htail := utf8Length_renderItemsTail depth fun kv (hkv : kv ∈ kvs) ↦
        ⟨(hencs kv (mem_cons_of_mem _ hkv)).1,
          ih kv (mem_cons_of_mem _ hkv) (hencs kv (mem_cons_of_mem _ hkv)).2 _⟩
      rw [Json.render, utf8Length_cons]
      change _ + utf8Length ('"' :: (escapeStr k ++ '"' :: ':' :: (x.render _ _ ++ _))) = _
      rw [utf8Length_key hk, utf8Length_append, ih (k, x) (by simp) hx, htail, weight_dict,
        hopen]
      simp only [map_cons, sum_cons, length_cons]
      omega
  | foreign => cases hv

/-! ## The order of keys -/

theorem weight_sortKeys (f : Int → Nat) (v : Json F) : weight f v.sortKeys = weight f v :=
  Json.fold_sortKeys (fun ks sizes ↦ 2 + (sizes.length - 1) +
    ((ks.map (strSize · + 1)).sum + sizes.sum)) (fun _ _ h ↦ by
      rw [(h.map _).length_eq, (h.map _).sum_eq, ((h.map _).map _).sum_eq]) v

theorem weight_mono {f g : Int → Nat} (hfg : ∀ n, f n ≤ g n) (v : Json F) :
    weight f v ≤ weight g v := by
  induction v with
  | int n => exact hfg n
  | list xs ih =>
    rw [weight_list, weight_list]
    exact Nat.add_le_add_left (sum_le_sum fun x hx ↦ ih x hx) _
  | dict kvs ih =>
    rw [weight_dict, weight_dict]
    exact Nat.add_le_add_left (Nat.add_le_add_left (sum_le_sum fun kv hkv ↦ ih kv hkv) _) _
  | _ => exact le_rfl

omit [PyFloat F] in
theorem height_sortKeys (v : Json F) : height v.sortKeys = height v :=
  Json.fold_sortKeys (fun _ ↦ deepest) (fun _ _ h ↦ ((h.map _).map _).foldr_eq 0) v

omit [PyFloat F] in
theorem nodeCount_sortKeys (v : Json F) : nodeCount v.sortKeys = nodeCount v :=
  Json.fold_sortKeys (fun _ counts ↦ 1 + counts.sum)
    (fun _ _ h ↦ by rw [(h.map _).sum_eq]) v

variable {v : Json F}

/-- The bounds do not depend on the order of keys. -/
theorem within_sortKeys {depth valueNodes : Nat} :
    Within depth valueNodes v.sortKeys ↔ Within depth valueNodes v := by
  rw [within_iff, within_iff, height_sortKeys, nodeCount_sortKeys, clean, Json.every_sortKeys]

/-! ## The snapshot -/

theorem length_encoded (hv : clean v = true) :
    (encodeUtf8 v.sortKeys.text).length = weight intLength v := by
  rw [length_encodeUtf8, utf8Length_render _ ((Json.every_sortKeys ..).trans hv), weight_sortKeys]

/-- **The estimate is never below the length of the encoding.** -/
theorem length_le_estimate {bs : List UInt8} (hv : clean v = true) (h : dumps v = some bs) :
    bs.length ≤ estimate v := by
  obtain ⟨-, rfl⟩ := dumps_eq_some_iff.1 h
  rw [length_encoded hv]
  exact weight_mono intLength_le_intEstimate v

theorem canonicalJsonSnapshot_ok {maxBytes : Nat} {c : CanonicalJsonSnapshot F}
    (h : canonicalJsonSnapshot v maxBytes = .ok c) :
    Within 0 0 v ∧ c.value = v ∧ dumps v = some c.encoded ∧ c.encoded.length ≤ maxBytes ∧
      (endsInZero v = false → estimate v ≤ maxBytes) := by
  rw [canonicalJsonSnapshot] at h
  split at h
  · cases h
  · obtain ⟨s, hs, h⟩ := bind_eq_ok_iff.1 h
    obtain ⟨hw, hmeasured, hfit⟩ := snapshotJsonValue_sound hs
    have hvalue : s.value = v := by rw [hmeasured]; rfl
    rw [hvalue] at h
    cases hd : dumps v with
    | none =>
      rw [hd] at h
      cases h
    | some =>
      rw [hd] at h
      dsimp only at h
      split at h
      · cases h
      next hlen =>
        split at h
        · cases h
        · cases h
          exact ⟨hw, rfl, rfl, Nat.not_lt.1 hlen, fun hz ↦ by have := hfit hz; omega⟩

theorem canonicalJsonSnapshot_of_within {maxBytes : Nat} {encoded : List UInt8} (hw : Within 0 0 v)
    (hd : dumps v = some encoded) (hfit : estimate v ≤ maxBytes) (hpos : 0 < maxBytes) :
    canonicalJsonSnapshot v maxBytes = .ok ⟨v, encoded⟩ := by
  have hlen := length_le_estimate hw.clean hd
  have hwalk := snapshotJsonValue_complete hw (Int.ofNat_le.2 hfit)
  rw [canonicalJsonSnapshot, if_neg (by omega)]
  refine bind_eq_ok_iff.2 ⟨_, hwalk, ?_⟩
  have hvalue : (measured 0 v).value = v := rfl
  have hsize : (measured 0 v).size = estimate v := rfl
  simp only [hvalue, hsize, hd]
  rw [if_neg (by omega), if_neg (by omega)]

/-! ## The preflight brackets the encoding -/

/-- **The size preflight brackets the real encoding.**  What the walk returns for a value it accepts
is a lower and an upper bound of the length of the canonical encoding, so that the check behind it
never fires; and a value it refuses for its bytes is at least as long as it says. -/
theorem preflight_brackets_encoding (v : Json F) (depth valueNodes : Nat) (byteLimit : Int) :
    (∀ s, snapshotJsonValue depth byteLimit valueNodes v = .ok s →
      s.minimum ≤ (encodeUtf8 v.sortKeys.text).length ∧
        (encodeUtf8 v.sortKeys.text).length ≤ s.size) ∧
    (∀ m, clean v = true → snapshotJsonValue depth byteLimit valueNodes v = .error (.byteBounds m) →
      m ≤ (encodeUtf8 v.sortKeys.text).length) ∧
    ∀ maxBytes : Nat, ∀ s, snapshotJsonValue 0 maxBytes 0 v = .ok s →
      canonicalJsonSnapshot v maxBytes ≠ .error (.protocol
        "autonomous event channel canonical JSON preflight underestimated output") := by
  have hmin (hv : clean v = true) : minimum v ≤ (encodeUtf8 v.sortKeys.text).length := by
    rw [length_encoded hv]
    exact weight_mono jsonIntMinimumSize_le_intLength v
  refine ⟨fun s h ↦ ?_, fun m hv h ↦ ?_, fun maxBytes s h ↦ ?_⟩
  · obtain ⟨hw, rfl, -⟩ := snapshotJsonValue_sound h
    refine ⟨hmin hw.clean, ?_⟩
    rw [length_encoded hw.clean]
    exact weight_mono intLength_le_intEstimate v
  · have hanswer := snapshotJsonValue_answered v depth byteLimit valueNodes
    rw [h] at hanswer
    exact (hanswer.2 m rfl).trans (hmin hv)
  · obtain ⟨hw, rfl, -⟩ := snapshotJsonValue_sound h
    have hvalue : (measured 0 v).value = v := rfl
    have hsize : (measured 0 v).size = estimate v := rfl
    rw [canonicalJsonSnapshot, h]
    split
    · simp
    · simp only [bind, Except.bind, hvalue, hsize]
      cases hd : dumps v with
      | none => simp
      | some encoded =>
        have hlen := length_le_estimate hw.clean hd
        dsimp only
        split
        · simp
        · rw [if_neg (by omega)]
          simp

/-- A list of one number, measured and refused. -/
theorem preflight_brackets_encoding_number :
    let v : Json NumToken := .list [.int (-1024)]
    (∃ s, snapshotJsonValue 0 8 0 v = .ok s ∧ s.minimum ≤ (encodeUtf8 v.sortKeys.text).length ∧
      (encodeUtf8 v.sortKeys.text).length ≤ s.size ∧
      canonicalJsonSnapshot v 8 ≠ .error (.protocol
        "autonomous event channel canonical JSON preflight underestimated output")) ∧
    ∃ m, snapshotJsonValue 0 6 0 v = .error (.byteBounds m) ∧
      m ≤ (encodeUtf8 v.sortKeys.text).length := by
  intro v
  obtain ⟨s, hs, -⟩ := exists_ok_of_any (x := snapshotJsonValue 0 8 0 v) (p := fun _ ↦ true)
    (by decide +kernel)
  obtain ⟨hok, -, hfree⟩ := preflight_brackets_encoding v 0 0 8
  obtain ⟨-, hrefused, -⟩ := preflight_brackets_encoding v 0 0 6
  have hm : snapshotJsonValue 0 6 0 v = .error (.byteBounds 7) :=
    eq_error_of_raised (by decide +kernel)
  exact ⟨⟨s, hs, (hok s hs).1, (hok s hs).2, hfree 8 s hs⟩, 7, hm, hrefused 7 (by decide) hm⟩

end AgentGateway.EventChannel
