import AgentGateway.Spill.Manifest
import AgentGateway.Spill.Write

/-!
# Putting a value together again

The reader of a set goes over its index and replaces a marker by the string it stands for
(`restore`), which it reads from a member as it is, or from chunk records.

* `decodeChunkRecords_encodeChunkRecords`: the records of a string are read back as the string, and
  `chunk_records_bounded_lossless_iff` says when they are all short enough.
* `walk_induction` says what the walk of the writer does to a value, as a rule of induction; the
  strings it takes out are its `Piece`s.
* `walk_spec`: the reader's walk undoes the writer's (`Restores`), unless the value has an object
  that looks like a marker and holds something that a dictionary cannot have for a key.  An own
  object of the value that looks like the marker of a reference would be counted beside it
  (`Counts`).
-/

open Py List

namespace AgentGateway.Spill

/-! ## Reading chunk records -/

section Decode

variable (F : Type) [PyFloatNames F] (env : Env)

/-- `int(digits)`, for digits at the head of a text, and what follows them -/
def takeNat (s : Str) : Option (Nat × Str) :=
  let ds := s.takeWhile fun p ↦ (env.digit p).isSome
  if ds = [] then none
  else some (ds.foldl (fun n p ↦ 10 * n + (env.digit p).getD 0) 0, s.drop ds.length)

/-- The rest of a text that starts with the character. -/
def afterChar (c : Char) : Str → Option Str
  | [] => none
  | p :: s => if p = .scalar c then some s else none

/-- `^@(\S+) (\d+)-(\d+) (.+)$` -/
def parseChunkRecord (line : Str) : Option (Str × Nat × Nat × Str) := do
  let line ← afterChar '@' line
  let refId := line.takeWhile fun p ↦ !p.isSpace
  let rest ← afterChar ' ' (line.drop refId.length)
  let (start, rest) ← takeNat env rest
  let rest ← afterChar '-' rest
  let (stop, rest) ← takeNat env rest
  let literal ← afterChar ' ' rest
  if refId = [] || literal = [] then none else some (refId, start, stop, literal)

/-- The loop over the lines, from `cursor` on. -/
def decodeChunkLines (expectedRefId : Str) : Nat → List Str → Except Fault Str
  | _, [] => .ok []
  | cursor, line :: lines =>
    match parseChunkRecord env line with
    | none => .error (.error (.lit "invalid spill chunk record"))
    | some (refId, start, stop, literal) =>
      if refId ≠ expectedRefId ∨ start ≠ cursor ∨ stop < start then
        .error (.error (.lit "non-contiguous spill chunk record"))
      else
        match loadsMember F "spill chunk record" literal with
        | .error e => .error e
        | .ok (.str segment) =>
          if segment.length ≠ stop - start then .error (.error (.lit "spill chunk offset mismatch"))
          else (decodeChunkLines expectedRefId stop lines).map (segment ++ ·)
        | .ok _ => .error (.error (.lit "spill chunk offset mismatch"))

def decodeChunkRecords (text expectedRefId : Str) : Except Fault Str :=
  decodeChunkLines F env expectedRefId 0 text.splitlines

end Decode

/-! ### Records are read back -/

section DecodeEncode

theorem isSpace_of_isStemChar {p : CodePoint} (h : isStemChar p = true) : p.isSpace = false := by
  cases p with
  | surrogate => cases h
  | scalar c =>
    have hrange : 0x2d ≤ c.toNat ∧ c.toNat ≤ 0x7a := by
      simp only [isStemChar, Bool.or_eq_true, decide_eq_true_eq, Char.isDigit,
        Bool.and_eq_true] at h
      rcases h with ((((⟨h1, h2⟩ | ⟨h1, h2⟩) | ⟨h1, h2⟩) | rfl) | rfl) | rfl
      · exact ⟨Nat.le_trans (by decide) (UInt32.le_iff_toNat_le.1 h1),
          Nat.le_trans (UInt32.le_iff_toNat_le.1 h2) (by decide)⟩
      · exact ⟨Nat.le_trans (by decide) (UInt32.le_iff_toNat_le.1 h1),
          Nat.le_trans (UInt32.le_iff_toNat_le.1 h2) (by decide)⟩
      · exact ⟨Nat.le_trans (by decide) (UInt32.le_iff_toNat_le.1 h1),
          Nat.le_trans (UInt32.le_iff_toNat_le.1 h2) (by decide)⟩
      all_goals decide
    have hspace : ∀ n < 0x7b, 0x2d ≤ n → (CodePoint.scalar (Char.ofNat n)).isSpace = false := by
      decide +kernel
    have := hspace c.toNat (by omega) hrange.1
    rwa [Char.ofNat_toNat] at this

/-- A line break is whitespace. -/
theorem isLineBreak_of_isSpace {p : CodePoint} (h : p.isSpace = false) : p.isLineBreak = false := by
  simp only [CodePoint.isSpace, CodePoint.isLineBreak, Bool.or_eq_false_iff, Bool.and_eq_false_iff,
    decide_eq_false_iff_not, beq_eq_false_iff_ne] at h ⊢
  omega

theorem isLineBreak_printable {c : Char} (h : 0x20 ≤ c.toNat ∧ c.toNat ≤ 0x7e) :
    (CodePoint.scalar c).isLineBreak = false := by
  have hall : ∀ n < 0x7f, 0x20 ≤ n → (CodePoint.scalar (Char.ofNat n)).isLineBreak = false := by
    decide +kernel
  have := hall c.toNat (by omega) h.1
  rwa [Char.ofNat_toNat] at this

theorem isStemChar_natText {n : Nat} : ∀ p ∈ natText n, isStemChar p = true := by
  intro p hp
  obtain ⟨c, hc, rfl⟩ := List.mem_map.1 hp
  have := Nat.isDigit_of_mem_toDigits (by omega) (by omega) hc
  simp [isStemChar, this]

theorem isLineBreak_quoted (s : Str) : ∀ p ∈ quoted s, p.isLineBreak = false := by
  intro p hp
  obtain ⟨c, hc, rfl⟩ := List.mem_map.1 hp
  refine isLineBreak_printable ?_
  rcases mem_cons.1 hc with rfl | hc
  · decide
  · rcases mem_append.1 hc with hc | hc
    · exact printable_escapeAscii s c hc
    · rw [mem_singleton.1 hc]
      decide

variable {refId : Str}

/-- A record is one line. -/
theorem isLineBreak_chunkRecord (hid : ∀ p ∈ refId, p.isSpace = false) (start stop : Nat)
    (segment : Str) :
    ∀ p ∈ chunkRecord refId start stop segment, p.isLineBreak = false := by
  have hnat (n : Nat) : ∀ p ∈ natText n, p.isLineBreak = false :=
    fun p hp ↦ isLineBreak_of_isSpace (isSpace_of_isStemChar (isStemChar_natText p hp))
  simp only [chunkRecord, forall_mem_cons, forall_mem_append]
  exact ⟨rfl, fun p hp ↦ isLineBreak_of_isSpace (hid p hp), rfl, hnat _, rfl, hnat _, rfl,
    isLineBreak_quoted segment⟩

variable {F : Type} [PyFloatNames F] (env : Env)

/-- What digits are read as. -/
theorem takeNat_natText (n : Nat) {c : Char} (hc : c.toNat < 0x80) (hd : c.isDigit = false)
    (r : Str) :
    takeNat env (natText n ++ .scalar c :: r) = some (n, .scalar c :: r) := by
  have hascii {d : Char} (h : d.isDigit = true) : d.toNat < 0x80 := by
    have := isDigit_ascii h
    omega
  have hdigits : ∀ p ∈ natText n, (env.digit p).isSome = true := by
    intro p hp
    obtain ⟨d, hmem, rfl⟩ := List.mem_map.1 hp
    have hd := Nat.isDigit_of_mem_toDigits (by omega) (by omega) hmem
    rw [env.digit_ascii d (hascii hd), if_pos hd]
    rfl
  have hstop : (env.digit (.scalar c)).isSome = false := by
    rw [env.digit_ascii c hc, hd]
    rfl
  have htake : (natText n ++ .scalar c :: r).takeWhile (fun p ↦ (env.digit p).isSome) =
    natText n := by
    rw [takeWhile_append_of_pos hdigits, takeWhile_cons, hstop]
    simp
  have hvalue : (natText n).foldl (fun n p ↦ 10 * n + (env.digit p).getD 0) 0 = n := by
    have hfold (ds : List Char) (hds : ∀ d ∈ ds, d.isDigit = true) (a : Nat) :
        (ds.map CodePoint.scalar).foldl (fun n p ↦ 10 * n + (env.digit p).getD 0) a =
          Nat.ofDigitChars 10 ds a := by
      induction ds generalizing a with
      | nil => rfl
      | cons d ds ih =>
        rw [forall_mem_cons] at hds
        rw [map_cons, foldl_cons, env.digit_ascii d (hascii hds.1), if_pos hds.1, ih hds.2]
        rfl
    rw [natText, hfold _ fun d hd ↦ Nat.isDigit_of_mem_toDigits (by omega) (by omega) hd,
      Nat.ofDigitChars_toDigits (by omega) (by omega)]
  have hne : natText n ≠ [] := by
    rw [natText, Ne, map_eq_nil_iff]
    exact Nat.toDigits_ne_nil
  rw [takeNat, htake]
  simp only [hvalue]
  rw [if_neg hne, drop_left]

theorem quoted_ne_nil (s : Str) : quoted s ≠ [] := by
  simp [quoted]

/-- The parts of a record. -/
theorem parseChunkRecord_chunkRecord (hid : ∀ p ∈ refId, p.isSpace = false) (hne : refId ≠ [])
    (start stop : Nat) (segment : Str) :
    parseChunkRecord env (chunkRecord refId start stop segment) =
      some (refId, start, stop, quoted segment) := by
  have htake (r : Str) : (refId ++ .scalar ' ' :: r).takeWhile (fun p ↦ !p.isSpace) = refId := by
    have hpos : ∀ p ∈ refId, (!p.isSpace) = true := fun p hp ↦ by
      rw [hid p hp]
      rfl
    have hsp : (!(CodePoint.scalar ' ').isSpace) = false := rfl
    rw [takeWhile_append_of_pos hpos, takeWhile_cons, hsp]
    simp
  rw [parseChunkRecord, chunkRecord]
  simp only [afterChar, if_true, Option.bind_eq_bind, Option.bind_some, htake, drop_left,
    takeNat_natText env _ (c := '-') (by decide) (by decide),
    takeNat_natText env _ (c := ' ') (by decide) (by decide)]
  simp [hne, quoted_ne_nil]

variable {s : Str}

/-- The literal of a record is read as the segment. -/
theorem loadsMember_quoted (hs : noSurrogatePair s = true) (what : String) :
    loadsMember F what (quoted s) = .ok (.str s) := by
  have h := loads_oneLine (F := F) stringsReadBack_escapeAscii (v := .str s)
    hs trivial
  rw [loadsMember, quoted, Str.chars?_map_scalar, Option.map_some]
  rw [Json.render] at h
  have hesc : (Json.oneLine (F := F) escapeAscii).esc = escapeAscii := rfl
  rw [hesc] at h
  rw [h]

variable {start stop : Nat}

theorem slice_append_drop (h : start ≤ stop) :
    slice s start stop ++ s.drop stop = s.drop start := by
  rw [slice, drop_take]
  have := take_append_drop (stop - start) (s.drop start)
  rwa [drop_drop, Nat.add_sub_cancel' h] at this

theorem length_slice (h : stop ≤ s.length) :
    (slice s start stop).length = stop - start := by
  rw [slice, length_drop, length_take, Nat.min_eq_left h]

theorem isInfix_slice (s : Str) (start stop : Nat) : slice s start stop <:+: s :=
  ((drop_suffix start _).isInfix).trans ( take_prefix stop s).isInfix

section Records

variable {value : Str} {lineBudget : Nat}

/-- The end of a segment is after its start and within the string, and the record fits. -/
theorem chunkEnd_spec (h : chunkEnd value refId lineBudget start = some stop) :
    start < stop ∧ stop ≤ value.length ∧
      readerEncodedLineChars (chunkRecord refId start stop (slice value start stop)) ≤
        lineBudget := by
  rcases lastFit_spec h with h | ⟨hlow, hhigh, hfits⟩
  · cases h
  · exact ⟨hlow, hhigh, of_decide_eq_true hfits⟩

/-- Records from `start` on are short enough, and are read as the rest of the string. -/
theorem decodeChunkLines_chunkRecords (hid : ∀ p ∈ refId, p.isSpace = false) (hne : refId ≠ [])
    (hpair : noSurrogatePair value = true) {fuel : Nat} {records : List Str}
    (hfuel : value.length ≤ start + fuel)
    (h : chunkRecords value refId lineBudget fuel start = .ok records) :
    decodeChunkLines F env refId start records = .ok (value.drop start) ∧
      ∀ l ∈ records, (∀ p ∈ l, p.isLineBreak = false) ∧ readerEncodedLineChars l ≤ lineBudget := by
  induction fuel generalizing start records with
  | zero =>
    cases h
    rw [drop_eq_nil_of_le (by omega)]
    exact ⟨rfl, by simp⟩
  | succ fuel ih =>
    rw [chunkRecords] at h
    split at h
    · split at h
      · cases h
      next stop hstop =>
        obtain ⟨hlt, hle, hfits⟩ := chunkEnd_spec hstop
        obtain ⟨rest, hrest, rfl⟩ := map_eq_ok_iff.1 h
        obtain ⟨hdec, hlines⟩ := ih (by omega) hrest
        have hseg := noSurrogatePair_of_infix hpair (isInfix_slice value start stop)
        refine ⟨?_, forall_mem_cons.2 ⟨⟨isLineBreak_chunkRecord hid _ _ _, hfits⟩, hlines⟩⟩
        rw [decodeChunkLines, parseChunkRecord_chunkRecord env hid hne]
        simp only [ne_eq, not_true_eq_false, Nat.not_lt.2 hlt.le, or_self, if_false,
          loadsMember_quoted hseg, length_slice hle, hdec, Except.map, slice_append_drop hlt.le]
    next hge =>
      cases h
      rw [drop_eq_nil_of_le (by omega)]
      exact ⟨rfl, by simp⟩

/-- **The chunk records of a string are read back as the string**, and are short enough, except that
the record of the empty string is not measured. -/
theorem decodeChunkRecords_encodeChunkRecords {text : Str} (hid : ∀ p ∈ refId, p.isSpace = false)
    (hne : refId ≠ []) (hpair : noSurrogatePair value = true)
    (h : encodeChunkRecords value refId lineBudget = .ok text) :
    decodeChunkRecords F env text refId = .ok value ∧ ∀ line ∈ text.splitlines,
      readerEncodedLineChars line ≤ lineBudget ∨ value = [] ∧ line = chunkRecord refId 0 0 [] := by
  obtain ⟨records, hrecords, rfl⟩ := map_eq_ok_iff.1 h
  obtain ⟨hdec, hlines⟩ := decodeChunkLines_chunkRecords (F := F) env hid hne hpair (by omega)
    hrecords
  rw [decodeChunkRecords]
  split
  next hnil =>
    -- no record was written, so the string is empty
    subst hnil
    have hempty : value = [] := by
      cases hdec
      rfl
    rw [Str.splitlines_unlines (by simpa using isLineBreak_chunkRecord hid 0 0 []),
      decodeChunkLines, parseChunkRecord_chunkRecord env hid hne]
    simp [loadsMember_quoted, noSurrogatePair, joinSurrogates, decodeChunkLines, Except.map, hempty]
  · rw [Str.splitlines_unlines fun l hl ↦ (hlines l hl).1, hdec, drop_zero]
    exact ⟨rfl, fun line hline ↦ .inl (hlines line hline).2⟩

/-- The positions at which the encoder starts a record. -/
def RecordStart (value refId : Str) (lineBudget : Nat) : Nat → Prop :=
  Relation.ReflTransGen (fun start stop ↦ chunkEnd value refId lineBudget start = some stop) 0

/-- The encoder gives up at a character that does not fit by itself. -/
theorem chunkRecords_error {fuel : Nat} {e : Fault}
    (hstart : RecordStart value refId lineBudget start) (hfuel : value.length ≤ start + fuel)
    (h : chunkRecords value refId lineBudget fuel start = .error e) :
    ∃ start, RecordStart value refId lineBudget start ∧ start < value.length ∧ lineBudget <
      readerEncodedLineChars
        (chunkRecord refId start (start + 1) (slice value start (start + 1))) := by
  induction fuel generalizing start with
  | zero => cases h
  | succ fuel ih =>
    rw [chunkRecords] at h
    split at h
    next hlt =>
      split at h
      next hnone =>
        have hfits := (lastFit_eq_none (by omega) hnone).2 hlt (by omega)
        exact ⟨start, hstart, hlt, by simpa using hfits⟩
      next stop hstop =>
        cases hrest : chunkRecords value refId lineBudget fuel stop with
        | ok =>
          rw [hrest] at h
          cases h
        | error e' =>
          rw [hrest] at h
          cases h
          have := chunkEnd_spec hstop
          exact ih (hstart.tail hstop) (by omega) hrest
    · cases h

/-- **Chunk records are a bounded lossless code, except for the record of the empty string**, which
is written without a look at the budget.  Otherwise what is written is short enough and read back,
and the encoder gives up only at a character that does not fit into a record of its own. -/
theorem chunk_records_bounded_lossless_iff (value : List Char) (refId : Str) (lineBudget : Nat)
    (hid : ∀ p ∈ refId, p.isSpace = false) (hne : refId ≠ []) :
    ((∀ text, encodeChunkRecords (value.map .scalar) refId lineBudget = .ok text →
        (∀ line ∈ text.splitlines, readerEncodedLineChars line ≤ lineBudget) ∧
          decodeChunkRecords F env text refId = .ok (value.map .scalar)) ∧
      ∀ e, encodeChunkRecords (value.map .scalar) refId lineBudget = .error e →
        ∃ start, RecordStart (value.map .scalar) refId lineBudget start ∧ start < value.length ∧
          lineBudget < readerEncodedLineChars (chunkRecord refId start (start + 1)
            (slice (value.map .scalar) start (start + 1)))) ↔
    (value = [] → readerEncodedLineChars (chunkRecord refId 0 0 []) ≤ lineBudget) := by
  constructor
  · rintro ⟨hok, -⟩ rfl
    refine (hok _ rfl).1 _ ?_
    dsimp only
    rw [if_pos rfl, Str.splitlines_unlines (by simpa using isLineBreak_chunkRecord hid 0 0 [])]
    simp
  · intro hempty
    have hpair : noSurrogatePair (value.map .scalar) = true := by
      rw [noSurrogatePair, decide_eq_true_eq, joinSurrogates_eq_self_iff, isChain_map]
      exact Pairwise.isChain (pairwise_of_forall (by simp [isSurrogatePair]))
    refine ⟨fun text h ↦ ?_, fun e h ↦ ?_⟩
    · obtain ⟨hdec, hlines⟩ := decodeChunkRecords_encodeChunkRecords (F := F) env hid hne hpair h
      refine ⟨fun line hline ↦ ?_, hdec⟩
      rcases hlines line hline with h | ⟨hnil, rfl⟩
      · exact h
      · exact hempty (map_eq_nil_iff.1 hnil)
    · cases hrecords : chunkRecords (value.map .scalar) refId lineBudget
          (value.map CodePoint.scalar).length 0 with
      | ok =>
        rw [encodeChunkRecords, hrecords] at h
        cases h
      | error =>
        obtain ⟨start, hstart, hlt, hfits⟩ := chunkRecords_error .refl (by omega) hrecords
        exact ⟨start, hstart, by simpa using hlt, hfits⟩

/-- Two characters and a budget for one of them. -/
theorem chunk_records_of_two_characters :
    ∃ text, encodeChunkRecords (.lit "ab") (.lit "c1") 15 = .ok text ∧
      (∀ line ∈ text.splitlines, readerEncodedLineChars line ≤ 15) ∧
      decodeChunkRecords TokenFloat sampleEnv text (.lit "c1") = .ok (.lit "ab") := by
  obtain ⟨text, h, -⟩ := exists_ok_of_any (x := encodeChunkRecords (.lit "ab") (.lit "c1") 15)
    (p := fun _ ↦ true) (by decide +kernel)
  exact ⟨text, h, ((chunk_records_bounded_lossless_iff (F := TokenFloat) sampleEnv ['a', 'b']
    (.lit "c1") 15 (by decide) (by decide)).2 (by simp)).1 text h⟩

/-- **A record beyond its budget**: that of the empty string. -/
theorem empty_record_not_measured :
    ∃ text, encodeChunkRecords (.lit "") (.lit "c1") 12 = .ok text ∧
      ∃ line ∈ text.splitlines, 12 < readerEncodedLineChars line := by
  obtain ⟨text, h, hline⟩ := exists_ok_of_any (x := encodeChunkRecords (.lit "") (.lit "c1") 12)
    (p := fun text ↦ text.splitlines.any fun line ↦ decide (12 < readerEncodedLineChars line))
    (by decide +kernel)
  exact ⟨text, h, by simpa using hline⟩

end Records

end DecodeEncode

/-! ## The reader's walk -/

section Restore

variable {F : Type} (refValues : Dict Str Str)

mutual
/-- `_restore`: the value, and the references it has put in -/
def restore : Json F → Except Fault (Json F × List Str)
  | .dict kvs =>
    match markerValue? kvs with
    | some (.str s) =>
      match refValues.lookup s with
      | some value => .ok (.str value, [s])
      | none => (restoreItems kvs).map fun p ↦ (.dict p.1, p.2)
    -- a list and a dictionary cannot be looked for among the keys of a dictionary
    | some (.list _) => .error .unhashable
    | some (.dict _) => .error .unhashable
    | _ => (restoreItems kvs).map fun p ↦ (.dict p.1, p.2)
  | .list xs => (restoreList xs).map fun p ↦ (.list p.1, p.2)
  | .null => .ok (.null, [])
  | .bool b => .ok (.bool b, [])
  | .int n => .ok (.int n, [])
  | .float x => .ok (.float x, [])
  | .str s => .ok (.str s, [])
  | .foreign => .ok (.foreign, [])
def restoreItems : List (Str × Json F) → Except Fault (List (Str × Json F) × List Str)
  | [] => .ok ([], [])
  | (k, x) :: kvs =>
    match restore x with
    | .error e => .error e
    | .ok (y, hits) => (restoreItems kvs).map fun p ↦ ((k, y) :: p.1, hits ++ p.2)
def restoreList : List (Json F) → Except Fault (List (Json F) × List Str)
  | [] => .ok ([], [])
  | x :: xs =>
    match restore x with
    | .error e => .error e
    | .ok (y, hits) => (restoreList xs).map fun p ↦ (y :: p.1, hits ++ p.2)
end

end Restore

/-! ### What the writer's walk does -/

section Walk

variable {F : Type} {env : Env} {stem : Str} {lineBudget : Nat}

/-- A string the walk has put elsewhere. -/
structure Piece where
  value : Str
  ref : Ref
  member : PreparedMember

/-- The reference and the member were made for the string. -/
def IsPiece (env : Env) (stem : Str) (lineBudget : Nat) (p : Piece) : Prop :=
  ∃ pointer fieldName ordinal,
    externalMember env stem lineBudget p.value pointer fieldName ordinal = .ok (p.ref, p.member)

/-- A value before the walk and after it, and the strings taken out of it. -/
structure Part (F : Type) where
  before : Json F
  after : Json F
  pieces : List Piece

/-- The walk leaves the value as it is. -/
def Leaves (lineBudget : Nat) : Json F → Prop
  | .list _ | .dict _ => False
  | .str s => stringRequiresExternalization s lineBudget = false
  | _ => True

/-- The walk has added what belongs to the pieces. -/
def Took (w w' : Walked) (ps : List Piece) : Prop :=
  w'.refs = w.refs ++ ps.map Piece.ref ∧ w'.members = w.members ++ ps.map Piece.member

theorem Took.append {w w₁ w₂ : Walked} {ps qs : List Piece} (h : Took w w₁ ps)
    (h' : Took w₁ w₂ qs) :
    Took w w₂ (ps ++ qs) := by
  simp [Took, h'.1, h'.2, h.1, h.2]

section Induction

variable {P : Json F → Json F → List Piece → Prop}

/-- The walk of the value makes something of it that satisfies `P`. -/
def WalksTo (env : Env) (stem : Str) (lineBudget : Nat) (P : Json F → Json F → List Piece → Prop)
    (v : Json F) : Prop :=
  ∀ {pointer fieldName : Str} {w w' : Walked} {y : Json F},
    walk env stem lineBudget v pointer fieldName w = .ok (y, w') → ∃ ps, P v y ps ∧ Took w w' ps

variable {pointer : Str} {w w' : Walked}

theorem walkList_parts {xs ys : List (Json F)} (ih : ∀ x ∈ xs, WalksTo env stem lineBudget P x)
    {i : Nat}
    (h : walkList env stem lineBudget xs pointer i w = .ok (ys, w')) :
    ∃ ts : List (Part F), (∀ t ∈ ts, P t.before t.after t.pieces) ∧ ts.map Part.before = xs ∧
      ts.map Part.after = ys ∧ Took w w' (ts.flatMap Part.pieces) := by
  induction xs generalizing i w ys with
  | nil =>
    cases h
    exact ⟨[], by simp, rfl, rfl, by simp [Took]⟩
  | cons x xs ihxs =>
    rw [forall_mem_cons] at ih
    rw [walkList] at h
    split at h
    · cases h
    next y w₁ hx =>
      obtain ⟨⟨ys', w₂⟩, hrest, heq⟩ := map_eq_ok_iff.1 h
      cases heq
      obtain ⟨ps, hP, htook⟩ := ih.1 hx
      obtain ⟨ts, hts, rfl, rfl, htook'⟩ := ihxs ih.2 hrest
      exact ⟨⟨x, y, ps⟩ :: ts, forall_mem_cons.2 ⟨hP, hts⟩, rfl, rfl, htook.append htook'⟩

theorem walkItems_parts {kvs ys : List (Str × Json F)}
    (ih : ∀ kv ∈ kvs, WalksTo env stem lineBudget P kv.2)
    (h : walkItems env stem lineBudget kvs pointer w = .ok (ys, w')) :
    ∃ ts : List (Str × Part F), (∀ t ∈ ts, P t.2.before t.2.after t.2.pieces) ∧
      ts.map (fun t ↦ (t.1, t.2.before)) = kvs ∧ ts.map (fun t ↦ (t.1, t.2.after)) = ys ∧
      Took w w' (ts.flatMap fun t ↦ t.2.pieces) := by
  induction kvs generalizing w ys with
  | nil =>
    cases h
    exact ⟨[], by simp, rfl, rfl, by simp [Took]⟩
  | cons kv kvs ihkvs =>
    obtain ⟨k, x⟩ := kv
    rw [forall_mem_cons] at ih
    rw [walkItems] at h
    split at h
    · cases h
    next y w₁ hx =>
      obtain ⟨⟨ys', w₂⟩, hrest, heq⟩ := map_eq_ok_iff.1 h
      cases heq
      obtain ⟨ps, hP, htook⟩ := ih.1 hx
      obtain ⟨ts, hts, rfl, rfl, htook'⟩ := ihkvs ih.2 hrest
      exact ⟨(k, ⟨x, y, ps⟩) :: ts, forall_mem_cons.2 ⟨hP, hts⟩, rfl, rfl, htook.append htook'⟩

/-- **Induction over a walk**: what holds of the values it keeps and of the strings it takes out,
and of a container if it holds of the items, holds of whatever it makes of a value. -/
theorem walk_induction (kept : ∀ v, Leaves lineBudget v → P v v [])
    (external : ∀ p, IsPiece env stem lineBudget p →
      stringRequiresExternalization p.value lineBudget = true →
      P (.str p.value) (marker p.ref.refId) [p])
    (list : ∀ ts : List (Part F), (∀ t ∈ ts, P t.before t.after t.pieces) →
      P (.list (ts.map Part.before)) (.list (ts.map Part.after)) (ts.flatMap Part.pieces))
    (dict : ∀ ts : List (Str × Part F), (∀ t ∈ ts, P t.2.before t.2.after t.2.pieces) →
      P (.dict (ts.map fun t ↦ (t.1, t.2.before))) (.dict (ts.map fun t ↦ (t.1, t.2.after)))
        (ts.flatMap fun t ↦ t.2.pieces))
    (v : Json F) : WalksTo env stem lineBudget P v := by
  have same {v : Json F} (hv : Leaves lineBudget v) (w : Walked) : ∃ ps, P v v ps ∧ Took w w ps :=
    ⟨[], kept v hv, by simp [Took]⟩
  induction v with
  | str s =>
    intro pointer fieldName w w' y h
    rw [walk] at h
    split at h
    next hlong =>
      obtain ⟨⟨ref, member⟩, hext, heq⟩ := map_eq_ok_iff.1 h
      cases heq
      exact ⟨[⟨s, ref, member⟩], external ⟨s, ref, member⟩ ⟨_, _, _, hext⟩ hlong, rfl, rfl⟩
    next hshort =>
      cases h
      exact same (by exact Bool.eq_false_iff.2 hshort) _
  | list xs ih =>
    intro pointer fieldName w w' y h
    obtain ⟨⟨ys, w₁⟩, hlist, heq⟩ := map_eq_ok_iff.1 h
    cases heq
    obtain ⟨ts, hts, rfl, rfl, htook⟩ := walkList_parts ih hlist
    exact ⟨_, list ts hts, htook⟩
  | dict kvs ih =>
    intro pointer fieldName w w' y h
    obtain ⟨⟨ys, w₁⟩, hdict, heq⟩ := map_eq_ok_iff.1 h
    cases heq
    obtain ⟨ts, hts, rfl, rfl, htook⟩ := walkItems_parts ih hdict
    exact ⟨_, dict ts hts, htook⟩
  | null | bool | int | float | foreign =>
    intro pointer fieldName w w' y h
    cases h
    exact same (by trivial) _

end Induction

/-! ### Objects that look like markers -/

/-- How often an object of the value itself looks like the marker of a reference, and stays in the
index. -/
def ownMarkers (lineBudget : Nat) (refId : Str) : Json F → Nat :=
  Json.fold (fun _ ↦ 0) List.sum fun kvs counts ↦
    (if isMarker refId kvs && !stringRequiresExternalization refId lineBudget then 1 else 0) +
      counts.sum

/-- What an object that looks like a marker holds can be looked for in a dictionary, after the walk.
-/
def hashableValue (lineBudget : Nat) : Option (Json F) → Bool
  | some (.list _) => false
  | some (.dict _) => false
  | some (.str s) => !stringRequiresExternalization s lineBudget
  | _ => true

/-- No object whose only key is `$spill_ref` holds a list, an object, or a string that is too long
for a line. -/
def hashableMarkers (lineBudget : Nat) : Json F → Bool :=
  Json.fold (fun _ ↦ true) (·.all id) fun kvs oks ↦
    hashableValue lineBudget (markerValue? kvs) && oks.all id

/-- What kind of value stands in the index for a value. -/
def StandsFor (lineBudget : Nat) (y : Json F) : Json F → Prop
  | .list _ => ∃ ys, y = .list ys
  | .dict _ => ∃ kvs, y = .dict kvs
  | .str s => if stringRequiresExternalization s lineBudget then ∃ id, y = marker id else y = .str s
  | v => y = v

/-- The keys are those of the value, so only an object that looks like a marker is one in the index.
-/
theorem markerValue?_parts (ts : List (Str × Part F)) :
    (markerValue? (ts.map fun t ↦ (t.1, t.2.before)) = none ∧
        markerValue? (ts.map fun t ↦ (t.1, t.2.after)) = none) ∨
      ∃ t, ts = [(markerKey, t)] ∧ markerValue? (ts.map fun t ↦ (t.1, t.2.before)) = some t.before ∧
        markerValue? (ts.map fun t ↦ (t.1, t.2.after)) = some t.after := by
  rcases ts with _ | ⟨⟨k, t⟩, _ | ⟨t', ts⟩⟩
  · exact .inl ⟨rfl, rfl⟩
  · by_cases hk : k = markerKey
    · subst hk
      exact .inr ⟨t, rfl, by simp [markerValue?], by simp [markerValue?]⟩
    · exact .inl ⟨by simp [markerValue?, hk], by simp [markerValue?, hk]⟩
  · exact .inl ⟨by simp [markerValue?], by simp [markerValue?]⟩

/-! ### The walks of the two sides -/

theorem count_flatMap_map {α β : Type} (ts : List α) (f : α → List β) (g : β → Str) (id : Str) :
    ((ts.flatMap f).map g).count id = (ts.map fun t ↦ ((f t).map g).count id).sum := by
  induction ts with
  | nil => rfl
  | cons t ts ih => simp [ih]

theorem sum_add_le {α : Type} {ts : List α} {a b c : α → Nat} (h : ∀ t ∈ ts, a t + b t ≤ c t) :
    (ts.map a).sum + (ts.map b).sum ≤ (ts.map c).sum := by
  induction ts with
  | nil => simp
  | cons t ts ih =>
    rw [forall_mem_cons] at h
    have := ih h.2
    simp only [map_cons, sum_cons]
    omega

def refIds (ps : List Piece) : List Str := ps.map fun p ↦ p.ref.refId

/-- Every reference stands in the index for each piece of it, and where the value looks like its
marker. -/
def Counts (lineBudget : Nat) (v y : Json F) (ps : List Piece) : Prop :=
  ∀ id, (refIds ps).count id + ownMarkers lineBudget id v ≤ countRefMarkers id y

variable {v : Json F}

theorem Counts.kept (hv : Leaves lineBudget v) : Counts lineBudget v v [] := by
  intro id
  cases v with
  | list | dict => cases hv
  | null | bool | int | float | str | foreign => exact Nat.le_refl 0

theorem countRefMarkers_marker (id refId : Str) :
    countRefMarkers id (marker refId : Json F) = if refId = id then 1 else 0 := by
  by_cases h : refId = id
  · simp [marker, countRefMarkers, Json.fold_dict, Json.fold, isMarker, markerValue?, h]
  · simp [marker, countRefMarkers, Json.fold_dict, Json.fold, isMarker, markerValue?, h]

theorem Counts.external (p : Piece) : Counts lineBudget (.str p.value : Json F) (marker p.ref.refId)
    [p] := by
  intro id
  rw [countRefMarkers_marker]
  simp [refIds, count_singleton, ownMarkers, Json.fold]

theorem Counts.list {ts : List (Part F)}
    (h : ∀ t ∈ ts, Counts lineBudget t.before t.after t.pieces) :
    Counts lineBudget (.list (ts.map Part.before)) (.list (ts.map Part.after))
      (ts.flatMap Part.pieces) := by
  intro id
  rw [refIds, count_flatMap_map, ownMarkers, countRefMarkers, Json.fold_list, Json.fold_list,
    List.map_map, List.map_map]
  exact sum_add_le fun t ht ↦ h t ht id

variable {ts : List (Str × Part F)}

/-- An object that looks like the marker of a reference still does in the index. -/
theorem isMarker_parts {id : Str} (hst : ∀ t ∈ ts, StandsFor lineBudget t.2.after t.2.before)
    (h : isMarker id (ts.map fun t ↦ (t.1, t.2.before)) = true)
    (hshort : stringRequiresExternalization id lineBudget = false) :
    isMarker id (ts.map fun t ↦ (t.1, t.2.after)) = true := by
  rcases markerValue?_parts ts with ⟨hb, -⟩ | ⟨t, rfl, hb, ha⟩
  · rw [isMarker, hb] at h
    cases h
  · rw [isMarker, hb] at h
    have hst' := hst _ mem_cons_self
    cases hbefore : t.before with
    | str s =>
      rw [hbefore] at h hst'
      have hs : s = id := of_decide_eq_true h
      subst hs
      rw [StandsFor, hshort, if_neg Bool.false_ne_true] at hst'
      rw [isMarker, ha, hst']
      exact h
    | null | bool | int | float | list | dict | foreign =>
      rw [hbefore] at h
      cases h

theorem Counts.dict (hst : ∀ t ∈ ts, StandsFor lineBudget t.2.after t.2.before)
    (h : ∀ t ∈ ts, Counts lineBudget t.2.before t.2.after t.2.pieces) :
    Counts lineBudget (.dict (ts.map fun t ↦ (t.1, t.2.before)))
      (.dict (ts.map fun t ↦ (t.1, t.2.after))) (ts.flatMap fun t ↦ t.2.pieces) := by
  intro id
  have hitems := sum_add_le fun t ht ↦ h t ht id
  rw [refIds, count_flatMap_map, ownMarkers, countRefMarkers, Json.fold_dict, Json.fold_dict,
    List.map_map, List.map_map]
  have hown : (if isMarker id (ts.map fun t ↦ (t.1, t.2.before)) &&
        !stringRequiresExternalization id lineBudget then 1 else 0) ≤
      if isMarker id (ts.map fun t ↦ (t.1, t.2.after)) then 1 else 0 := by
    split
    next hif =>
      simp only [Bool.and_eq_true, Bool.not_eq_true'] at hif
      rw [isMarker_parts hst hif.1 hif.2]
      exact Nat.le_refl 1
    · exact Nat.zero_le _
  rw [Nat.add_left_comm]
  exact Nat.add_le_add hown hitems

/-- The reader's walk gives the value back if every piece is known by its reference and no own
object looks like the marker of a known one, or it meets an object it cannot look up. -/
def Restores (lineBudget : Nat) (v y : Json F) (ps : List Piece) : Prop :=
  ∀ values : Dict Str Str, (∀ p ∈ ps, values.lookup p.ref.refId = some p.value) →
    (∀ id, (values.lookup id).isSome → ownMarkers lineBudget id v = 0) →
    restore values y =
      if hashableMarkers lineBudget v then .ok (v, refIds ps) else .error .unhashable

theorem Restores.kept (hv : Leaves lineBudget v) : Restores lineBudget v v [] := by
  intro values _ _
  cases v with
  | list | dict => cases hv
  | null | bool | int | float | str | foreign => rfl

theorem Restores.external (p : Piece) :
    Restores lineBudget (.str p.value : Json F) (marker p.ref.refId) [p] := by
  intro values hvalues _
  simp [marker, restore, markerValue?, hvalues p (by simp), hashableMarkers, Json.fold, refIds]

/-- The reader's walk gives back what a part has been made of. -/
def Part.Restored (lineBudget : Nat) (values : Dict Str Str) (t : Part F) : Prop :=
  restore values t.after =
    if hashableMarkers lineBudget t.before then .ok (t.before, refIds t.pieces)
    else .error .unhashable

theorem restoreList_parts {values : Dict Str Str} {ts : List (Part F)}
    (h : ∀ t ∈ ts, t.Restored lineBudget values) :
    restoreList values (ts.map Part.after) =
      if ts.all fun t ↦ hashableMarkers lineBudget t.before then
        .ok (ts.map Part.before, refIds (ts.flatMap Part.pieces))
      else .error .unhashable := by
  induction ts with
  | nil => rfl
  | cons t ts ih =>
    rw [forall_mem_cons] at h
    rw [map_cons, restoreList, h.1, map_cons, all_cons]
    by_cases ht : hashableMarkers lineBudget t.before
    · rw [if_pos ht]
      dsimp only
      rw [ih h.2, ht, Bool.true_and]
      split
      · simp [Except.map, refIds]
      · rfl
    · rw [if_neg ht]
      simp [ht]

theorem restoreItems_parts {values : Dict Str Str} (h : ∀ t ∈ ts, t.2.Restored lineBudget values) :
    restoreItems values (ts.map fun t ↦ (t.1, t.2.after)) =
      if ts.all fun t ↦ hashableMarkers lineBudget t.2.before then
        .ok (ts.map fun t ↦ (t.1, t.2.before), refIds (ts.flatMap fun t ↦ t.2.pieces))
      else .error .unhashable := by
  induction ts with
  | nil => rfl
  | cons t ts ih =>
    rw [forall_mem_cons] at h
    rw [map_cons, restoreItems, h.1, map_cons, all_cons]
    by_cases ht : hashableMarkers lineBudget t.2.before
    · rw [if_pos ht]
      dsimp only
      rw [ih h.2, ht, Bool.true_and]
      split
      · simp [Except.map, refIds]
      · rfl
    · rw [if_neg ht]
      simp [ht]

theorem Restores.list {ts : List (Part F)}
    (h : ∀ t ∈ ts, Restores lineBudget t.before t.after t.pieces) :
    Restores lineBudget (.list (ts.map Part.before)) (.list (ts.map Part.after))
      (ts.flatMap Part.pieces) := by
  intro values hvalues hown
  have hitems : ∀ t ∈ ts, t.Restored lineBudget values := by
    intro t ht
    refine h t ht values (fun p hp ↦ hvalues p (mem_flatMap.2 ⟨t, ht, hp⟩)) fun id hid ↦ ?_
    have hzero := hown id hid
    rw [ownMarkers, Json.fold_list, List.map_map, List.sum_eq_zero_iff_forall_eq_nat] at hzero
    exact hzero _ (List.mem_map.2 ⟨t, ht, rfl⟩)
  rw [restore, restoreList_parts hitems, hashableMarkers, Json.fold_list, List.map_map, all_map]
  exact apply_ite _ _ _ _

theorem Restores.dict (hst : ∀ t ∈ ts, StandsFor lineBudget t.2.after t.2.before)
    (h : ∀ t ∈ ts, Restores lineBudget t.2.before t.2.after t.2.pieces) :
    Restores lineBudget (.dict (ts.map fun t ↦ (t.1, t.2.before)))
      (.dict (ts.map fun t ↦ (t.1, t.2.after))) (ts.flatMap fun t ↦ t.2.pieces) := by
  intro values hvalues hown
  have hsum (id : Str) (hid : (values.lookup id).isSome) := hown id hid
  simp only [ownMarkers, Json.fold_dict, Nat.add_eq_zero_iff, List.map_map,
    List.sum_eq_zero_iff_forall_eq_nat] at hsum
  have hitems : ∀ t ∈ ts, t.2.Restored lineBudget values := by
    intro t ht
    refine h t ht values (fun p hp ↦ hvalues p (mem_flatMap.2 ⟨t, ht, hp⟩)) fun id hid ↦ ?_
    exact (hsum id hid).2 _ (List.mem_map.2 ⟨t, ht, rfl⟩)
  have hdescend : (restoreItems values (ts.map fun t ↦ (t.1, t.2.after))).map
        (fun p ↦ ((.dict p.1 : Json F), p.2)) =
      if ts.all fun t ↦ hashableMarkers lineBudget t.2.before then
        .ok (.dict (ts.map fun t ↦ (t.1, t.2.before)), refIds (ts.flatMap fun t ↦ t.2.pieces))
      else .error .unhashable := by
    rw [restoreItems_parts hitems]
    exact apply_ite _ _ _ _
  rw [restore.eq_def, hashableMarkers, Json.fold_dict, List.map_map, all_map]
  dsimp only
  rcases markerValue?_parts ts with ⟨hb, ha⟩ | ⟨t, rfl, hb, ha⟩
  · rw [hb, ha]
    exact hdescend
  · rw [hb, ha]
    have hst' := hst _ mem_cons_self
    cases hbefore : t.before with
    | str s =>
      rw [hbefore, StandsFor] at hst'
      by_cases hs : stringRequiresExternalization s lineBudget = true
      · rw [if_pos hs] at hst'
        obtain ⟨id, hid⟩ := hst'
        rw [hid, hashableValue, hs]
        rfl
      · rw [if_neg hs] at hst'
        have hnone : values.lookup s = none := by
          by_contra hsome
          have hzero := (hsum s (Option.isSome_iff_ne_none.2 hsome)).1
          rw [isMarker, hb, hbefore] at hzero
          simp [hs] at hzero
        rw [hst', hashableValue]
        dsimp only
        rw [hnone, Bool.eq_false_iff.2 hs]
        exact hdescend
    | list | dict =>
      rw [hbefore, StandsFor] at hst'
      obtain ⟨ys, hys⟩ := hst'
      rw [hys]
      rfl
    | null | bool | int | float | foreign =>
      rw [hbefore] at hst'
      rw [show t.after = _ from hst']
      exact hdescend

/-- What a walk makes of a value, and takes out of it. -/
structure Walks (env : Env) (stem : Str) (lineBudget : Nat) (v y : Json F) (ps : List Piece) :
    Prop where
  standsFor : StandsFor lineBudget y v
  counts : Counts lineBudget v y ps
  restores : Restores lineBudget v y ps
  uniqueKeys : v.UniqueKeys → y.UniqueKeys
  values : ∀ ok : Str → Prop, v.AllStr ok → ∀ p ∈ ps, ok p.value
  pieces : ∀ p ∈ ps, IsPiece env stem lineBudget p

theorem Walks.list {ts : List (Part F)}
    (h : ∀ t ∈ ts, Walks env stem lineBudget t.before t.after t.pieces) :
    Walks env stem lineBudget (.list (ts.map Part.before)) (.list (ts.map Part.after))
      (ts.flatMap Part.pieces) where
  standsFor := ⟨_, rfl⟩
  counts := Counts.list fun t ht ↦ (h t ht).counts
  restores := Restores.list fun t ht ↦ (h t ht).restores
  uniqueKeys hu := by
    rw [Json.uniqueKeys_list_iff, forall_mem_map] at hu ⊢
    exact fun t ht ↦ (h t ht).uniqueKeys (hu t ht)
  values ok hall := by
    rw [Json.allStr_list_iff, forall_mem_map] at hall
    intro p hp
    obtain ⟨t, ht, hp⟩ := mem_flatMap.1 hp
    exact (h t ht).values ok (hall t ht) p hp
  pieces p hp := by
    obtain ⟨t, ht, hp⟩ := mem_flatMap.1 hp
    exact (h t ht).pieces p hp

theorem Walks.dict (h : ∀ t ∈ ts, Walks env stem lineBudget t.2.before t.2.after t.2.pieces) :
    Walks env stem lineBudget (.dict (ts.map fun t ↦ (t.1, t.2.before)))
      (.dict (ts.map fun t ↦ (t.1, t.2.after))) (ts.flatMap fun t ↦ t.2.pieces) where
  standsFor := ⟨_, rfl⟩
  counts := Counts.dict (fun t ht ↦ (h t ht).standsFor) fun t ht ↦ (h t ht).counts
  restores := Restores.dict (fun t ht ↦ (h t ht).standsFor) fun t ht ↦ (h t ht).restores
  uniqueKeys hu := by
    rw [Json.uniqueKeys_dict_iff, forall_mem_map, List.map_map] at hu ⊢
    exact ⟨hu.1, fun t ht ↦ (h t ht).uniqueKeys (hu.2 t ht)⟩
  values ok hall := by
    rw [Json.allStr_dict_iff, forall_mem_map] at hall
    intro p hp
    obtain ⟨t, ht, hp⟩ := mem_flatMap.1 hp
    exact (h t ht).values ok (hall t ht) p hp
  pieces p hp := by
    obtain ⟨t, ht, hp⟩ := mem_flatMap.1 hp
    exact (h t ht).pieces p hp

theorem Walks.kept (hv : Leaves lineBudget v) : Walks env stem lineBudget v v [] where
  standsFor := by
    cases v with
    | list | dict => cases hv
    | str => rw [StandsFor, show _ = false from hv, if_neg Bool.false_ne_true]
    | null | bool | int | float | foreign => rfl
  counts := .kept hv
  restores := .kept hv
  uniqueKeys := id
  values _ _ := by simp
  pieces := by simp

theorem Walks.external {p : Piece} (h : IsPiece env stem lineBudget p)
    (hlong : stringRequiresExternalization p.value lineBudget = true) :
    Walks env stem lineBudget (.str p.value : Json F) (marker p.ref.refId) [p] where
  standsFor := by
    rw [StandsFor, if_pos hlong]
    exact ⟨_, rfl⟩
  counts := Counts.external p
  restores := Restores.external p
  uniqueKeys _ := by simp [marker]
  values ok hall := by simpa using (show ok p.value from hall)
  pieces := by simpa using h

/-- **What a walk that went through has done.** -/
theorem walk_spec {y : Json F} {pointer fieldName : Str} {w w' : Walked}
    (h : walk env stem lineBudget v pointer fieldName w = .ok (y, w')) :
    ∃ ps, Walks env stem lineBudget v y ps ∧ w'.refs = w.refs ++ ps.map Piece.ref ∧
      w'.members = w.members ++ ps.map Piece.member :=
  walk_induction (P := Walks env stem lineBudget) (fun _ ↦ Walks.kept) (fun _ ↦ Walks.external)
    (fun _ ↦ Walks.list) (fun _ ↦ Walks.dict) v h

/-- If every reference stands in the index once, the references differ, and no own object of the
value looks like the marker of one. -/
theorem Walks.unambiguous {y : Json F} {ps : List Piece} (h : Walks env stem lineBudget v y ps)
    (hcount : ∀ p ∈ ps, countRefMarkers p.ref.refId y = 1) :
    (refIds ps).Nodup ∧ ∀ p ∈ ps, ownMarkers lineBudget p.ref.refId v = 0 := by
  have hle (p : Piece) (hp : p ∈ ps) :
      (refIds ps).count p.ref.refId + ownMarkers lineBudget p.ref.refId v ≤ 1 :=
    (h.counts p.ref.refId).trans (hcount p hp).le
  have hpos (p : Piece) (hp : p ∈ ps) : 0 < (refIds ps).count p.ref.refId :=
    count_pos_iff.2 (List.mem_map.2 ⟨p, hp, rfl⟩)
  constructor
  · rw [nodup_iff_count_le_one]
    intro id
    by_cases hid : id ∈ refIds ps
    · obtain ⟨p, hp, rfl⟩ := List.mem_map.1 hid
      have := hle p hp
      omega
    · rw [count_eq_zero_of_not_mem hid]
      omega
  · intro p hp
    have := hle p hp
    have := hpos p hp
    omega

end Walk

end AgentGateway.Spill
