import AgentGateway.EventChannel.Codec

/-!
# An event the child admits, at the parent

The child's preflight runs the bounded snapshot on the bare event.  The parent runs it on the
decoded frame, in which the event stands one level down beside four other values, and only then
on the event.  So the two do not apply the same bounds:

* `decodeCanonicalJsonObject_eventBody`: the parent decodes the frame exactly if the event leaves
  room for the envelope, in the nesting bound, in the number of values and in the byte estimate
  (`RoomForEnvelope`); its frame is within the cap anyway (`length_eventBody`).
* `parent_accepts_iff_room`: whether the parent ends up with a record of the event hangs on that
  alone.
-/

namespace AgentGateway.EventChannel

open Py List

variable {F : Type} [PyFloat F]

/-! ## The preflight -/

variable {e : Json F} {snap : EventSnapshot}

theorem snapshotEvent_ok (h : snapshotEvent e = .ok snap) :
    Within 0 0 e ∧ dumps e = some snap.encoded ∧
      snap.encoded.length ≤ maxFrameBytes - eventFrameEnvelopeBytes ∧
      eventTypeOf e = .ok snap.eventType ∧ snap.lineBytes = snap.encoded ++ ascii "\n" := by
  cases e with
  | dict =>
    rw [snapshotEvent] at h
    split at h
    · cases h
    · split at h <;> cases h
    next c hc =>
      obtain ⟨hw, hv, hd, -, -⟩ := canonicalJsonSnapshot_ok hc
      split at h
      · cases h
      next hlen =>
        obtain ⟨t, ht, h⟩ := bind_eq_ok_iff.1 h
        cases h
        rw [hv] at ht
        exact ⟨hw, hd, Nat.not_lt.1 hlen, ht, rfl⟩
  | _ => cases h

theorem snapshotEvent_of_within {kvs : List (Str × Json F)} {encoded : List UInt8} {t : Str}
    (hw : Within 0 0 (.dict kvs)) (hd : dumps (.dict kvs) = some encoded)
    (hfit : estimate (.dict kvs) ≤ maxLineBytes - 1)
    (hlen : encoded.length ≤ maxFrameBytes - eventFrameEnvelopeBytes)
    (ht : eventTypeOf (.dict kvs) = .ok t) :
    snapshotEvent (.dict kvs) = .ok ⟨t, encoded, encoded ++ ascii "\n"⟩ := by
  rw [snapshotEvent, canonicalJsonSnapshot_of_within hw hd hfit (by decide)]
  dsimp only
  rw [if_neg (Nat.not_lt.2 hlen), ht]
  rfl

theorem snapshotEvent_isDict (h : snapshotEvent e = .ok snap) :
    ∃ kvs, e = .dict kvs := by
  cases e with
  | dict kvs => exact ⟨kvs, rfl⟩
  | _ => cases h

/-! ## Decoding what was encoded -/

omit [PyFloat F] in
theorem firstDuplicate_eq_none {seen : List Str} {pairs : List (Str × Json F)} :
    firstDuplicate seen pairs = none ↔
      (pairs.map Prod.fst).Nodup ∧ ∀ key ∈ pairs.map Prod.fst, key ∉ seen := by
  induction pairs generalizing seen with
  | nil => simp [firstDuplicate]
  | cons kv pairs ih =>
    obtain ⟨key, x⟩ := kv
    rw [firstDuplicate]
    split
    next hmem => simp [hmem]
    next hmem =>
      rw [ih, map_cons, nodup_cons, forall_mem_cons]
      simp only [mem_cons, not_or, hmem, not_false_eq_true, true_and]
      constructor
      · rintro ⟨hnd, hall⟩
        exact ⟨⟨fun hin ↦ (hall key hin).1 rfl, hnd⟩, fun k hk ↦ (hall k hk).2⟩
      · rintro ⟨⟨hnot, hnd⟩, hall⟩
        exact ⟨hnd, fun k hk ↦ ⟨fun heq ↦ hnot (heq ▸ hk), hall k hk⟩⟩

omit [PyFloat F] in
theorem channelHooks_keepsDistinct : KeepsDistinct (channelHooks (F := F)) := by
  intro kvs hnd
  change uniqueJsonObject kvs = .ok (.dict kvs)
  rw [uniqueJsonObject, firstDuplicate_eq_none.2 ⟨hnd, by simp⟩]

/-- **Decoding the canonical encoding of an object** comes down to its snapshot. -/
theorem decodeCanonicalJsonObject_dumps {kvs : List (Str × Json F)} {body : List UInt8}
    (hd : dumps (.dict kvs) = some body) (hu : (Json.dict kvs).UniqueKeys) (value : Json F) :
    decodeCanonicalJsonObject body = .ok value ↔
      value = (Json.dict kvs).sortKeys ∧
        ∃ c, canonicalJsonSnapshot (Json.dict kvs).sortKeys (maxFrameBytes - frameHeaderSize) =
          .ok c := by
  obtain ⟨text, htext, hloads⟩ := loads_dumps channelHooks_keepsDistinct hd hu
  have hsorted : dumps (Json.dict kvs).sortKeys = some body := by
    rw [dumps, Json.sortKeys_sortKeys]
    exact hd
  rw [decodeCanonicalJsonObject, htext]
  rw [bind_eq_ok_iff]
  simp only [hloads, Except.ok.injEq, exists_eq_left']
  rw [Json.sortKeys_dict] at hsorted ⊢
  rw [bind_eq_ok_iff]
  constructor
  · rintro ⟨c, hc, h⟩
    split at h
    · cases h
      exact ⟨rfl, c, hc⟩
    · cases h
  · rintro ⟨rfl, c, hc⟩
    obtain ⟨-, -, hcd, -, -⟩ := canonicalJsonSnapshot_ok hc
    have hbody : c.encoded = body := by
      rw [hsorted] at hcd
      exact (Option.some.inj hcd).symm
    exact ⟨c, hc, by rw [if_pos hbody]⟩

/-! ## The frame around an event -/

/-- The object an EVENT frame encodes. -/
def eventFrameValue (event : Json F) (channelId : ChannelId) (seq : Nat) : Json F :=
  .dict [(.lit "channel_id", .str channelId.str), (.lit "event", event),
    (.lit "kind", .str (.lit "EVENT")), (.lit "seq", .int seq), (.lit "version", .int 1)]

omit [PyFloat F] in
/-- The keys of the envelope stand in order. -/
theorem sortKeys_eventFrameValue (e : Json F) (id : ChannelId) (seq : Nat) :
    (eventFrameValue e id seq).sortKeys = eventFrameValue e.sortKeys id seq := rfl

omit [PyFloat F] in
theorem uniqueKeys_eventFrameValue (hu : e.UniqueKeys) (id : ChannelId) (seq : Nat) :
    (eventFrameValue e id seq).UniqueKeys := by
  refine Json.uniqueKeys_dict_iff.2 ⟨?_, by simpa using hu⟩
  simp only [map_cons, map_nil]
  decide

theorem isLowerHex_iff (c : Char) :
    isLowerHex c = true ↔ 48 ≤ c.toNat ∧ c.toNat ≤ 57 ∨ 97 ≤ c.toNat ∧ c.toNat ≤ 102 := by
  have hle : ∀ a b : Char, a ≤ b ↔ a.toNat ≤ b.toNat := fun a b ↦
    Char.le_def.trans UInt32.le_iff_toNat_le
  simp only [isLowerHex, Bool.or_eq_true, Bool.and_eq_true, decide_eq_true_eq, hle]
  rfl

theorem isLowerHex_ascii {c : Char} (h : isLowerHex c = true) : c.toNat ≤ 0x7F := by
  have := (isLowerHex_iff c).1 h
  omega

/-- Hexadecimal digits are written as they are. -/
theorem escapeStr_hex {t : List Char} (h : t.all isLowerHex = true) :
    escapeStr (t.map .scalar) = t := by
  induction t with
  | nil => rfl
  | cons c t ih =>
    rw [all_cons, Bool.and_eq_true] at h
    have hplain : escapeChar c = [c] := by
      have hc := (isLowerHex_iff c).1 h.1
      obtain ⟨hmem, -⟩ | ⟨-, hctl, -⟩ | ⟨-, -, hesc⟩ := escapeChar_cases c
      · simp only [shortEscaped, mem_cons, not_mem_nil, or_false] at hmem
        rcases hmem with rfl | rfl | rfl | rfl | rfl | rfl | rfl <;> exact absurd hc (by decide)
      · omega
      · exact hesc
    rw [map_cons, escapeStr, hplain, ih h.2]
    rfl

theorem encodable_eventFrameValue (he : e.encodable = true) (id : ChannelId) {seq : Nat}
    (hseq : seq < maxEvents) : (eventFrameValue e id seq).encodable = true := by
  have hid : strEncodable id.str = true := by
    rw [strEncodable, Hex64.str, Str.chars?_map_scalar]
    rfl
  have hdigits : (Nat.toDigits 10 seq).length ≤ maxStrDigits := by
    refine le_trans ((Nat.length_toDigits_le_iff (by omega) (by omega)).2 ?_)
      (show 6 ≤ maxStrDigits by decide)
    exact hseq.trans (by decide)
  have hint : intEncodable (seq : Int) = true := decide_eq_true hdigits
  have hver : intEncodable 1 = true := by decide
  rw [eventFrameValue, Json.every_dict_iff]
  simp only [forall_mem_cons, Json.every_str]
  exact ⟨⟨by decide, hid⟩, ⟨by decide, he⟩, ⟨by decide, by decide⟩, ⟨by decide, hint⟩,
    ⟨by decide, hver⟩, forall_mem_nil _⟩

/-- **The frame the child puts together is the canonical encoding of that object.** -/
theorem dumps_eventFrameValue {encoded : List UInt8} (hd : dumps e = some encoded) (id : ChannelId)
    {seq : Nat} (hseq : seq < maxEvents) :
    dumps (eventFrameValue e id seq) = some (eventBody encoded id seq) := by
  obtain ⟨henc, rfl⟩ := dumps_eq_some_iff.1 hd
  refine dumps_eq_some_iff.2 ⟨encodable_eventFrameValue henc id hseq, ?_⟩
  have hid : escapeStr id.str = id.chars := escapeStr_hex id.hex
  rw [sortKeys_eventFrameValue, eventFrameValue]
  simp only [Json.text, Json.render, Json.renderItemsTail, eventBody, ascii]
  rw [Json.render_compact 1 0 e.sortKeys, show (Json.compact (F := F) escapeStr).esc = escapeStr
    from rfl, hid]
  rw [← encodeUtf8_append, ← encodeUtf8_append, ← encodeUtf8_append, ← encodeUtf8_append,
    ← encodeUtf8_append, ← encodeUtf8_append]
  congr 1
  simp only [append_assoc, cons_append, nil_append]
  rfl

/-- The bytes of the frame, header included. -/
theorem length_eventBody (encoded : List UInt8) (id : ChannelId) (seq : Nat) :
    frameHeaderSize + (eventBody encoded id seq).length =
      eventFrameFixedEnvelopeBytes + encoded.length + (Nat.toDigits 10 seq).length := by
  have hid : (encodeUtf8 id.chars).length = 64 := by
    rw [length_encodeUtf8, utf8Length_of_ascii fun c hc ↦ ?_, id.length_eq]
    exact isLowerHex_ascii (all_eq_true.1 id.hex c hc)
  have hseq : (encodeUtf8 (Nat.toDigits 10 seq)).length = (Nat.toDigits 10 seq).length := by
    rw [length_encodeUtf8, utf8Length_of_ascii fun c hc ↦ ?_]
    exact isDigit_ascii (Nat.isDigit_of_mem_toDigits (by omega) (by omega) hc)
  have h1 : (ascii "\x7b\"channel_id\":\"").length = 15 := by decide
  have h2 : (ascii "\",\"event\":").length = 10 := by decide
  have h3 : (ascii ",\"kind\":\"EVENT\",\"seq\":").length = 22 := by decide
  have h4 : (ascii ",\"version\":1\x7d").length = 13 := by decide
  have h5 : eventFrameFixedEnvelopeBytes = 128 := by decide
  have h6 : frameHeaderSize = 4 := rfl
  simp only [eventBody, length_append, hid, hseq, h1, h2, h3, h4, h5, h6]
  omega

theorem length_toDigits_seq {seq : Nat} (hseq : seq < maxEvents) :
    (Nat.toDigits 10 seq).length ≤ 5 :=
  (Nat.length_toDigits_le_iff (by omega) (by omega)).2 (hseq.trans_le (by decide))

/-- **Every event the child admits is framed within the cap.** -/
theorem encodeEventWireFrame_ok (h : snapshotEvent e = .ok snap) (id : ChannelId) {seq : Nat}
    (hseq : seq < maxEvents) :
    encodeEventWireFrame snap id seq =
      .ok ⟨eventBody snap.encoded id seq, frame (eventBody snap.encoded id seq)⟩ ∧
    (frame (eventBody snap.encoded id seq)).length ≤ maxFrameBytes := by
  obtain ⟨-, -, hlen, -, -⟩ := snapshotEvent_ok h
  have hdigits := length_toDigits_seq hseq
  have hbody := length_eventBody snap.encoded id seq
  have hfixed : eventFrameFixedEnvelopeBytes = 128 := by decide
  have henv : eventFrameEnvelopeBytes = 134 := by decide
  have hmax : maxFrameBytes = 2097152 := by decide
  have hhead : frameHeaderSize = 4 := rfl
  constructor
  · rw [encodeEventWireFrame, if_neg (by omega)]
  · rw [length_frame]
    omega

/-! ## Room for the envelope -/

/-- What the envelope of an EVENT frame adds must still be within the bounds: one level, four
values and the object around them, and the bytes of the other fields. -/
structure RoomForEnvelope (e : Json F) (seq : Nat) : Prop where
  nesting : height e + 1 ≤ maxJsonNesting
  nodes : nodeCount e + 5 ≤ maxJsonValueNodes
  bytes : 124 + estimate e + intEstimate seq ≤ maxFrameBytes - frameHeaderSize

instance (e : Json F) (seq : Nat) : Decidable (RoomForEnvelope e seq) :=
  decidable_of_iff (height e + 1 ≤ maxJsonNesting ∧ nodeCount e + 5 ≤ maxJsonValueNodes ∧
      124 + estimate e + intEstimate seq ≤ maxFrameBytes - frameHeaderSize)
    ⟨fun h ↦ ⟨h.1, h.2.1, h.2.2⟩, fun h ↦ ⟨h.nesting, h.nodes, h.bytes⟩⟩

theorem strSize_channelId (id : ChannelId) : strSize id.str = 66 := by
  have henc : strEncodable id.str = true := by
    rw [strEncodable, Hex64.str, Str.chars?_map_scalar]
    rfl
  have hq : ('"').utf8Size = 1 := rfl
  rw [← utf8Length_strText henc, strText, Hex64.str, escapeStr_hex id.hex, utf8Length_cons,
    utf8Length_append, utf8Length_of_ascii fun c hc ↦ isLowerHex_ascii
      (all_eq_true.1 id.hex c hc), id.length_eq, utf8Length_cons, utf8Length_nil, hq]

theorem estimate_eventFrameValue (e : Json F) (id : ChannelId) (seq : Nat) :
    estimate (eventFrameValue e id seq) = 124 + estimate e + intEstimate seq := by
  have h1 : strSize (.lit "channel_id") = 12 := by decide
  have h2 : strSize (.lit "event") = 7 := by decide
  have h3 : strSize (.lit "kind") = 6 := by decide
  have h4 : strSize (.lit "EVENT") = 7 := by decide
  have h5 : strSize (.lit "seq") = 5 := by decide
  have h6 : strSize (.lit "version") = 9 := by decide
  have h7 : intEstimate 1 = 1 := by decide
  rw [estimate, eventFrameValue, weight_dict]
  simp only [map_cons, map_nil, sum_cons, sum_nil, weight_int, weight_str, length_cons, length_nil,
    strSize_channelId, h1, h2, h3, h4, h5, h6, h7]
  rw [estimate]
  omega

theorem within_eventFrameValue (hclean : clean e = true) (id : ChannelId)
    (seq : Nat) : Within 0 0 (eventFrameValue e id seq) ↔
      height e + 1 ≤ maxJsonNesting ∧ nodeCount e + 5 ≤ maxJsonValueNodes := by
  have hid : strEncodable id.str = true := by
    rw [strEncodable, Hex64.str, Str.chars?_map_scalar]
    rfl
  have hcl : clean (eventFrameValue e id seq) = true := by
    rw [eventFrameValue, clean, Json.every_dict_iff]
    simp only [forall_mem_cons, Json.every_str]
    exact ⟨⟨by decide, hid⟩, ⟨by decide, hclean⟩, ⟨by decide, by decide⟩, ⟨by decide, rfl⟩,
      ⟨by decide, rfl⟩, forall_mem_nil _⟩
  have hht : height (eventFrameValue e id seq) = max 1 (max (height e + 1) 1) := rfl
  have hnd : nodeCount (eventFrameValue e id seq) = 1 + (1 + (nodeCount e + 3)) := rfl
  constructor
  · rintro ⟨-, h2, h3⟩
    omega
  · rintro ⟨h1, h2⟩
    exact ⟨hcl, by omega, by omega⟩

/-- **The parent decodes the frame of an admitted event exactly if there is room for the
envelope.** -/
theorem decodeCanonicalJsonObject_eventBody (hu : e.UniqueKeys) (h : snapshotEvent e = .ok snap)
    (id : ChannelId) {seq : Nat}
    (hseq : seq < maxEvents) (value : Json F) :
    decodeCanonicalJsonObject (eventBody snap.encoded id seq) = .ok value ↔
      value = eventFrameValue e.sortKeys id seq ∧ RoomForEnvelope e seq := by
  obtain ⟨hw, hd, -, -, -⟩ := snapshotEvent_ok h
  have hdf := dumps_eventFrameValue hd id hseq
  have hclean : clean e.sortKeys = true := (Json.every_sortKeys ..).trans hw.clean
  have hest : estimate (eventFrameValue e.sortKeys id seq) =
      124 + estimate e + intEstimate seq := by
    rw [estimate_eventFrameValue, estimate, weight_sortKeys, estimate]
  rw [decodeCanonicalJsonObject_dumps hdf (uniqueKeys_eventFrameValue hu id seq)]
  change _ = (eventFrameValue e id seq).sortKeys ∧ (∃ c, canonicalJsonSnapshot
    (eventFrameValue e id seq).sortKeys _ = .ok c) ↔ _
  rw [sortKeys_eventFrameValue]
  refine and_congr_right fun _ ↦ ⟨?_, ?_⟩
  · rintro ⟨c, hc⟩
    obtain ⟨hwf, -, -, -, hfit⟩ := canonicalJsonSnapshot_ok hc
    rw [within_eventFrameValue hclean, height_sortKeys, nodeCount_sortKeys] at hwf
    have hbytes := hfit rfl
    rw [hest] at hbytes
    exact ⟨hwf.1, hwf.2, hbytes⟩
  · intro hroom
    have hwf : Within 0 0 (eventFrameValue e.sortKeys id seq) := by
      rw [within_eventFrameValue hclean, height_sortKeys, nodeCount_sortKeys]
      exact ⟨hroom.nesting, hroom.nodes⟩
    have hds : dumps (eventFrameValue e.sortKeys id seq) =
        some (eventBody snap.encoded id seq) := by
      rw [dumps, sortKeys_eventFrameValue, Json.sortKeys_sortKeys]
      exact hdf
    exact ⟨_, canonicalJsonSnapshot_of_within hwf hds (by rw [hest]; exact hroom.bytes)
      (by decide)⟩

/-! ## The record -/

omit [PyFloat F] in
theorem eventTypeOf_sortKeys (hu : e.UniqueKeys) :
    eventTypeOf e.sortKeys = eventTypeOf e := by
  rw [eventTypeOf, eventTypeOf, Json.get?_sortKeys hu]
  cases e.get? (.lit "type") with
  | none => rfl
  | some t => cases t <;> rfl

/-- The preflight does not depend on the order of keys, as long as the estimate is in the budget. -/
theorem snapshotEvent_sortKeys (hu : e.UniqueKeys) (h : snapshotEvent e = .ok snap)
    (hfit : estimate e ≤ maxLineBytes - 1) :
    snapshotEvent e.sortKeys = .ok snap := by
  obtain ⟨hw, hd, hlen, ht, hline⟩ := snapshotEvent_ok h
  obtain ⟨kvs, rfl⟩ := snapshotEvent_isDict h
  have hds : dumps (Json.dict kvs).sortKeys = some snap.encoded := by
    rw [dumps, Json.sortKeys_sortKeys]
    exact hd
  have hws : Within 0 0 (Json.dict kvs).sortKeys := within_sortKeys.2 hw
  have hests : estimate (Json.dict kvs).sortKeys ≤ maxLineBytes - 1 := by
    rw [estimate, weight_sortKeys]
    exact hfit
  have hts : eventTypeOf (Json.dict kvs).sortKeys = .ok snap.eventType := by
    rw [eventTypeOf_sortKeys hu, ht]
  rw [Json.sortKeys_dict] at hds hws hests hts ⊢
  rw [snapshotEvent_of_within hws hds hests hlen hts, ← hline]

theorem isHex64_channelId (id : ChannelId) : isHex64 id.str = true := by
  have hlen : id.str.length = 64 := by rw [Hex64.str, length_map, id.length_eq]
  rw [isHex64, hlen, Hex64.str, all_map]
  exact id.hex

/-- What `_receive_event_record` does once the frame is decoded. -/
theorem receiveEventRecord_eventFrameValue (hu : e.UniqueKeys) (h : snapshotEvent e = .ok snap)
    (hfit : estimate e ≤ maxLineBytes - 1) (htype : snap.eventType ≠ .lit "frame_cap_finding")
    (id : ChannelId) (st : ReceiveState) (hcount : st.records.length < maxEvents) {wire : WireFrame}
    (hbudget : st.eventBytes + wire.frameBytes.length ≤ maxEventBytes) :
    receiveEventRecord id st (eventFrameValue e.sortKeys id st.expectedSeq) wire =
      .ok (⟨st.expectedSeq, wire.frameBytes, snap.lineBytes⟩,
        st.append ⟨st.expectedSeq, wire.frameBytes, snap.lineBytes⟩
          (snap.eventType ∈ terminalEventTypes)) := by
  have hfields : requireExactFields (eventFrameValue e.sortKeys id st.expectedSeq) eventFields
      "EVENT" = .ok () := rfl
  have hkind : requireKind (eventFrameValue e.sortKeys id st.expectedSeq) "EVENT" = .ok () := rfl
  have hversion : requireVersion (eventFrameValue e.sortKeys id st.expectedSeq) = .ok () := rfl
  have hchannel : requireFrameChannel (eventFrameValue e.sortKeys id st.expectedSeq) id =
      .ok () := by
    change (if isHex64 id.str = true then if id.str = id.str then Except.ok () else _ else _) = _
    rw [if_pos (isHex64_channelId id), if_pos rfl]
  have hseq : requireNonnegativeInt
      ((eventFrameValue e.sortKeys id st.expectedSeq).get? (.lit "seq")) "EVENT seq" =
      .ok st.expectedSeq := rfl
  have hevent : (eventFrameValue e.sortKeys id st.expectedSeq).get? (.lit "event") =
      some e.sortKeys := rfl
  refine bind_eq_ok_iff.2 ⟨_, hfields, bind_eq_ok_iff.2 ⟨_, hkind, bind_eq_ok_iff.2 ⟨_, hversion,
    bind_eq_ok_iff.2 ⟨_, hchannel, bind_eq_ok_iff.2 ⟨_, hseq, ?_⟩⟩⟩⟩⟩
  rw [if_neg (not_not.2 rfl), hevent]
  dsimp only
  rw [snapshotEvent_sortKeys hu h hfit]
  dsimp only
  rw [if_neg fun hc ↦ htype hc.1, if_neg (Nat.not_le.2 hcount), if_neg (Nat.not_lt.2 hbudget)]

/-- The event read back from the record's line. -/
theorem record_event (hu : e.UniqueKeys) (h : snapshotEvent e = .ok snap)
    (hfit : estimate e ≤ maxFrameBytes - frameHeaderSize) (seq : Nat) (frameBytes : List UInt8) :
    AutonomousEventRecord.event ⟨seq, frameBytes, snap.lineBytes⟩ = .ok e.sortKeys := by
  obtain ⟨hw, hd, -, -, hline⟩ := snapshotEvent_ok h
  obtain ⟨kvs, rfl⟩ := snapshotEvent_isDict h
  have hds : dumps (Json.dict kvs).sortKeys = some snap.encoded := by
    rw [dumps, Json.sortKeys_sortKeys]
    exact hd
  have hnl : ascii "\n" = [10] := by decide
  rw [AutonomousEventRecord.event, hline, hnl, dropLast_concat,
    decodeCanonicalJsonObject_dumps hd hu]
  refine ⟨rfl, _, canonicalJsonSnapshot_of_within (within_sortKeys.2 hw) hds ?_ (by decide)⟩
  rw [estimate, weight_sortKeys]
  exact hfit

/-- The parent takes the frame of the event: it is within the cap, it is decoded, and the record
that comes of it holds the event. -/
def ParentAccepts (e : Json F) (snap : EventSnapshot) (id : ChannelId) (st : ReceiveState) : Prop :=
  ∃ wire, encodeEventWireFrame snap id st.expectedSeq = .ok wire ∧
    wire.frameBytes.length ≤ maxFrameBytes ∧
    ∃ value, decodeCanonicalJsonObject (F := F) wire.body = .ok value ∧
    ∃ record st', receiveEventRecord id st value wire = .ok (record, st') ∧
    ∃ e', record.event = .ok e' ∧ e'.Equiv e

/-- **The parent takes the frame of an event that the child admitted exactly if the event leaves
room for the envelope.** -/
theorem parent_accepts_iff_room {e : Json F} (hu : e.UniqueKeys) {snap : EventSnapshot}
    (h : snapshotEvent e = .ok snap) (htype : snap.eventType ≠ .lit "frame_cap_finding")
    (id : ChannelId) (st : ReceiveState) (hseq : st.expectedSeq < maxEvents)
    (hcount : st.records.length < maxEvents)
    (hbudget : st.eventBytes + (frame (eventBody snap.encoded id st.expectedSeq)).length ≤
      maxEventBytes) :
    ParentAccepts e snap id st ↔ RoomForEnvelope e st.expectedSeq := by
  obtain ⟨hframe, hcap⟩ := encodeEventWireFrame_ok h id hseq
  constructor
  · rintro ⟨wire, hwire, -, value, hvalue, -⟩
    rw [hframe] at hwire
    cases hwire
    exact ((decodeCanonicalJsonObject_eventBody hu h id hseq value).1 hvalue).2
  · intro hroom
    have hbytes := hroom.bytes
    have hmax : maxFrameBytes - frameHeaderSize ≤ maxLineBytes - 1 := by decide
    refine ⟨_, hframe, hcap, _,
      (decodeCanonicalJsonObject_eventBody hu h id hseq _).2 ⟨rfl, hroom⟩, _, _,
      receiveEventRecord_eventFrameValue hu h (by omega) htype id st hcount hbudget,
      e.sortKeys, record_event hu h (by omega) _ _, ?_⟩
    rw [Json.Equiv, Json.sortKeys_sortKeys]

/-! ## An event at the nesting bound -/

/-- Lists within lists, and nothing in the innermost. -/
def nest : Nat → Json F
  | 0 => .list []
  | n + 1 => .list [nest n]

/-- An event that holds such a value. -/
def nestedEvent (n : Nat) : Json F :=
  .dict [(.lit "type", .str (.lit "x")), (.lit "value", nest n)]

omit [PyFloat F] in
theorem height_nest (n : Nat) : height (nest n : Json F) = n := by
  induction n with
  | zero => rfl
  | succ n ih =>
    rw [nest, height_list, map_singleton, ih]
    exact Nat.max_zero _

omit [PyFloat F] in
theorem nodeCount_nest (n : Nat) : nodeCount (nest n : Json F) = n + 1 := by
  induction n with
  | zero => rfl
  | succ n ih =>
    rw [nest, nodeCount_list, map_singleton, sum_singleton, ih, Nat.add_comm]

theorem estimate_nest (n : Nat) : estimate (nest n : Json F) = 2 * (n + 1) := by
  induction n with
  | zero => rfl
  | succ n ih =>
    rw [estimate] at ih
    rw [nest, estimate, weight_list, map_singleton, sum_singleton, ih, length_singleton]
    omega

omit [PyFloat F] in
theorem every_nest (okStr : Str → Bool) (okInt : Int → Bool) (okFloat : F → Bool) (n : Nat) :
    (nest n).every okStr okInt okFloat = true := by
  induction n with
  | zero => rfl
  | succ n ih => simpa [nest, Json.every_list_iff] using ih

omit [PyFloat F] in
theorem uniqueKeys_nest (n : Nat) : (nest n : Json F).UniqueKeys := by
  induction n with
  | zero => simp [nest]
  | succ n ih => simpa [nest] using ih

omit [PyFloat F] in
theorem uniqueKeys_nestedEvent (n : Nat) : (nestedEvent n : Json F).UniqueKeys := by
  refine Json.uniqueKeys_dict_iff.2 ⟨?_, by simpa using uniqueKeys_nest n⟩
  simp only [map_cons, map_nil]
  decide

omit [PyFloat F] in
theorem height_nestedEvent (n : Nat) : height (nestedEvent n : Json F) = n + 1 := by
  have h : height (nestedEvent n : Json F) = max 1 (max (height (nest n : Json F) + 1) 0) := rfl
  rw [height_nest] at h
  omega

/-- The child admits the event as long as the nesting bound allows. -/
theorem nestedEvent_admitted {n : Nat} (hn : n < maxJsonNesting) :
    ∃ snap, snapshotEvent (nestedEvent n : Json F) = .ok snap ∧ snap.eventType = .lit "x" := by
  have hnest : maxJsonNesting = 128 := rfl
  have hevery (okInt : Int → Bool) :
      (nestedEvent n : Json F).every strEncodable okInt PyFloat.isFinite = true := by
    rw [nestedEvent, Json.every_dict_iff]
    simp only [forall_mem_cons, Json.every_str]
    exact ⟨⟨by decide, by decide⟩, ⟨by decide, every_nest ..⟩, nofun⟩
  have hw : Within 0 0 (nestedEvent n : Json F) := by
    refine ⟨hevery _, ?_, ?_⟩
    · rw [height_nestedEvent]
      omega
    · have hcount : nodeCount (nestedEvent n : Json F) = 2 + nodeCount (nest n : Json F) :=
        (Nat.add_assoc 1 1 _).symm
      have : maxJsonValueNodes = 100000 := rfl
      rw [hcount, nodeCount_nest]
      omega
  have hest : estimate (nestedEvent n : Json F) ≤ 300 := by
    have h1 : strSize (.lit "type") = 6 := by decide
    have h2 : strSize (.lit "value") = 7 := by decide
    have h3 : strSize (.lit "x") = 3 := by decide
    have h4 := estimate_nest (F := F) n
    rw [estimate] at h4
    rw [estimate, nestedEvent, weight_dict]
    simp only [map_cons, map_nil, sum_cons, sum_nil, weight_str, length_cons, length_nil,
      h1, h2, h3, h4]
    omega
  have hd := dumps_eq_some_iff.2 ⟨hevery _, rfl⟩
  have hlen := length_le_estimate hw.clean hd
  have hline : 300 ≤ maxLineBytes - 1 := by decide
  have hframe : 300 ≤ maxFrameBytes - eventFrameEnvelopeBytes := by decide
  exact ⟨_, snapshotEvent_of_within hw hd (hest.trans hline) (hlen.trans (hest.trans hframe)) rfl,
    rfl⟩

/-- The channel id of all zeros. -/
def zeroChannelId : ChannelId := ⟨List.replicate 64 '0', by decide, by decide⟩

/-- A parent that has received nothing yet. -/
def ReceiveState.initial : ReceiveState := ⟨[], [], 0, 0, false⟩

/-- The smallest event there is, with the snapshot the child makes of it. -/
theorem parent_accepts_empty_list_event :
    RoomForEnvelope (nestedEvent 0 : Json NumToken) 0 ∧
      ParentAccepts (nestedEvent 0 : Json NumToken)
        ⟨.lit "x", ascii "\x7b\"type\":\"x\",\"value\":[]\x7d",
          ascii "\x7b\"type\":\"x\",\"value\":[]\x7d\n"⟩ zeroChannelId .initial :=
  ⟨by decide, (parent_accepts_iff_room (uniqueKeys_nestedEvent 0) (by decide +kernel) (by decide)
    zeroChannelId .initial (by decide) (by decide) (by decide +kernel)).2 (by decide)⟩

/-- **An event nested as deep as the child admits is too deep for the parent.**  The preflight
returns, the frame is within the cap, and the parent's decoder refuses it. -/
theorem nestedEvent_refused :
    ∃ snap, snapshotEvent (nestedEvent 127 : Json NumToken) = .ok snap ∧
      snap.eventType ≠ .lit "frame_cap_finding" ∧
      ∃ wire, encodeEventWireFrame snap zeroChannelId 0 = .ok wire ∧
        wire.frameBytes.length ≤ maxFrameBytes ∧
        ∀ value : Json NumToken, decodeCanonicalJsonObject wire.body ≠ .ok value := by
  obtain ⟨snap, hsnap, htype⟩ := nestedEvent_admitted (F := NumToken) (n := 127) (by decide)
  obtain ⟨hwire, hcap⟩ := encodeEventWireFrame_ok hsnap zeroChannelId (show 0 < maxEvents by decide)
  refine ⟨snap, hsnap, by rw [htype]; decide, _, hwire, hcap, fun value hvalue ↦ ?_⟩
  obtain ⟨-, hroom⟩ := (decodeCanonicalJsonObject_eventBody (uniqueKeys_nestedEvent 127) hsnap
    zeroChannelId (by decide) value).1 hvalue
  have := hroom.nesting
  rw [height_nestedEvent] at this
  exact absurd this (by decide)

end AgentGateway.EventChannel
