import AgentGateway.Py.JsonRoundTrip
import AgentGateway.Py.Calls

/-!
# The bounded snapshot of a JSON value

Before anything of the autonomous event channel is put on a wire, and again when a frame comes in,
`_snapshot_json_value` walks the value under three bounds: a nesting bound, a bound on the number
of values, and a byte budget which it spends as it goes.  An integer is charged by its bit length,
so the charge is an estimate of the encoded size; for everything else it is the size itself.

* `snapshotJsonValue` is the walk, with every error of the source, including the running minimum
  that a byte refusal carries up.
* `height`, `nodeCount`, `estimate` and `minimum` say what the walk measures, without the budget.
* `snapshotJsonValue_answered`: what an acceptance says of a value, and what a refusal.

The two do not meet at the byte budget.  A zero is charged one byte without a look at what is
left, so zeros at the end of a value may overdraw the budget, and the first statement promises
nothing about the budget for a value that ends in one.
-/

namespace AgentGateway.EventChannel

open Py List

/-! ## Errors -/

/-- `FrameCapFinding.channel`. -/
inductive FindingChannel where
  | claimBroker
  | eventChannel
deriving DecidableEq

inductive Direction where
  | send
  | receive
deriving DecidableEq

inductive SizeBasis where
  | actual
  | declared
  | lowerBound
deriving DecidableEq

structure FrameCapFinding where
  channel : FindingChannel
  direction : Direction
  sizeBasis : SizeBasis
  frameSizeBytes : Int
  capBytes : Int
deriving DecidableEq

/-- The exceptions of the event channel.  One whose text is put together from values carries
those values. -/
inductive ChannelError where
  /-- `AutonomousEventChannelStateError` -/
  | state (msg : String)
  /-- `AutonomousEventChannelProtocolError` -/
  | protocol (msg : String)
  | duplicateKey (key : Str)
  | nonFiniteNumber (constant : String)
  | fieldsDiffer (kind : String) (missing unknown : List Str)
  | unexpectedKind (expected : String) (received : Str)
  | unexpectedFrame (kind : Str)
  /-- `AutonomousEventChannelBoundsError` -/
  | bounds (msg : String)
  /-- `_CanonicalJsonByteBoundsError` -/
  | byteBounds (minimumSizeBytes : Nat)
  /-- `AutonomousEventChannelFrameCapError` -/
  | frameCap (finding : FrameCapFinding)
  /-- `AutonomousEventChannelAcknowledgementError` -/
  | acknowledgement (msg : String)
  /-- `AutonomousEventChannelTimeout` -/
  | timeout (msg : String)
  /-- `AutonomousEventChannelTransportError` -/
  | transport (msg : String)
  /-- `ValueError` -/
  | value (msg : String)
deriving DecidableEq

/-- The errors caught by `except AutonomousEventChannelBoundsError`. -/
def ChannelError.isBounds : ChannelError → Bool
  | .bounds _ => true
  | .byteBounds _ => true
  | .frameCap _ => true
  | _ => false

/-! ## Sizes -/

def maxJsonNesting : Nat := 128

def maxJsonValueNodes : Nat := 100000

/-- What `_json_string_size` adds for the character of a code point. -/
def codepointIncrement (codepoint : Nat) : Except ChannelError Nat :=
  if codepoint = 0x22 ∨ codepoint = 0x5C ∨ codepoint = 0x08 ∨ codepoint = 0x0C ∨
      codepoint = 0x0A ∨ codepoint = 0x0D ∨ codepoint = 0x09 then .ok 2
  else if codepoint ≤ 0x1F then .ok 6
  else if 0xD800 ≤ codepoint ∧ codepoint ≤ 0xDFFF then
    .error (.protocol "autonomous event channel JSON strings must not contain surrogates")
  else if codepoint ≤ 0x7F then .ok 1
  else if codepoint ≤ 0x7FF then .ok 2
  else if codepoint ≤ 0xFFFF then .ok 3
  else .ok 4

/-- The loop of `_json_string_size`, from the size so far. -/
def jsonStringSizeFrom (byteLimit : Int) : Nat → Str → Except ChannelError Nat
  | size, [] => .ok size
  | size, p :: s =>
    match codepointIncrement p.ord with
    | .error e => .error e
    | .ok increment =>
      if ((size + increment : Nat) : Int) > byteLimit then .error (.byteBounds (size + increment))
      else jsonStringSizeFrom byteLimit (size + increment) s

def jsonStringSize (value : Str) (byteLimit : Int) : Except ChannelError Nat :=
  if 2 > byteLimit then .error (.byteBounds 2) else jsonStringSizeFrom byteLimit 2 value

def bitLength (n : Int) : Nat := if n = 0 then 0 else n.natAbs.log2 + 1

def jsonIntMinimumSize (n : Int) : Nat :=
  (((bitLength n - 1) * 1233) >>> 12) + 1 + (if n < 0 then 1 else 0)

/-- The charge of an integer, as `_json_int_size` computes it. -/
def intEstimate (n : Int) : Nat :=
  if n = 0 then 1 else ((bitLength n * 1234) >>> 12) + 1 + (if n < 0 then 1 else 0)

def jsonIntSize (n : Int) (byteLimit : Int) : Except ChannelError Nat :=
  if n = 0 then .ok 1
  else if (intEstimate n : Int) > byteLimit then .error (.byteBounds (jsonIntMinimumSize n))
  else .ok (intEstimate n)

/-! ## The walk -/

/-- What `_snapshot_json_value` returns, with the count of values seen so far. -/
structure Snapshot (α : Type) where
  value : α
  size : Nat
  minimum : Nat
  valueNodes : Nat

/-- A byte refusal of a part becomes one of the container, with what was used before it. -/
def addMinimum {α : Type} (minimumUsed : Nat) : Except ChannelError α → Except ChannelError α
  | .error (.byteBounds m) => .error (.byteBounds (minimumUsed + m))
  | r => r

section Walk

variable {F : Type} [PyFloat F]

/-- The two checks every value goes through first: the count of values, and the depth. -/
def enterValue {α : Type} (depth valueNodes : Nat) (next : Except ChannelError α) :
    Except ChannelError α :=
  if valueNodes > maxJsonValueNodes then
    .error (.bounds "autonomous event channel JSON exceeds the value-node bound")
  else if depth > maxJsonNesting then
    .error (.protocol "autonomous event channel JSON exceeds the nesting bound")
  else next

/-- A scalar of known size against the budget. -/
def sized {α : Type} (value : α) (size : Nat) (byteLimit : Int) (valueNodes : Nat) :
    Except ChannelError (Snapshot α) :=
  if (size : Int) > byteLimit then .error (.byteBounds size)
  else .ok ⟨value, size, size, valueNodes⟩

mutual
/-- `_snapshot_json_value`, given the count of values before this one.  A value of the model is a
tree, so the check for circular references has nothing to find. -/
def snapshotJsonValue (depth : Nat) (byteLimit : Int) (valueNodes : Nat) :
    Json F → Except ChannelError (Snapshot (Json F))
  | .null => enterValue depth (valueNodes + 1) (sized .null 4 byteLimit (valueNodes + 1))
  | .bool b => enterValue depth (valueNodes + 1)
      (sized (.bool b) (if b then 4 else 5) byteLimit (valueNodes + 1))
  | .int n => enterValue depth (valueNodes + 1) do
      let size ← jsonIntSize n byteLimit
      .ok ⟨.int n, size, jsonIntMinimumSize n, valueNodes + 1⟩
  | .str s => enterValue depth (valueNodes + 1) do
      let size ← jsonStringSize s byteLimit
      .ok ⟨.str s, size, size, valueNodes + 1⟩
  | .float x => enterValue depth (valueNodes + 1)
      (if PyFloat.isFinite x then
        sized (.float x) (PyFloat.repr x).text.length byteLimit (valueNodes + 1)
      else .error (.protocol "autonomous event channel JSON numbers must be finite"))
  | .foreign => enterValue depth (valueNodes + 1)
      (.error (.protocol "autonomous event channel payloads must contain only exact JSON values"))
  | .dict kvs => enterValue depth (valueNodes + 1)
      (if byteLimit < 2 then .error (.byteBounds 2)
      else do
        let s ← snapshotItems depth byteLimit (valueNodes + 1) true 2 2 kvs
        .ok ⟨.dict s.value, s.size, s.minimum, s.valueNodes⟩)
  | .list xs => enterValue depth (valueNodes + 1)
      (if byteLimit < 2 then .error (.byteBounds 2)
      else do
        let s ← snapshotList depth byteLimit (valueNodes + 1) true 2 2 xs
        .ok ⟨.list s.value, s.size, s.minimum, s.valueNodes⟩)
/-- The loop over the items of a `dict`; `used` and `minimumUsed` are the bytes charged so far. -/
def snapshotItems (depth : Nat) (byteLimit : Int) (valueNodes : Nat) (first : Bool)
    (used minimumUsed : Nat) :
    List (Str × Json F) → Except ChannelError (Snapshot (List (Str × Json F)))
  | [] => .ok ⟨[], used, minimumUsed, valueNodes⟩
  | (key, item) :: rest => do
    let separatorSize : Nat := if first then 0 else 1
    let keyBudget : Int := byteLimit - used - separatorSize - 1
    let minimumUsed := minimumUsed + (separatorSize + 1)
    let keySize ← addMinimum minimumUsed (jsonStringSize key keyBudget)
    let used := used + (separatorSize + keySize + 1)
    let minimumUsed := minimumUsed + keySize
    let i ← addMinimum minimumUsed
      (snapshotJsonValue (depth + 1) (byteLimit - used) valueNodes item)
    let r ← snapshotItems depth byteLimit i.valueNodes false (used + i.size)
      (minimumUsed + i.minimum) rest
    .ok ⟨(key, i.value) :: r.value, r.size, r.minimum, r.valueNodes⟩
/-- The loop over the items of a `list`. -/
def snapshotList (depth : Nat) (byteLimit : Int) (valueNodes : Nat) (first : Bool)
    (used minimumUsed : Nat) :
    List (Json F) → Except ChannelError (Snapshot (List (Json F)))
  | [] => .ok ⟨[], used, minimumUsed, valueNodes⟩
  | item :: rest => do
    let separatorSize : Nat := if first then 0 else 1
    let used := used + separatorSize
    let minimumUsed := minimumUsed + separatorSize
    let i ← addMinimum minimumUsed
      (snapshotJsonValue (depth + 1) (byteLimit - used) valueNodes item)
    let r ← snapshotList depth byteLimit i.valueNodes false (used + i.size)
      (minimumUsed + i.minimum) rest
    .ok ⟨i.value :: r.value, r.size, r.minimum, r.valueNodes⟩
end

end Walk

/-! ## What the walk measures -/

section Measures

variable {F : Type}

/-- The bytes a character of a string takes, escaped. -/
def charSize (p : CodePoint) : Nat := (codepointIncrement p.ord).toOption.getD 0

/-- The bytes a string takes, with its quotes. -/
def strSize (s : Str) : Nat := 2 + (s.map charSize).sum

/-- One more than the largest height, or zero if there is none. -/
def deepest (heights : List Nat) : Nat := (heights.map (· + 1)).foldr max 0

theorem deepest_cons (h : Nat) (hs : List Nat) : deepest (h :: hs) = max (h + 1) (deepest hs) := rfl

/-- How deep the containers of a value go; a scalar and an empty container have height zero. -/
def height : Json F → Nat := Json.fold (fun _ ↦ 0) deepest fun _ ↦ deepest

/-- The values in a value, itself included. -/
def nodeCount : Json F → Nat := Json.fold (fun _ ↦ 1) (1 + ·.sum) fun _ counts ↦ 1 + counts.sum

variable [PyFloat F]

/-- The bytes of the compact rendering, an integer counted by `intSize`. -/
def weight (intSize : Int → Nat) : Json F → Nat :=
  Json.fold
    (fun
      | .null => 4
      | .bool b => if b then 4 else 5
      | .int n => intSize n
      | .float x => (PyFloat.repr x).text.length
      | .str s => strSize s
      | _ => 0)
    (fun sizes ↦ 2 + (sizes.length - 1) + sizes.sum)
    fun kvs sizes ↦ 2 + (sizes.length - 1) +
      (((kvs.map Prod.fst).map (strSize · + 1)).sum + sizes.sum)

/-- The charge of a value. -/
def estimate (v : Json F) : Nat := weight intEstimate v

/-- What a value takes at least. -/
def minimum (v : Json F) : Nat := weight jsonIntMinimumSize v

/-- No surrogate, no infinite float and no foreign object in the value. -/
abbrev clean (v : Json F) : Bool := v.every strEncodable (fun _ ↦ true) PyFloat.isFinite

omit [PyFloat F] in
/-- The last scalar of the value is the integer zero, the one scalar that is charged without a
look at the budget. -/
def endsInZero : Json F → Bool :=
  Json.fold
    (fun
      | .int n => n == 0
      | _ => false)
    (·.getLastD false) fun _ zeros ↦ zeros.getLastD false

/-- The value is clean, and stays within the nesting bound and the bound on the number of values
when it stands at the given depth after so many other values. -/
@[mk_iff]
structure Within (depth valueNodes : Nat) (v : Json F) : Prop where
  clean : clean v = true
  nesting : depth + height v ≤ maxJsonNesting
  nodes : valueNodes + nodeCount v ≤ maxJsonValueNodes

section Containers

variable {xs : List (Json F)} {kvs : List (Str × Json F)}

omit [PyFloat F] in
theorem height_list : height (.list xs) = deepest (xs.map height) := Json.fold_list

omit [PyFloat F] in
theorem height_dict : height (.dict kvs) = deepest (kvs.map fun kv ↦ height kv.2) :=
  Json.fold_dict

omit [PyFloat F] in
theorem nodeCount_list : nodeCount (.list xs) = 1 + (xs.map nodeCount).sum := Json.fold_list

omit [PyFloat F] in
theorem nodeCount_dict :
    nodeCount (.dict kvs) = 1 + (kvs.map fun kv ↦ nodeCount kv.2).sum :=
  Json.fold_dict

theorem within_list_iff {depth n : Nat} :
    Within depth n (.list xs) ↔ (∀ x ∈ xs, clean x = true) ∧
      depth + deepest (xs.map height) ≤ maxJsonNesting ∧
      n + 1 + (xs.map nodeCount).sum ≤ maxJsonValueNodes := by
  rw [within_iff, height_list, nodeCount_list, ← Nat.add_assoc, clean, Json.every_list_iff]

theorem within_dict_iff {depth n : Nat} :
    Within depth n (.dict kvs) ↔ (∀ kv ∈ kvs, strEncodable kv.1 = true ∧ clean kv.2 = true) ∧
      depth + deepest (kvs.map fun kv ↦ height kv.2) ≤ maxJsonNesting ∧
      n + 1 + (kvs.map fun kv ↦ nodeCount kv.2).sum ≤ maxJsonValueNodes := by
  rw [within_iff, height_dict, nodeCount_dict, ← Nat.add_assoc, clean, Json.every_dict_iff]

variable (f : Int → Nat)

theorem weight_int (n : Int) : weight f (.int n : Json F) = f n := rfl

theorem weight_str (s : Str) : weight f (.str s : Json F) = strSize s := rfl

theorem weight_list :
    weight f (.list xs) = 2 + (xs.length - 1) + (xs.map (weight f)).sum := by
  rw [weight, Json.fold_list, length_map]

theorem weight_dict :
    weight f (.dict kvs) = 2 + (kvs.length - 1) +
      ((kvs.map fun kv ↦ strSize kv.1 + 1).sum + (kvs.map fun kv ↦ weight f kv.2).sum) := by
  rw [weight, Json.fold_dict, length_map, map_map]
  rfl

end Containers

/-- What the walk returns for a value it accepts. -/
def measured (valueNodes : Nat) (v : Json F) : Snapshot (Json F) :=
  ⟨v, estimate v, minimum v, valueNodes + nodeCount v⟩

end Measures

/-! ## The walk accepts what is within the bounds -/

theorem codepointIncrement_scalar (c : Char) :
    codepointIncrement (CodePoint.scalar c).ord = .ok (charSize (.scalar c)) := by
  have hok : ∃ k, codepointIncrement (CodePoint.scalar c).ord = .ok k := by
    have h := CodePoint.toNat_not_surrogate c
    change ∃ k, codepointIncrement c.toNat = .ok k
    rw [codepointIncrement, if_neg (show ¬ (0xD800 ≤ c.toNat ∧ c.toNat ≤ 0xDFFF) by omega)]
    split_ifs <;> exact ⟨_, rfl⟩
  obtain ⟨k, hk⟩ := hok
  rw [charSize, hk]
  rfl

theorem codepointIncrement_surrogate (n : Fin 2048) :
    codepointIncrement (CodePoint.surrogate n).ord =
      .error (.protocol "autonomous event channel JSON strings must not contain surrogates") := by
  change codepointIncrement (0xD800 + n.val) = _
  rw [codepointIncrement, if_neg (by omega), if_neg (by omega), if_pos (by omega)]

/-! ### What an answer says -/

section Answers

variable {α β : Type} {byteLimit byteLimit' : Int} {within within' fits fits' : Prop} {r : α}
  {r' : β}
  {size size' least least' : Nat} {x : Except ChannelError α}

/-- An acceptance is of something within the bounds, and `r` is returned; a refusal is of something
out of them, and reports no more bytes than there are at least. -/
def Answers (byteLimit : Int) (within fits : Prop) (r : α) (size least : Nat) :
    Except ChannelError α → Prop
  | .ok r' => within ∧ r' = r ∧ (fits → (size : Int) ≤ byteLimit)
  | .error e => (within → byteLimit < size) ∧ ∀ m, e = .byteBounds m → m ≤ least

theorem Answers.bind {f : α → Except ChannelError β}
    (hx : Answers byteLimit within fits r size least x)
    (hwithin : within' → within) (hsize : byteLimit < size → byteLimit' < size')
    (hleast : least ≤ least')
    (hf : within → (fits → (size : Int) ≤ byteLimit) →
      Answers byteLimit' within' fits' r' size' least' (f r)) :
    Answers byteLimit' within' fits' r' size' least' (x >>= f) := by
  cases x with
  | ok =>
    obtain ⟨hw, rfl, hfit⟩ := hx
    exact hf hw hfit
  | error =>
    exact ⟨fun hw ↦ hsize (hx.1 (hwithin hw)), fun m hm ↦ (hx.2 m hm).trans hleast⟩

theorem Answers.addMinimum (hx : Answers byteLimit within fits r size least x) (minimumUsed : Nat) :
    Answers byteLimit within fits r size (minimumUsed + least) (addMinimum minimumUsed x) := by
  cases x with
  | ok => exact hx
  | error e =>
    cases e with
    | byteBounds m =>
      refine ⟨hx.1, fun m' hm ↦ ?_⟩
      cases hm
      exact Nat.add_le_add_left (hx.2 m rfl) _
    | _ => exact ⟨hx.1, by simp⟩

theorem answers_refused {m : Nat} (hm : m ≤ least) (hsize : byteLimit < size) :
    Answers byteLimit within fits r size least (.error (.byteBounds m)) :=
  ⟨fun _ ↦ hsize, fun _ heq ↦ (ChannelError.byteBounds.inj heq) ▸ hm⟩

theorem answers_sized (hw : within) (valueNodes : Nat) :
    Answers byteLimit within fits ⟨r, size, size, valueNodes⟩ size size
      (sized r size byteLimit valueNodes) := by
  rw [sized]
  split
  next h => exact answers_refused le_rfl h
  next h => exact ⟨hw, rfl, fun _ ↦ not_lt.1 h⟩

theorem answers_jsonStringSizeFrom (s : Str) (size : Nat) (hsize : (size : Int) ≤ byteLimit) :
    Answers byteLimit (strEncodable s = true) True (size + (s.map charSize).sum)
      (size + (s.map charSize).sum) (size + (s.map charSize).sum)
      (jsonStringSizeFrom byteLimit size s) := by
  induction s generalizing size with
  | nil => exact ⟨rfl, rfl, fun _ ↦ hsize⟩
  | cons p s ih =>
    cases p with
    | surrogate n =>
      rw [jsonStringSizeFrom, codepointIncrement_surrogate]
      exact ⟨nofun, by simp⟩
    | scalar c =>
      have henc : strEncodable (.scalar c :: s) = strEncodable s := by
        simp [strEncodable, Str.chars?]
      rw [jsonStringSizeFrom, codepointIncrement_scalar, henc, map_cons, sum_cons, ← Nat.add_assoc]
      dsimp only
      split
      next hgt => exact answers_refused (by omega) (by omega)
      next hle => exact ih _ (not_lt.1 hle)

theorem answers_jsonStringSize (s : Str) :
    Answers byteLimit (strEncodable s = true) True (strSize s) (strSize s) (strSize s)
      (jsonStringSize s byteLimit) := by
  rw [jsonStringSize, strSize]
  split
  next h => exact answers_refused (by omega) (by omega)
  next h => exact answers_jsonStringSizeFrom s 2 (not_lt.1 h)

/-- A zero is never checked against the budget. -/
theorem answers_jsonIntSize (n : Int) :
    Answers byteLimit True (n ≠ 0) (intEstimate n) (intEstimate n) (jsonIntMinimumSize n)
      (jsonIntSize n byteLimit) := by
  rw [jsonIntSize]
  split
  next h => exact ⟨trivial, (if_pos h).symm, fun hne ↦ absurd h hne⟩
  next h =>
    split
    next hgt => exact ⟨fun _ ↦ hgt, by simp⟩
    next hle => exact ⟨trivial, rfl, fun _ ↦ not_lt.1 hle⟩

end Answers

section Walk

variable {F : Type} [PyFloat F]

/-- The separators still to come, in a loop that has `n` items before it. -/
def separators (first : Bool) (n : Nat) : Nat := if first then n - 1 else n

theorem separators_succ (first : Bool) (n : Nat) :
    separators first (n + 1) = (if first then 0 else 1) + separators false n := by
  cases first
  · simp [separators, Nat.add_comm]
  · simp [separators]

/-- What the walk answers about a value.  Zeros at its end are not checked against the budget. -/
def Answered (v : Json F) : Prop :=
  ∀ depth byteLimit valueNodes, Answers byteLimit (Within depth valueNodes v)
    (endsInZero v = false) (measured valueNodes v) (estimate v) (minimum v)
    (snapshotJsonValue depth byteLimit valueNodes v)

section Loops

variable {depth : Nat} {byteLimit : Int} {valueNodes used minimumUsed : Nat} {first : Bool}

/-- A value that is too deep or one too many is refused, but not for its bytes. -/
theorem answers_enterValue {α : Type} {v : Json F} {fits : Prop} {r : α} {size least : Nat}
    {next : Except ChannelError α}
    (hnext : valueNodes + 1 ≤ maxJsonValueNodes → depth ≤ maxJsonNesting →
      Answers byteLimit (Within depth valueNodes v) fits r size least next) :
    Answers byteLimit (Within depth valueNodes v) fits r size least
      (enterValue depth (valueNodes + 1) next) := by
  have hbounds (hw : Within depth valueNodes v) :
      valueNodes + 1 ≤ maxJsonValueNodes ∧ depth ≤ maxJsonNesting := by
    have hnodes := hw.nodes
    have hnesting := hw.nesting
    have hpos : 1 ≤ nodeCount v := by
      cases v <;> first | exact Nat.le_add_right 1 _ | exact le_rfl
    omega
  rw [enterValue]
  split
  next h => exact ⟨fun hw ↦ absurd (hbounds hw).1 (not_le.2 h), by simp⟩
  next h =>
    split
    next h' => exact ⟨fun hw ↦ absurd (hbounds hw).2 (not_le.2 h'), by simp⟩
    next h' => exact hnext (not_lt.1 h) (not_lt.1 h')

theorem answers_snapshotList {xs : List (Json F)} (ih : ∀ x ∈ xs, Answered x)
    (hd : depth ≤ maxJsonNesting) (hn : valueNodes ≤ maxJsonValueNodes) :
    let size (f : Int → Nat) := separators first xs.length + (xs.map (weight f)).sum
    let nodes := (xs.map nodeCount).sum
    Answers byteLimit
      ((∀ x ∈ xs, clean x = true) ∧ depth + deepest (xs.map height) ≤ maxJsonNesting ∧
        valueNodes + nodes ≤ maxJsonValueNodes)
      (endsInZero (.list xs) = false ∧ (xs ≠ [] ∨ (used : Int) ≤ byteLimit))
      ⟨xs, used + size intEstimate, minimumUsed + size jsonIntMinimumSize, valueNodes + nodes⟩
      (used + size intEstimate) (minimumUsed + size jsonIntMinimumSize)
      (snapshotList depth byteLimit valueNodes first used minimumUsed xs) := by
  induction xs generalizing valueNodes first used minimumUsed with
  | nil =>
    have hnone : separators first 0 = 0 := by cases first <;> rfl
    simp only [length_nil, hnone]
    exact ⟨⟨nofun, hd, hn⟩, rfl, fun h ↦ h.2.resolve_left (fun hne ↦ hne rfl)⟩
  | cons x xs ihxs =>
    simp only [forall_mem_cons, map_cons, deepest_cons, sum_cons, length_cons, separators_succ,
      snapshotList]
    refine (ih x (by simp) _ _ _).addMinimum _ |>.bind
      (fun h ↦ ⟨h.1.1, by omega, by omega⟩) (by rw [estimate]; omega) (by rw [minimum]; omega)
      fun hx hlim ↦ ?_
    have hxn := hx.nesting
    refine (ihxs (fun y hy ↦ ih y (mem_cons_of_mem _ hy)) hx.nodes).bind
      (fun h ↦ ⟨h.1.2, by omega, by simpa only [Nat.add_assoc] using h.2.2⟩)
      (by simp only [measured, estimate]; omega) (by simp only [measured, minimum]; omega)
      fun hrest hfit ↦ ⟨⟨⟨hx.clean, hrest.1⟩, by omega, ?_⟩, ?_, fun hz ↦ ?_⟩
    · simpa only [measured, Nat.add_assoc] using hrest.2.2
    · simp only [measured, estimate, minimum, Snapshot.mk.injEq, true_and]
      omega
    · cases xs with
      | nil =>
        -- the last item is within what is left of the budget
        have hest := hlim hz.1
        rw [estimate] at hest
        simp only [separators, length_nil, map_nil, sum_nil, Bool.false_eq_true, if_false]
        omega
      | cons y ys =>
        have := hfit ⟨hz.1, Or.inl (cons_ne_nil y ys)⟩
        simp only [measured, estimate] at this
        omega

theorem answers_snapshotItems {kvs : List (Str × Json F)} (ih : ∀ kv ∈ kvs, Answered kv.2)
    (hd : depth ≤ maxJsonNesting) (hn : valueNodes ≤ maxJsonValueNodes) :
    let size (f : Int → Nat) := separators first kvs.length +
      ((kvs.map fun kv ↦ strSize kv.1 + 1).sum + (kvs.map fun kv ↦ weight f kv.2).sum)
    let nodes := (kvs.map fun kv ↦ nodeCount kv.2).sum
    Answers byteLimit
      ((∀ kv ∈ kvs, strEncodable kv.1 = true ∧ clean kv.2 = true) ∧
        depth + deepest (kvs.map fun kv ↦ height kv.2) ≤ maxJsonNesting ∧
        valueNodes + nodes ≤ maxJsonValueNodes)
      (endsInZero (.dict kvs) = false ∧ (kvs ≠ [] ∨ (used : Int) ≤ byteLimit))
      ⟨kvs, used + size intEstimate, minimumUsed + size jsonIntMinimumSize, valueNodes + nodes⟩
      (used + size intEstimate) (minimumUsed + size jsonIntMinimumSize)
      (snapshotItems depth byteLimit valueNodes first used minimumUsed kvs) := by
  induction kvs generalizing valueNodes first used minimumUsed with
  | nil =>
    have hnone : separators first 0 = 0 := by cases first <;> rfl
    simp only [length_nil, hnone]
    exact ⟨⟨nofun, hd, hn⟩, rfl, fun h ↦ h.2.resolve_left (fun hne ↦ hne rfl)⟩
  | cons kv kvs ihkvs =>
    obtain ⟨key, x⟩ := kv
    have hx : Answered x := ih (key, x) (by simp)
    simp only [forall_mem_cons, map_cons, deepest_cons, sum_cons, length_cons, separators_succ,
      snapshotItems]
    refine (answers_jsonStringSize key).addMinimum _ |>.bind (fun h ↦ h.1.1.1) (by omega) (by omega)
      fun hkey _ ↦ ?_
    refine (hx _ _ _).addMinimum _ |>.bind
      (fun h ↦ ⟨h.1.1.2, by omega, by omega⟩) (by rw [estimate]; omega) (by rw [minimum]; omega)
      fun hx hlim ↦ ?_
    have hxn := hx.nesting
    refine (ihkvs (fun y hy ↦ ih y (mem_cons_of_mem _ hy)) hx.nodes).bind
      (fun h ↦ ⟨h.1.2, by omega, by simpa only [Nat.add_assoc] using h.2.2⟩)
      (by simp only [measured, estimate]; omega) (by simp only [measured, minimum]; omega)
      fun hrest hfit ↦ ⟨⟨⟨⟨hkey, hx.clean⟩, hrest.1⟩, by omega, ?_⟩, ?_, fun hz ↦ ?_⟩
    · simpa only [measured, Nat.add_assoc] using hrest.2.2
    · simp only [measured, estimate, minimum, Snapshot.mk.injEq, true_and]
      omega
    · cases kvs with
      | nil =>
        have hest := hlim hz.1
        rw [estimate] at hest
        simp only [separators, length_nil, map_nil, sum_nil, Bool.false_eq_true, if_false]
        omega
      | cons y ys =>
        have := hfit ⟨hz.1, Or.inl (cons_ne_nil y ys)⟩
        simp only [measured, estimate] at this
        omega

end Loops

/-- **The walk accepts exactly what is within the bounds**, and what it reports of a value it
refuses for its bytes is not above the value's minimum. -/
theorem snapshotJsonValue_answered (v : Json F) : Answered v := by
  intro depth byteLimit valueNodes
  induction v generalizing depth byteLimit valueNodes with
  | null => exact answers_enterValue fun hn hd ↦ answers_sized ⟨rfl, hd, hn⟩ _
  | bool => exact answers_enterValue fun hn hd ↦ answers_sized ⟨rfl, hd, hn⟩ _
  | int n =>
    exact answers_enterValue fun hn hd ↦ (answers_jsonIntSize n).bind (fun _ ↦ trivial) id le_rfl
      fun _ hfit ↦ ⟨⟨rfl, hd, hn⟩, rfl, fun hz ↦ hfit (ne_of_beq_false hz)⟩
  | float x =>
    refine answers_enterValue fun hn hd ↦ ?_
    split
    next hfin => exact answers_sized ⟨hfin, hd, hn⟩ _
    next hinf => exact ⟨fun hw ↦ absurd hw.clean hinf, by simp⟩
  | str s =>
    exact answers_enterValue fun hn hd ↦ (answers_jsonStringSize s).bind (·.clean) id le_rfl
      fun henc hfit ↦ ⟨⟨henc, hd, hn⟩, rfl, fun _ ↦ hfit trivial⟩
  | list xs ih =>
    refine answers_enterValue fun hn hd ↦ ?_
    simp only [measured, estimate, minimum, weight_list, nodeCount_list, Nat.add_assoc 2,
      ← Nat.add_assoc valueNodes]
    split
    next hlim => exact answers_refused (by omega) (by omega)
    next hlim =>
      exact (answers_snapshotList ih hd hn).bind within_list_iff.1 id le_rfl
        fun h hfit ↦ ⟨within_list_iff.2 h, rfl, fun hz ↦ hfit ⟨hz, .inr (by omega)⟩⟩
  | dict kvs ih =>
    refine answers_enterValue fun hn hd ↦ ?_
    simp only [measured, estimate, minimum, weight_dict, nodeCount_dict, Nat.add_assoc 2,
      ← Nat.add_assoc valueNodes]
    split
    next hlim => exact answers_refused (by omega) (by omega)
    next hlim =>
      exact (answers_snapshotItems ih hd hn).bind within_dict_iff.1 id le_rfl
        fun h hfit ↦ ⟨within_dict_iff.2 h, rfl, fun hz ↦ hfit ⟨hz, .inr (by omega)⟩⟩
  | foreign => exact answers_enterValue fun _ _ ↦ ⟨fun hw ↦ (by cases hw.clean), by simp⟩

section Results

variable {v : Json F} {depth valueNodes : Nat} {byteLimit : Int}

/-- **A value the walk accepts is within the bounds, and is returned with its estimate and its
minimum**; the byte budget covers the estimate unless the value ends in a zero. -/
theorem snapshotJsonValue_sound {s : Snapshot (Json F)}
    (h : snapshotJsonValue depth byteLimit valueNodes v = .ok s) :
    Within depth valueNodes v ∧ s = measured valueNodes v ∧
      (endsInZero v = false → (estimate v : Int) ≤ byteLimit) := by
  have hanswer := snapshotJsonValue_answered v depth byteLimit valueNodes
  rw [h] at hanswer
  exact hanswer

/-- **A value within the bounds, with a budget for its estimate, is accepted.** -/
theorem snapshotJsonValue_complete (hw : Within depth valueNodes v)
    (hfit : (estimate v : Int) ≤ byteLimit) :
    snapshotJsonValue depth byteLimit valueNodes v = .ok (measured valueNodes v) := by
  have hanswer := snapshotJsonValue_answered v depth byteLimit valueNodes
  cases h : snapshotJsonValue depth byteLimit valueNodes v with
  | ok =>
    rw [h] at hanswer
    rw [hanswer.2.1]
  | error =>
    rw [h] at hanswer
    exact absurd hfit (not_le.2 (hanswer.1 hw))

end Results

end Walk

end AgentGateway.EventChannel
