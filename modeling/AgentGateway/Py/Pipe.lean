import AgentGateway.Py.Framing

/-!
# A byte stream that carries frames

One direction of a stream socket: the writer hands a frame to `sendall`, which puts it into the
stream in chunks of any size; the reader takes bytes out in chunks of any size, first the four of
the header and then as many as the header says.  `unsent` are the bytes `sendall` still holds,
`inFlight` those in the stream, and `held` those the reader has of the frame it is in.  `written`
and `read` are the frames themselves, which the program does not keep.

`Pipe.Ok` is all there is to say: put together, the frames that were read and the bytes in the
three places are the frames that were written.  Every operation keeps it, and since frames are
self-delimiting it follows that the reader has read the first of the frames that were written
(`Ok.read_prefix`), and that the frame it completes next is the next of them (`Ok.next_frame`).
-/

open List

namespace Py

/-- What the header of a frame says, once it is there. -/
def header? (held : List UInt8) : Option Nat :=
  if held.length < 4 then none else some (unpackU32 (held.take 4))

/-- How many bytes the reader asks for: the rest of the header, or the rest of the body. -/
def room (held : List UInt8) : Nat :=
  match header? held with
  | none => 4 - held.length
  | some n => 4 + n - held.length

/-- The body, once it is complete. -/
def body? (held : List UInt8) : Option (List UInt8) :=
  match header? held with
  | none => none
  | some n => if held.length = 4 + n then some (held.drop 4) else none

theorem header?_packU32 {n : Nat} (h : n < 2 ^ 32) : header? (packU32 n) = some n := by
  rw [header?, if_neg (by simp), take_of_length_le (by simp), unpackU32_packU32 h]

theorem header?_frame {b : List UInt8} (h : b.length < 2 ^ 32) :
    header? (frame b) = some b.length := by
  rw [header?, if_neg (by simp), frame, take_left' (length_packU32 _), unpackU32_packU32 h]

theorem body?_frame {b : List UInt8} (h : b.length < 2 ^ 32) : body? (frame b) = some b := by
  rw [body?, header?_frame h]
  dsimp only
  rw [if_pos (length_frame b), frame, drop_left' (length_packU32 _)]

structure Pipe where
  written : List (List UInt8)
  unsent : List UInt8
  inFlight : List UInt8
  held : List UInt8
  read : List (List UInt8)
  /-- the writer has closed its direction -/
  ended : Bool

namespace Pipe

def empty : Pipe := ⟨[], [], [], [], [], false⟩

/-- `sendall` is called with a frame. -/
def begin (p : Pipe) (body : List UInt8) : Pipe :=
  { p with written := p.written ++ [body], unsent := frame body }

/-- `sendall` gets the next `k` bytes out. -/
def push (p : Pipe) (k : Nat) : Pipe :=
  { p with unsent := p.unsent.drop k, inFlight := p.inFlight ++ p.unsent.take k }

/-- The reader gets the next `k` bytes. -/
def pull (p : Pipe) (k : Nat) : Pipe :=
  { p with inFlight := p.inFlight.drop k, held := p.held ++ p.inFlight.take k }

/-- The reader is through with a frame. -/
def finish (p : Pipe) (body : List UInt8) : Pipe :=
  { p with held := [], read := p.read ++ [body] }

/-- The writer closes its direction. -/
def close (p : Pipe) : Pipe := { p with ended := true }

/-- Nothing is lost, nothing is added, and the order is kept. -/
structure Ok (p : Pipe) : Prop where
  bytes : frames p.read ++ (p.held ++ (p.inFlight ++ p.unsent)) = frames p.written
  size : ∀ b ∈ p.written, b.length < 2 ^ 32
  read_size : ∀ b ∈ p.read, b.length < 2 ^ 32

theorem ok_empty : Ok empty := ⟨rfl, by simp [empty], by simp [empty]⟩

variable {p : Pipe}

theorem Ok.begin (h : Ok p) (hu : p.unsent = []) {body : List UInt8}
    (hb : body.length < 2 ^ 32) : Ok (p.begin body) := by
  refine ⟨?_, ?_, h.read_size⟩
  · have := h.bytes
    rw [hu, append_nil] at this
    simp [Pipe.begin, ← this]
  · exact forall_mem_append.2 ⟨h.size, forall_mem_singleton.2 hb⟩

theorem Ok.push (h : Ok p) (k : Nat) : Ok (p.push k) := by
  refine ⟨Eq.trans ?_ h.bytes, h.size, h.read_size⟩
  simp [Pipe.push]

theorem Ok.pull (h : Ok p) (k : Nat) : Ok (p.pull k) := by
  refine ⟨Eq.trans ?_ h.bytes, h.size, h.read_size⟩
  simp only [Pipe.pull, append_assoc]
  rw [← append_assoc (p.inFlight.take k), take_append_drop]

theorem Ok.close (h : Ok p) : Ok p.close := ⟨h.bytes, h.size, h.read_size⟩

/-- **The frames that were read are the first of those that were written.** -/
theorem Ok.read_prefix (h : Ok p) : ∃ rest, p.written = p.read ++ rest ∧
    p.held ++ (p.inFlight ++ p.unsent) = frames rest := by
  obtain ⟨rest, hw, hx⟩ := frames_append_eq h.read_size h.size h.bytes
  exact ⟨rest, hw, hx⟩

/-- A header is that of the next frame that was written. -/
theorem Ok.next_header (h : Ok p) {n : Nat} (hn : header? p.held = some n) :
    ∃ b rest, p.written = p.read ++ b :: rest ∧ n = b.length ∧
      p.held ++ (p.inFlight ++ p.unsent) = frame b ++ frames rest := by
  obtain ⟨rest, hw, hx⟩ := h.read_prefix
  rw [header?] at hn
  split at hn
  · cases hn
  next hlen =>
    cases rest with
    | nil =>
      have := congrArg List.length hx
      simp only [length_append, frames_nil, length_nil] at this
      omega
    | cons b rest =>
      have hsize : b.length < 2 ^ 32 := h.size b (by simp [hw])
      have hcut : p.held.take 4 = packU32 b.length := by
        have h4 := congrArg (List.take 4) hx
        rw [take_append_of_le_length (by omega), frames_cons, frame, append_assoc,
          take_left' (length_packU32 _)] at h4
        exact h4
      rw [hcut, unpackU32_packU32 hsize] at hn
      exact ⟨b, rest, hw, (Option.some.inj hn).symm, hx⟩

/-- **The frame the reader completes is the next one that was written.** -/
theorem Ok.next_frame (h : Ok p) {body : List UInt8} (hb : body? p.held = some body) :
    p.held = frame body ∧ ∃ rest, p.written = p.read ++ body :: rest := by
  rw [body?] at hb
  split at hb
  · cases hb
  next n hn =>
    obtain ⟨b, rest, hw, rfl, hx⟩ := h.next_header hn
    split at hb
    next hfull =>
      have hheld : p.held = frame b := (append_inj hx (by rw [length_frame]; omega)).1
      have hbody : b = body := by
        rw [hheld, frame, drop_left' (length_packU32 _)] at hb
        exact Option.some.inj hb
      exact ⟨by rw [hheld, hbody], rest, by rw [hw, hbody]⟩
    · cases hb

theorem Ok.finish (h : Ok p) {body : List UInt8} (hb : body? p.held = some body) :
    Ok (p.finish body) := by
  obtain ⟨hheld, rest, hw⟩ := h.next_frame hb
  refine ⟨Eq.trans ?_ h.bytes, h.size, ?_⟩
  · rw [hheld]
    simp [Pipe.finish]
  · exact forall_mem_append.2 ⟨h.read_size, forall_mem_singleton.2 (h.size body (by simp [hw]))⟩

end Pipe

end Py
