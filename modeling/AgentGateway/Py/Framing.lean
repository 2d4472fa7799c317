import Mathlib

/-!
# Length-prefixed frames

A frame is the length of its body as four bytes, most significant first, and then the body:
`struct.Struct(">I")` on a stream socket.  The length makes a frame self-delimiting, which is
`frame_append_inj`: two byte strings that start with a frame and are equal start with the same
frame.  What a reader has cut out of a stream is therefore determined by the bytes alone,
`frames_append_eq`: if the frames the reader took add up to a part of the bytes that were written
as frames, they are the first of the frames that were written.
-/

open List

namespace Py

/-- `struct.Struct(">I").pack(n)` -/
def packU32 (n : Nat) : List UInt8 :=
  [UInt8.ofNat (n / 2 ^ 24), UInt8.ofNat (n / 2 ^ 16), UInt8.ofNat (n / 2 ^ 8), UInt8.ofNat n]

/-- `struct.Struct(">I").unpack(header)` -/
def unpackU32 (header : List UInt8) : Nat := header.foldl (fun n b ↦ n * 256 + b.toNat) 0

@[simp] theorem length_packU32 (n : Nat) : (packU32 n).length = 4 := rfl

theorem unpackU32_packU32 {n : Nat} (h : n < 2 ^ 32) : unpackU32 (packU32 n) = n := by
  simp only [unpackU32, packU32, foldl_cons, foldl_nil, UInt8.toNat_ofNat']
  omega

/-- A body with its length before it. -/
def frame (body : List UInt8) : List UInt8 := packU32 body.length ++ body

@[simp] theorem length_frame (body : List UInt8) : (frame body).length = 4 + body.length := by
  simp [frame]

/-- **A frame is self-delimiting.** -/
theorem frame_append_inj {b c x y : List UInt8} (hb : b.length < 2 ^ 32) (hc : c.length < 2 ^ 32)
    (h : frame b ++ x = frame c ++ y) : b = c ∧ x = y := by
  rw [frame, frame, append_assoc, append_assoc] at h
  obtain ⟨hlen, hrest⟩ := append_inj h rfl
  have hbc : b.length = c.length := by
    rw [← unpackU32_packU32 hb, ← unpackU32_packU32 hc, hlen]
  exact append_inj hrest hbc

/-- The bytes of a sequence of frames. -/
def frames (bodies : List (List UInt8)) : List UInt8 := (bodies.map frame).flatten

@[simp] theorem frames_nil : frames [] = [] := rfl

@[simp] theorem frames_cons (b : List UInt8) (bs : List (List UInt8)) :
    frames (b :: bs) = frame b ++ frames bs := rfl

@[simp] theorem frames_append (bs cs : List (List UInt8)) :
    frames (bs ++ cs) = frames bs ++ frames cs := by
  simp [frames]

/-- **What was cut out of a stream of frames is the first of those frames**, and what was not is
the rest. -/
theorem frames_append_eq {bs cs : List (List UInt8)} {x : List UInt8}
    (hb : ∀ b ∈ bs, b.length < 2 ^ 32) (hc : ∀ c ∈ cs, c.length < 2 ^ 32)
    (h : frames bs ++ x = frames cs) : ∃ rest, cs = bs ++ rest ∧ x = frames rest := by
  induction bs generalizing cs with
  | nil => exact ⟨cs, rfl, h⟩
  | cons b bs ih =>
    cases cs with
    | nil =>
      have hlen := congrArg List.length h
      simp only [frames_cons, frames_nil, length_append, length_frame, length_nil] at hlen
      omega
    | cons c =>
      rw [frames_cons, frames_cons, append_assoc] at h
      obtain ⟨rfl, htail⟩ := frame_append_inj (hb b (by simp)) (hc c (by simp)) h
      obtain ⟨rest, rfl, rfl⟩ := ih (fun d hd ↦ hb d (mem_cons_of_mem _ hd))
        (fun d hd ↦ hc d (mem_cons_of_mem _ hd)) htail
      exact ⟨rest, rfl, rfl⟩

end Py
