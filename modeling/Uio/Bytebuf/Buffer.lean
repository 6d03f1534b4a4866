import Uio.Slice

/-!
One block of bytes: a slice and the offset that reads have reached. Writes go behind
the slice's elements, and only a block without room for them moves what is unread.
Memory is not modelled as a resource: an allocation succeeds, and the pools hand out
blocks of at least the capacity asked for.
-/
namespace Bytebuf
open Slices

abbrev Bytes := List UInt8

def smallBufferSize : Nat := 64

structure Buffer where
  buf : Slice UInt8
  off : Nat
  inside : off ≤ buf.len

namespace Buffer

def bytes (b : Buffer) : Bytes := b.buf.elems.drop b.off

def len (b : Buffer) : Nat := b.buf.len - b.off

def available (b : Buffer) : Nat := b.buf.cap - b.buf.len

/-- An empty block from a pool, with `extra` bytes more than were asked for. -/
def take (capacity extra : Nat) : Buffer := ⟨.make (capacity + extra), 0, Nat.zero_le _⟩

def reset (b : Buffer) : Buffer := ⟨b.buf.upTo 0, 0, Nat.zero_le _⟩

def skip (b : Buffer) (n : Nat) : Buffer := ⟨b.buf, min (b.off + n) b.buf.len, Nat.min_le_right _ _⟩

def push (b : Buffer) (p : Bytes) : Buffer :=
  ⟨b.buf.append p 0, b.off, by
    have inside := b.inside
    rw [Slice.len_append]
    omega⟩

def recover (b : Buffer) : Buffer := if b.len = 0 ∧ b.off ≠ 0 then b.reset else b

def enlarge (b : Buffer) (n spare : Nat) : Buffer :=
  if n ≤ b.available then b
  else if b.buf.cap = 0 ∧ n ≤ smallBufferSize then ⟨.make smallBufferSize, 0, Nat.zero_le _⟩
  else if n + b.len ≤ b.buf.cap / 2 then
    ⟨(b.buf.copy b.bytes).upTo b.len, 0, Nat.zero_le _⟩
  else
    ⟨(Slice.make (max (b.len + (b.off + n)) (2 * (b.buf.cap - b.off)) + spare)).append b.bytes 0, 0,
      Nat.zero_le _⟩

def grow (b : Buffer) (n spare : Nat) : Buffer := b.recover.enlarge n spare

def write (b : Buffer) (p : Bytes) (spare : Nat) : Buffer :=
  if p.length ≤ b.available then b.push p else (b.grow p.length spare).push p

/-- The bytes read into room for `k` of them, and whether the block said it was drained. -/
def read (b : Buffer) (k : Nat) : Bytes × Buffer × Bool :=
  if b.len = 0 then ([], b.reset, decide (k ≠ 0))
  else (b.bytes.take k, b.skip k, false)

def discard (b : Buffer) (n : Nat) : Buffer :=
  if n = 0 then b.reset else (b.skip n).recover

/-- What a writer answers to a write: how much it took, at most, and whether it failed. -/
structure Answer where
  taken : Nat
  failed : Bool

/-- The bytes written, the block left behind, and whether an error came back. A writer
that took less than it was given without an error of its own is a short write. -/
def writeTo (b : Buffer) (answer : Answer) : Bytes × Buffer × Bool :=
  if b.len = 0 then ([], b.reset, false)
  else
    let m := min answer.taken b.len
    if answer.failed ∨ m ≠ b.len then (b.bytes.take m, b.skip m, true)
    else (b.bytes, b.reset, false)

@[simp] theorem length_bytes (b : Buffer) : b.bytes.length = b.len := by
  simp [bytes, len]

theorem bytes_eq_nil {b : Buffer} (drained : b.len = 0) : b.bytes = [] := by
  apply List.eq_nil_of_length_eq_zero
  rw [length_bytes, drained]

@[simp] theorem bytes_reset (b : Buffer) : b.reset.bytes = [] := by
  simp [bytes, reset, Slice.elems, Slice.upTo]

@[simp] theorem bytes_take (capacity extra : Nat) : (take capacity extra).bytes = [] := by
  simp [bytes, take]

@[simp] theorem bytes_push (b : Buffer) (p : Bytes) : (b.push p).bytes = b.bytes ++ p := by
  have inside := b.inside
  simp only [bytes, push, Slice.elems_append]
  rw [List.drop_append_of_le_length (by simpa using inside)]

@[simp] theorem bytes_skip (b : Buffer) (n : Nat) : (b.skip n).bytes = b.bytes.drop n := by
  simp only [bytes, skip, List.drop_drop]
  rcases Nat.le_total (b.off + n) b.buf.len with inside | past
  · rw [Nat.min_eq_left inside]
  · rw [Nat.min_eq_right past, List.drop_eq_nil_of_le (by simp), List.drop_eq_nil_of_le (by simpa)]

@[simp] theorem bytes_recover (b : Buffer) : b.recover.bytes = b.bytes := by
  unfold recover
  split_ifs with drained
  · rw [bytes_reset, bytes_eq_nil drained.1]
  · rfl

theorem bytes_enlarge (b : Buffer) (n spare : Nat) : (b.enlarge n spare).bytes = b.bytes := by
  unfold enlarge
  split_ifs with room small slide
  · rfl
  · have none_held : b.len = 0 := by
      have within := b.buf.within
      have cap := small.1
      simp only [Slice.cap] at cap
      simp only [len]
      omega
    rw [bytes_eq_nil none_held]
    simp [bytes]
  · have front := Slice.elems_copy_take b.buf
      (show b.bytes.length ≤ b.buf.len by rw [length_bytes]; simp [len])
    rw [length_bytes] at front
    have shown : ∀ s : Slice UInt8, (⟨s, 0, Nat.zero_le _⟩ : Buffer).bytes = s.elems := fun _ => rfl
    rw [shown, Slice.elems_upTo _ (by simp [len]), front]
  · simp [bytes]

@[simp] theorem bytes_write (b : Buffer) (p : Bytes) (spare : Nat) :
    (b.write p spare).bytes = b.bytes ++ p := by
  unfold write
  split_ifs
  · exact bytes_push b p
  · rw [bytes_push, grow, bytes_enlarge, bytes_recover]

theorem read_spec (b : Buffer) (k : Nat) :
    (b.read k).1 = b.bytes.take k ∧ (b.read k).2.1.bytes = b.bytes.drop k ∧
      ((b.read k).2.2 = true → b.bytes = [] ∧ 0 < k) := by
  unfold read
  split_ifs with drained
  · simp [bytes_eq_nil drained, Nat.pos_iff_ne_zero]
  · simp

theorem bytes_discard (b : Buffer) {n : Nat} (positive : 0 < n) :
    (b.discard n).bytes = b.bytes.drop n := by
  unfold discard
  rw [if_neg (by omega), bytes_recover, bytes_skip]

theorem writeTo_spec (b : Buffer) (answer : Answer) :
    b.bytes = (b.writeTo answer).1 ++ (b.writeTo answer).2.1.bytes ∧
      ((b.writeTo answer).2.2 = false → (b.writeTo answer).2.1.bytes = []) ∧
      ((b.writeTo answer).2.2 = true → answer.failed = true ∨ answer.taken < b.len) := by
  unfold writeTo
  split_ifs with drained
  · simp [bytes_eq_nil drained]
  · dsimp only
    split_ifs with short
    · refine ⟨by simp, nofun, fun _ => ?_⟩
      rcases short with fails | less
      · exact .inl fails
      · exact .inr (by omega)
    · simp

end Buffer
end Bytebuf
