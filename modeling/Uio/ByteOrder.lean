import Mathlib

/- Numbers as bytes. Little-endian decoding and encoding by recursion on the bytes;
   big-endian is the same on the reversed list. -/
namespace ByteOrder

def decodeLE : List UInt8 → Nat
  | [] => 0
  | b :: rest => b.toNat + 256 * decodeLE rest

def encodeLE : Nat → Nat → List UInt8
  | 0, _ => []
  | width + 1, n => UInt8.ofNat n :: encodeLE width (n / 256)

def decodeBE (bytes : List UInt8) : Nat := decodeLE bytes.reverse

def encodeBE (width n : Nat) : List UInt8 := (encodeLE width n).reverse

@[simp] theorem length_encodeLE (width n : Nat) : (encodeLE width n).length = width := by
  induction width generalizing n with
  | zero => rfl
  | succ width ih => rw [encodeLE, List.length_cons, ih]

@[simp] theorem length_encodeBE (width n : Nat) : (encodeBE width n).length = width := by
  rw [encodeBE, List.length_reverse, length_encodeLE]

theorem decodeLE_lt (bytes : List UInt8) : decodeLE bytes < 256 ^ bytes.length := by
  induction bytes with
  | nil => exact Nat.one_pos
  | cons b rest ih =>
    have small := b.toNat_lt
    rw [decodeLE, List.length_cons, Nat.pow_succ]
    omega

theorem decodeBE_lt (bytes : List UInt8) : decodeBE bytes < 256 ^ bytes.length := by
  rw [← List.length_reverse]
  exact decodeLE_lt bytes.reverse

theorem decodeLE_encodeLE (width : Nat) {n : Nat} (fits : n < 256 ^ width) :
    decodeLE (encodeLE width n) = n := by
  induction width generalizing n with
  | zero =>
    rw [Nat.pow_zero, Nat.lt_one_iff] at fits
    rw [fits]
    rfl
  | succ width ih =>
    have smaller : n / 256 < 256 ^ width := by
      rw [Nat.pow_succ, Nat.mul_comm] at fits
      exact Nat.div_lt_of_lt_mul fits
    rw [encodeLE, decodeLE, ih smaller, UInt8.toNat_ofNat']
    omega

theorem decodeBE_encodeBE (width : Nat) {n : Nat} (fits : n < 256 ^ width) :
    decodeBE (encodeBE width n) = n := by
  rw [decodeBE, encodeBE, List.reverse_reverse]
  exact decodeLE_encodeLE width fits

theorem encodeLE_decodeLE (bytes : List UInt8) : encodeLE bytes.length (decodeLE bytes) = bytes := by
  induction bytes with
  | nil => rfl
  | cons b rest ih =>
    have small := b.toNat_lt
    have low : UInt8.ofNat (b.toNat + 256 * decodeLE rest) = b := by
      apply UInt8.toNat_inj.mp
      rw [UInt8.toNat_ofNat']
      omega
    have high : (b.toNat + 256 * decodeLE rest) / 256 = decodeLE rest := by omega
    rw [List.length_cons, decodeLE, encodeLE, low, high, ih]

theorem encodeBE_decodeBE (bytes : List UInt8) : encodeBE bytes.length (decodeBE bytes) = bytes := by
  rw [encodeBE, decodeBE, ← List.length_reverse, encodeLE_decodeLE, List.reverse_reverse]

theorem encodeLE_xor (xs ys : List UInt8) (same : xs.length = ys.length) :
    encodeLE xs.length (decodeLE xs ^^^ decodeLE ys) = List.zipWith (· ^^^ ·) xs ys := by
  induction xs generalizing ys with
  | nil => rfl
  | cons x xs ih =>
    cases ys with
    | nil => cases same
    | cons y ys =>
      have smallX := x.toNat_lt
      have smallY := y.toNat_lt
      have low : UInt8.ofNat (decodeLE (x :: xs) ^^^ decodeLE (y :: ys)) = x ^^^ y := by
        apply UInt8.toNat_inj.mp
        have modX : decodeLE (x :: xs) % 2 ^ 8 = x.toNat := by
          simp only [decodeLE]
          omega
        have modY : decodeLE (y :: ys) % 2 ^ 8 = y.toNat := by
          simp only [decodeLE]
          omega
        rw [UInt8.toNat_ofNat', Nat.xor_mod_two_pow, modX, modY, UInt8.toNat_xor]
      have high : (decodeLE (x :: xs) ^^^ decodeLE (y :: ys)) / 256 = decodeLE xs ^^^ decodeLE ys := by
        have divX : decodeLE (x :: xs) / 2 ^ 8 = decodeLE xs := by
          simp only [decodeLE]
          omega
        have divY : decodeLE (y :: ys) / 2 ^ 8 = decodeLE ys := by
          simp only [decodeLE]
          omega
        have split := Nat.xor_div_two_pow (a := decodeLE (x :: xs)) (b := decodeLE (y :: ys)) (n := 8)
        rw [divX, divY] at split
        exact split
      rw [List.length_cons, encodeLE, low, high, ih ys (Nat.succ.inj same), List.zipWith_cons_cons]

theorem byte_decodeLE (bytes : List UInt8) (j : Nat) :
    UInt8.ofNat (decodeLE bytes >>> (8 * j)) = bytes.getD j 0 := by
  induction bytes generalizing j with
  | nil => simp [decodeLE]
  | cons b rest ih =>
    have small := b.toNat_lt
    cases j with
    | zero =>
      apply UInt8.toNat_inj.mp
      rw [UInt8.toNat_ofNat', Nat.mul_zero, Nat.shiftRight_zero, decodeLE, List.getD_cons_zero]
      omega
    | succ j =>
      have lower : decodeLE (b :: rest) >>> 8 = decodeLE rest := by
        rw [Nat.shiftRight_eq_div_pow, decodeLE]
        omega
      rw [Nat.mul_succ, Nat.add_comm, Nat.shiftRight_add, lower, ih, List.getD_cons_succ]

end ByteOrder
