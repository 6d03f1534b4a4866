import Uio.ByteOrder

/- The masking of a payload by a repeating four-byte key, with the source's paths for
   short payloads, for words and for the vector kernel. The kernel is assembly: it is
   taken to mask whole 32-byte blocks word by word. -/
namespace UwsMask
open ByteOrder
variable (key : Key) (offset : Nat) (payload : List UInt8)

structure Key where
  k0 : UInt8
  k1 : UInt8
  k2 : UInt8
  k3 : UInt8
  deriving DecidableEq, Repr

def Key.zero : Key := ⟨0, 0, 0, 0⟩

def Key.bytes (key : Key) : List UInt8 := [key.k0, key.k1, key.k2, key.k3]

def Key.at (key : Key) (i : Nat) : UInt8 :=
  match i % 4 with
  | 0 => key.k0
  | 1 => key.k1
  | 2 => key.k2
  | _ => key.k3

def wordUnmaskThreshold : Nat := 16
def vectorUnmaskThreshold : Nat := 128

def xorBytes (key : Key) (offset : Nat) (payload : List UInt8) : List UInt8 :=
  payload.mapIdx fun i b => b ^^^ key.at (offset + i)

def key32 (key : Key) (offset : Nat) : Nat :=
  (key.at offset).toNat ||| (key.at (offset + 1)).toNat <<< 8 ||| (key.at (offset + 2)).toNat <<< 16
    ||| (key.at (offset + 3)).toNat <<< 24

def key64 (key : Key) (offset : Nat) : Nat := key32 key offset ||| key32 key offset <<< 32

def maskWord (word : Nat) (bytes : List UInt8) : List UInt8 := encodeLE 8 (decodeLE bytes ^^^ word)

def maskFourWords (word : Nat) (bytes : List UInt8) : List UInt8 :=
  maskWord word (bytes.take 8) ++ maskWord word ((bytes.drop 8).take 8)
    ++ maskWord word ((bytes.drop 16).take 8) ++ maskWord word ((bytes.drop 24).take 8)

def maskWords (key : Key) (offset : Nat) (payload : List UInt8) : List UInt8 :=
  if 8 ≤ payload.length then
    maskWord (key64 key offset) (payload.take 8) ++ maskWords key offset (payload.drop 8)
  else xorBytes key offset payload
termination_by payload.length
decreasing_by
  rw [List.length_drop]
  omega

def maskBlocks (key : Key) (offset : Nat) (payload : List UInt8) : List UInt8 :=
  if 32 ≤ payload.length then
    maskFourWords (key64 key offset) (payload.take 32) ++ maskBlocks key offset (payload.drop 32)
  else maskWords key offset payload
termination_by payload.length
decreasing_by
  rw [List.length_drop]
  omega

def maskAVX2 (word : Nat) (bytes : List UInt8) : List UInt8 :=
  bytes.mapIdx fun i b => b ^^^ UInt8.ofNat (word >>> (8 * (i % 8)))

def unmask (useAVX2 : Bool) (key : Key) (offset : Nat) (payload : List UInt8) : List UInt8 :=
  let offset := offset % 4
  if payload.length < wordUnmaskThreshold then xorBytes key offset payload
  else if useAVX2 ∧ vectorUnmaskThreshold ≤ payload.length then
    let n := payload.length / 32 * 32
    maskAVX2 (key64 key offset) (payload.take n) ++ maskBlocks key offset (payload.drop n)
  else maskBlocks key offset payload

theorem at_add_mod (offset i : Nat) : key.at (offset % 4 + i) = key.at (offset + i) := by
  simp only [Key.at, Nat.mod_add_mod]

theorem at_add_multiple (i : Nat) {n : Nat} (multiple : n % 4 = 0) : key.at (n + i) = key.at i := by
  have same : (n + i) % 4 = i % 4 := by omega
  simp only [Key.at, same]

def keyBytes (key : Key) (offset : Nat) : List UInt8 :=
  [key.at offset, key.at (offset + 1), key.at (offset + 2), key.at (offset + 3),
    key.at offset, key.at (offset + 1), key.at (offset + 2), key.at (offset + 3)]

theorem or_shift {a b i : Nat} (small : a < 2 ^ i) : a ||| b <<< i = a + 2 ^ i * b := by
  rw [Nat.or_comm, ← Nat.shiftLeft_add_eq_or_of_lt small, Nat.shiftLeft_eq, Nat.add_comm,
    Nat.mul_comm]

theorem key32_eq : key32 key offset = (key.at offset).toNat + 2 ^ 8 * (key.at (offset + 1)).toNat
      + 2 ^ 16 * (key.at (offset + 2)).toNat + 2 ^ 24 * (key.at (offset + 3)).toNat := by
  have b0 := (key.at offset).toNat_lt
  have b1 := (key.at (offset + 1)).toNat_lt
  have b2 := (key.at (offset + 2)).toNat_lt
  unfold key32
  rw [or_shift b0, or_shift (i := 16) (by omega), or_shift (i := 24) (by omega)]

theorem key64_eq : key64 key offset = decodeLE (keyBytes key offset) := by
  have b0 := (key.at offset).toNat_lt
  have b1 := (key.at (offset + 1)).toNat_lt
  have b2 := (key.at (offset + 2)).toNat_lt
  have b3 := (key.at (offset + 3)).toNat_lt
  have low := key32_eq key offset
  unfold key64
  rw [or_shift (i := 32) (by omega), low]
  simp only [keyBytes, decodeLE]
  omega

theorem xorBytes_append (xs ys : List UInt8) :
    xorBytes key offset (xs ++ ys) = xorBytes key offset xs ++ xorBytes key (offset + xs.length) ys := by
  simp only [xorBytes, List.mapIdx_append, Nat.add_comm, Nat.add_left_comm]

@[simp] theorem length_xorBytes :
    (xorBytes key offset payload).length = payload.length := List.length_mapIdx

theorem xorBytes_congr {key : Key} {offset offset' : Nat} (same : ∀ i, key.at (offset + i) = key.at (offset' + i))
    (payload : List UInt8) : xorBytes key offset payload = xorBytes key offset' payload := by
  unfold xorBytes
  congr 1
  funext i b
  rw [same i]

theorem xorBytes_involutive : xorBytes key offset (xorBytes key offset payload) = payload := by
  apply List.ext_getElem
  · simp
  · intro i _ _
    simp [xorBytes]

theorem xorBytes_zero : xorBytes .zero offset payload = payload := by
  have none : ∀ i, Key.zero.at i = 0 := by
    intro i
    unfold Key.at
    split <;> rfl
  apply List.ext_getElem
  · simp
  · intro i _ _
    simp [xorBytes, none]

theorem maskWord_eq {bytes : List UInt8} (eight : bytes.length = 8) :
    maskWord (key64 key offset) bytes = xorBytes key offset bytes := by
  have paired := encodeLE_xor bytes (keyBytes key offset) eight
  rw [eight, ← key64_eq] at paired
  rw [maskWord, paired]
  have turned : ∀ i, key.at (offset + (4 + i)) = key.at (offset + i) := by
    intro i
    rw [Nat.add_left_comm]
    exact at_add_multiple key (offset + i) rfl
  match bytes, eight with
  | [b0, b1, b2, b3, b4, b5, b6, b7], _ =>
    have r0 : key.at (offset + 4) = key.at offset := turned 0
    have r1 : key.at (offset + 5) = key.at (offset + 1) := turned 1
    have r2 : key.at (offset + 6) = key.at (offset + 2) := turned 2
    have r3 : key.at (offset + 7) = key.at (offset + 3) := turned 3
    simp [keyBytes, xorBytes, r0, r1, r2, r3]

theorem xorBytes_shift {n : Nat} (multiple : n % 4 = 0)
    (payload : List UInt8) : xorBytes key (offset + n) payload = xorBytes key offset payload := by
  apply xorBytes_congr
  intro i
  rw [Nat.add_assoc, Nat.add_left_comm]
  exact at_add_multiple key (offset + i) multiple

theorem xorBytes_split {n : Nat} (multiple : n % 4 = 0)
    {payload : List UInt8} (within : n ≤ payload.length) : xorBytes key offset payload =
      xorBytes key offset (payload.take n) ++ xorBytes key offset (payload.drop n) := by
  rw [← xorBytes_shift key offset multiple (payload.drop n)]
  have taken : (payload.take n).length = n := List.length_take_of_le within
  have split := xorBytes_append key offset (payload.take n) (payload.drop n)
  rw [List.take_append_drop, taken] at split
  exact split

theorem maskWords_eq : maskWords key offset payload = xorBytes key offset payload := by
  fun_induction maskWords key offset payload with
  | case1 payload long ih =>
    rw [maskWord_eq key offset (List.length_take_of_le long), ih]
    exact (xorBytes_split key offset (by decide) long).symm
  | case2 payload short => rfl

theorem maskFourWords_eq {bytes : List UInt8} (block : bytes.length = 32) :
    maskFourWords (key64 key offset) bytes = xorBytes key offset bytes := by
  have word : ∀ k, k + 8 ≤ 32 → ((bytes.drop k).take 8).length = 8 := by
    intro k within
    rw [List.length_take, List.length_drop, block]
    omega
  have first : (bytes.take 8).length = 8 := word 0 (by decide)
  rw [maskFourWords, maskWord_eq key offset first, maskWord_eq key offset (word 8 (by decide)),
    maskWord_eq key offset (word 16 (by decide)), maskWord_eq key offset (word 24 (by decide))]
  have whole : (bytes.drop 24).take 8 = bytes.drop 24 := by
    apply List.take_of_length_le
    rw [List.length_drop, block]
  have s0 : xorBytes key offset bytes =
      xorBytes key offset (bytes.take 8) ++ xorBytes key offset (bytes.drop 8) :=
    xorBytes_split key offset (by decide) (by rw [block]; decide)
  have s1 : xorBytes key offset (bytes.drop 8) =
      xorBytes key offset ((bytes.drop 8).take 8) ++ xorBytes key offset (bytes.drop 16) := by
    rw [xorBytes_split key offset (n := 8) (by decide) (by rw [List.length_drop, block]; decide),
      List.drop_drop]
  have s2 : xorBytes key offset (bytes.drop 16) =
      xorBytes key offset ((bytes.drop 16).take 8) ++ xorBytes key offset (bytes.drop 24) := by
    rw [xorBytes_split key offset (n := 8) (by decide) (by rw [List.length_drop, block]; decide),
      List.drop_drop]
  rw [whole, s0, s1, s2]
  simp only [List.append_assoc]

theorem maskBlocks_eq : maskBlocks key offset payload = xorBytes key offset payload := by
  fun_induction maskBlocks key offset payload with
  | case1 payload long ih =>
    rw [maskFourWords_eq key offset (List.length_take_of_le long), ih]
    exact (xorBytes_split key offset (by decide) long).symm
  | case2 payload short => exact maskWords_eq key offset payload

theorem keyBytes_turn (offset i : Nat) :
    (keyBytes key offset).getD (i % 8) 0 = key.at (offset + i) := by
  have same : key.at (offset + i) = key.at (offset + i % 8) := by
    have : (offset + i) % 4 = (offset + i % 8) % 4 := by omega
    simp only [Key.at, this]
  have again : ∀ k, key.at (offset + (4 + k)) = key.at (offset + k) := by
    intro k
    rw [Nat.add_left_comm]
    exact at_add_multiple key (offset + k) rfl
  have small : i % 8 < 8 := Nat.mod_lt _ (by decide)
  rw [same]
  generalize i % 8 = k at small
  match k, small with
  | 0, _ => rfl
  | 1, _ => rfl
  | 2, _ => rfl
  | 3, _ => rfl
  | 4, _ => exact (again 0).symm
  | 5, _ => exact (again 1).symm
  | 6, _ => exact (again 2).symm
  | 7, _ => exact (again 3).symm

theorem maskAVX2_eq (bytes : List UInt8) :
    maskAVX2 (key64 key offset) bytes = xorBytes key offset bytes := by
  unfold maskAVX2 xorBytes
  congr 1
  funext i b
  rw [key64_eq, byte_decodeLE, keyBytes_turn]

theorem unmask_eq (useAVX2 : Bool) (key : Key) (offset : Nat) (payload : List UInt8) :
    unmask useAVX2 key offset payload = xorBytes key offset payload := by
  have reduced : xorBytes key (offset % 4) payload = xorBytes key offset payload :=
    xorBytes_congr (at_add_mod key offset) payload
  rw [← reduced]
  simp only [unmask]
  split
  · rfl
  · split
    · rw [maskAVX2_eq, maskBlocks_eq]
      have within : payload.length / 32 * 32 ≤ payload.length := Nat.div_mul_le_self _ _
      exact (xorBytes_split key (offset % 4) (by omega) within).symm
    · exact maskBlocks_eq key (offset % 4) payload

end UwsMask
