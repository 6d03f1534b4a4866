import Uio.Uws.Mask

/-!
Unmasking that tells on the way whether the payload is ASCII. A word loop gathers the
unmasked words in `seen`, whose high bits stay clear as long as no byte has one. The
vector kernel is assembly: it is taken to mask as `maskAVX2` does and to report whether
a result byte has its high bit set.
-/
namespace UwsShortUnmask
open ByteOrder UwsMask

def highBits : Nat := 0x8080808080808080

def isAscii (bytes : List UInt8) : Bool := bytes.all fun b => decide (b.toNat < 0x80)

/-- The loop over whole words: what it wrote, what it left and the bits it saw. -/
def wordLoop (key64 : Nat) (payload : List UInt8) (seen : Nat) : List UInt8 × List UInt8 × Nat :=
  if 8 ≤ payload.length then
    let word := decodeLE (payload.take 8) ^^^ key64
    let (out, rest, seen) := wordLoop key64 (payload.drop 8) (seen ||| word)
    (encodeLE 8 word ++ out, rest, seen)
  else ([], payload, seen)
termination_by payload.length
decreasing_by
  rw [List.length_drop]
  omega

def shiftLoop : Nat → List UInt8 → Nat → List UInt8 × Nat
  | _, [], seen => ([], seen)
  | key, b :: rest, seen =>
    let byte := b ^^^ UInt8.ofNat key
    let (out, seen) := shiftLoop (key >>> 8) rest (seen ||| byte.toNat)
    (byte :: out, seen)

def unmaskShort (payload : List UInt8) (key : Nat) : List UInt8 × Bool :=
  let (out, rest, seen) := wordLoop (key ||| key <<< 32) payload 0
  if 4 ≤ rest.length then
    let word := decodeLE (rest.take 4) ^^^ key
    let (last, seen) := shiftLoop key (rest.drop 4) (seen ||| word)
    (out ++ encodeLE 4 word ++ last, seen &&& highBits == 0)
  else
    let (last, seen) := shiftLoop key rest seen
    (out ++ last, seen &&& highBits == 0)

def indexLoop (key : Key) (payload : List UInt8) (seen : Nat) : List UInt8 × Nat :=
  (xorBytes key 0 payload, (xorBytes key 0 payload).foldl (fun seen b => seen ||| b.toNat) seen)

def blockLoop (key64 : Nat) (payload : List UInt8) (seen : Nat) : List UInt8 × List UInt8 × Nat :=
  if 32 ≤ payload.length then
    let w0 := decodeLE (payload.take 8) ^^^ key64
    let w1 := decodeLE ((payload.drop 8).take 8) ^^^ key64
    let w2 := decodeLE ((payload.drop 16).take 8) ^^^ key64
    let w3 := decodeLE ((payload.drop 24).take 8) ^^^ key64
    let (out, rest, seen) := blockLoop key64 (payload.drop 32) (seen ||| (w0 ||| w1 ||| w2 ||| w3))
    (encodeLE 8 w0 ++ encodeLE 8 w1 ++ encodeLE 8 w2 ++ encodeLE 8 w3 ++ out, rest, seen)
  else ([], payload, seen)
termination_by payload.length
decreasing_by
  rw [List.length_drop]
  omega

def maskASCIIAVX2 (word : Nat) (bytes : List UInt8) : List UInt8 × Bool :=
  (maskAVX2 word bytes, !isAscii (maskAVX2 word bytes))

def unmaskASCII (useAVX2 : Bool) (key : Key) (payload : List UInt8) : List UInt8 × Bool :=
  if payload.length < wordUnmaskThreshold then
    let (out, seen) := indexLoop key payload 0
    (out, decide (seen < 0x80))
  else
    let n := if useAVX2 ∧ vectorUnmaskThreshold ≤ payload.length then payload.length / 32 * 32 else 0
    let (vector, high) := maskASCIIAVX2 (key64 key 0) (payload.take n)
    let seen := if high then 0x80 else 0
    let (blocks, rest, seen) := blockLoop (key64 key 0) (payload.drop n) seen
    let (words, rest, seen) := wordLoop (key64 key 0) rest seen
    let (last, seen) := indexLoop key rest seen
    (vector ++ blocks ++ words ++ last, seen &&& highBits == 0)

section Seen

def Clear (seen : Nat) : Prop := seen &&& highBits = 0

theorem clear_or (a b : Nat) : Clear (a ||| b) ↔ Clear a ∧ Clear b := by
  unfold Clear
  rw [Nat.and_or_distrib_right, Nat.or_eq_zero_iff]

def highOf : Nat → Nat
  | 0 => 0
  | n + 1 => 0x80 + 256 * highOf n

theorem high_byte : ∀ n < 256, (n &&& 0x80 = 0 ↔ n < 0x80) := by decide +kernel

theorem and_highOf {bytes : List UInt8} {n : Nat} (within : bytes.length ≤ n) :
    decodeLE bytes &&& highOf n = 0 ↔ isAscii bytes = true := by
  induction bytes generalizing n with
  | nil => simp [decodeLE, isAscii]
  | cons b rest ih =>
    cases n with
    | zero => simp at within
    | succ n =>
      have small := b.toNat_lt
      have low : (decodeLE (b :: rest) &&& highOf (n + 1)) % 256 = b.toNat &&& 0x80 := by
        have split := Nat.and_mod_two_pow (a := decodeLE (b :: rest)) (b := highOf (n + 1)) (n := 8)
        have left : decodeLE (b :: rest) % 2 ^ 8 = b.toNat := by
          simp only [decodeLE]
          omega
        have right : highOf (n + 1) % 2 ^ 8 = 0x80 := by
          simp only [highOf]
          omega
        rw [left, right] at split
        exact split
      have high : (decodeLE (b :: rest) &&& highOf (n + 1)) / 256 = decodeLE rest &&& highOf n := by
        have split := Nat.and_div_two_pow (a := decodeLE (b :: rest)) (b := highOf (n + 1)) (n := 8)
        have left : decodeLE (b :: rest) / 2 ^ 8 = decodeLE rest := by
          simp only [decodeLE]
          omega
        have right : highOf (n + 1) / 2 ^ 8 = highOf n := by
          simp only [highOf]
          omega
        rw [left, right] at split
        exact split
      have first := high_byte b.toNat small
      have later := ih (Nat.le_of_succ_le_succ within)
      have both : decodeLE (b :: rest) &&& highOf (n + 1) = 0 ↔
          b.toNat &&& 0x80 = 0 ∧ decodeLE rest &&& highOf n = 0 := by omega
      rw [both, first, later]
      simp [isAscii]

theorem clear_word {bytes : List UInt8} (within : bytes.length ≤ 8) :
    Clear (decodeLE bytes) ↔ isAscii bytes = true := and_highOf within

theorem clear_byte (b : UInt8) : Clear b.toNat ↔ isAscii [b] = true := by
  have word := clear_word (show [b].length ≤ 8 by simp)
  simp only [decodeLE, Nat.mul_zero, Nat.add_zero] at word
  exact word

theorem isAscii_append (left right : List UInt8) :
    isAscii (left ++ right) = (isAscii left && isAscii right) := List.all_append

end Seen

section Loops
variable (key : Key)

/-- A loop that wrote `out`, left `rest` and raised the bits it saw to `after`. -/
structure Unmasks (payload : List UInt8) (seen : Nat) (out rest : List UInt8) (after : Nat) :
    Prop where
  bytes : out ++ xorBytes key 0 rest = xorBytes key 0 payload
  clear : Clear after ↔ Clear seen ∧ isAscii out = true

theorem clear_xor {xs ys : List UInt8} (same : xs.length = ys.length) (within : xs.length ≤ 8) :
    Clear (decodeLE xs ^^^ decodeLE ys) ↔
      isAscii (encodeLE xs.length (decodeLE xs ^^^ decodeLE ys)) = true := by
  have left := decodeLE_lt xs
  have right := decodeLE_lt ys
  rw [← same] at right
  have power : 256 ^ xs.length = 2 ^ (8 * xs.length) := by rw [Nat.pow_mul]
  have fits : decodeLE xs ^^^ decodeLE ys < 256 ^ xs.length := by
    rw [power] at left right ⊢
    exact Nat.xor_lt_two_pow left right
  have word := clear_word (show (encodeLE xs.length (decodeLE xs ^^^ decodeLE ys)).length ≤ 8 by
    rw [length_encodeLE]
    exact within)
  rw [decodeLE_encodeLE _ fits] at word
  exact word

theorem word_step {bytes : List UInt8} (eight : bytes.length = 8) :
    encodeLE 8 (decodeLE bytes ^^^ key64 key 0) = xorBytes key 0 bytes ∧
      (Clear (decodeLE bytes ^^^ key64 key 0) ↔ isAscii (xorBytes key 0 bytes) = true) := by
  have masked := maskWord_eq key 0 eight
  have clear := clear_xor (show bytes.length = (keyBytes key 0).length from eight) (by omega)
  rw [← key64_eq, eight] at clear
  rw [maskWord] at masked
  rw [masked] at clear
  exact ⟨masked, clear⟩

theorem unmasks_word {payload out rest : List UInt8} {seen after : Nat} (long : 8 ≤ payload.length)
    (loop : Unmasks key (payload.drop 8)
      (seen ||| (decodeLE (payload.take 8) ^^^ key64 key 0)) out rest after) :
    Unmasks key payload seen
      (encodeLE 8 (decodeLE (payload.take 8) ^^^ key64 key 0) ++ out) rest after := by
  obtain ⟨masked, clear⟩ := word_step key (show (payload.take 8).length = 8 by simp; omega)
  obtain ⟨bytes, seenBits⟩ := loop
  constructor
  · rw [masked, List.append_assoc, bytes, ← xorBytes_split key 0 (by decide) long]
  · rw [seenBits, clear_or, clear, masked, isAscii_append, Bool.and_eq_true, and_assoc]

theorem wordLoop_unmasks (payload : List UInt8) (seen : Nat) :
    Unmasks key payload seen (wordLoop (key64 key 0) payload seen).1
        (wordLoop (key64 key 0) payload seen).2.1 (wordLoop (key64 key 0) payload seen).2.2 ∧
      (wordLoop (key64 key 0) payload seen).2.1.length < 8 := by
  fun_induction wordLoop (key64 key 0) payload seen with
  | case1 payload seen long word out rest after loop ih =>
    rw [loop] at ih
    exact ⟨unmasks_word key long ih.1, ih.2⟩
  | case2 payload seen short =>
    exact ⟨⟨rfl, by simp [isAscii]⟩, Nat.lt_of_not_le short⟩

theorem blockLoop_unmasks (payload : List UInt8) (seen : Nat) :
    Unmasks key payload seen (blockLoop (key64 key 0) payload seen).1
      (blockLoop (key64 key 0) payload seen).2.1 (blockLoop (key64 key 0) payload seen).2.2 := by
  fun_induction blockLoop (key64 key 0) payload seen with
  | case1 payload seen long w0 w1 w2 w3 out rest after loop ih =>
    rw [loop] at ih
    have drop16 : (payload.drop 8).drop 8 = payload.drop 16 := List.drop_drop
    have drop24 : (payload.drop 16).drop 8 = payload.drop 24 := List.drop_drop
    have drop32 : (payload.drop 24).drop 8 = payload.drop 32 := List.drop_drop
    have gathered : seen ||| (w0 ||| w1 ||| w2 ||| w3) = seen ||| w0 ||| w1 ||| w2 ||| w3 := by
      simp only [Nat.or_assoc]
    rw [gathered, ← drop32] at ih
    have third := unmasks_word key (by rw [List.length_drop]; omega) ih
    rw [← drop24] at third
    have second := unmasks_word key (by rw [List.length_drop]; omega) third
    rw [← drop16] at second
    have first := unmasks_word key (by rw [List.length_drop]; omega) second
    have whole := unmasks_word key (by omega) first
    simp only [List.drop_drop, Nat.reduceAdd] at whole
    simp only [List.append_assoc]
    exact whole
  | case2 payload seen short => exact ⟨rfl, by simp [isAscii]⟩

theorem shiftLoop_unmasks {payload keys : List UInt8} (within : payload.length ≤ keys.length)
    (seen : Nat) :
    (shiftLoop (decodeLE keys) payload seen).1 = List.zipWith (· ^^^ ·) payload keys ∧
      (Clear (shiftLoop (decodeLE keys) payload seen).2 ↔
        Clear seen ∧ isAscii (List.zipWith (· ^^^ ·) payload keys) = true) := by
  induction payload generalizing keys seen with
  | nil => exact ⟨rfl, by simp [shiftLoop, isAscii]⟩
  | cons b rest ih =>
    cases keys with
    | nil => simp at within
    | cons k keys =>
      have low : UInt8.ofNat (decodeLE (k :: keys)) = k := by
        have byte := byte_decodeLE (k :: keys) 0
        simpa using byte
      have high : decodeLE (k :: keys) >>> 8 = decodeLE keys := by
        have small := k.toNat_lt
        rw [Nat.shiftRight_eq_div_pow, decodeLE]
        omega
      obtain ⟨bytes, clear⟩ := ih (Nat.le_of_succ_le_succ within) (seen ||| (b ^^^ k).toNat)
      simp only [shiftLoop, low, high, bytes, List.zipWith_cons_cons, true_and]
      rw [clear, clear_or, clear_byte]
      simp [isAscii, and_assoc]

theorem indexLoop_unmasks (payload : List UInt8) (seen : Nat) :
    Clear (indexLoop key payload seen).2 ↔
      Clear seen ∧ isAscii (xorBytes key 0 payload) = true := by
  unfold indexLoop
  generalize xorBytes key 0 payload = bytes
  induction bytes generalizing seen with
  | nil => simp [isAscii]
  | cons b rest ih =>
    rw [List.foldl_cons]
    simp only at ih ⊢
    rw [ih, clear_or, clear_byte]
    simp [isAscii, and_assoc]

theorem decodeLE_key : decodeLE key.bytes = key32 key 0 := by
  rw [key32_eq]
  simp only [Key.bytes, decodeLE, Key.at]
  omega

theorem zipWith_key {payload : List UInt8} (within : payload.length ≤ 4) :
    List.zipWith (· ^^^ ·) payload key.bytes = xorBytes key 0 payload := by
  match payload, within with
  | [], _ => rfl
  | [_], _ => rfl
  | [_, _], _ => rfl
  | [_, _, _], _ => rfl
  | [_, _, _, _], _ => rfl

theorem four_step {bytes : List UInt8} (four : bytes.length = 4) :
    encodeLE 4 (decodeLE bytes ^^^ key32 key 0) = xorBytes key 0 bytes ∧
      (Clear (decodeLE bytes ^^^ key32 key 0) ↔ isAscii (xorBytes key 0 bytes) = true) := by
  have clear := clear_xor (show bytes.length = key.bytes.length from four) (by omega)
  have masked := encodeLE_xor bytes key.bytes four
  rw [four, decodeLE_key] at masked clear
  rw [masked, zipWith_key key (Nat.le_of_eq four)] at clear
  rw [masked, zipWith_key key (Nat.le_of_eq four)]
  exact ⟨rfl, clear⟩

theorem shiftLoop_key {payload : List UInt8} (within : payload.length < 4) (seen : Nat) :
    (shiftLoop (key32 key 0) payload seen).1 = xorBytes key 0 payload ∧
      (Clear (shiftLoop (key32 key 0) payload seen).2 ↔
        Clear seen ∧ isAscii (xorBytes key 0 payload) = true) := by
  have loop := shiftLoop_unmasks (show payload.length ≤ key.bytes.length by
    simp only [Key.bytes, List.length_cons, List.length_nil]
    omega) seen
  rw [decodeLE_key, zipWith_key key (by omega)] at loop
  exact loop

theorem verdict {seen : Nat} {text : List UInt8} (clear : Clear seen ↔ isAscii text = true) :
    (seen &&& highBits == 0) = isAscii text := by
  rw [Bool.eq_iff_iff, beq_iff_eq]
  exact clear

theorem unmaskShort_eq (payload : List UInt8) : unmaskShort payload (key32 key 0) =
      (xorBytes key 0 payload, isAscii (xorBytes key 0 payload)) := by
  have zero : Clear 0 := rfl
  have loop := wordLoop_unmasks key payload 0
  unfold unmaskShort
  rw [← key64]
  generalize wordLoop (key64 key 0) payload 0 = done at loop
  obtain ⟨out, rest, seen⟩ := done
  obtain ⟨⟨bytes, clear⟩, short⟩ := loop
  simp only [zero, true_and] at bytes clear short ⊢
  split
  · rename_i half
    obtain ⟨masked, four⟩ := four_step key (show (rest.take 4).length = 4 by simp; omega)
    obtain ⟨last, tail⟩ := shiftLoop_key key (show (rest.drop 4).length < 4 by simp; omega)
      (seen ||| (decodeLE (rest.take 4) ^^^ key32 key 0))
    have whole : out ++ encodeLE 4 (decodeLE (rest.take 4) ^^^ key32 key 0) ++
        xorBytes key 0 (rest.drop 4) = xorBytes key 0 payload := by
      rw [masked, List.append_assoc, ← xorBytes_split key 0 (by decide) half, bytes]
    rw [last, whole]
    congr 1
    apply verdict
    rw [tail, clear_or, clear, four, ← whole, isAscii_append, isAscii_append, masked,
      Bool.and_eq_true, Bool.and_eq_true]
  · rename_i half
    obtain ⟨last, tail⟩ := shiftLoop_key key (Nat.lt_of_not_le half) seen
    rw [last, bytes]
    congr 1
    apply verdict
    rw [tail, clear, ← bytes, isAscii_append, Bool.and_eq_true]

theorem indexLoop_small (bytes : List UInt8) (seen : Nat) :
    bytes.foldl (fun seen b => seen ||| b.toNat) seen < 0x80 ↔
      seen < 0x80 ∧ isAscii bytes = true := by
  induction bytes generalizing seen with
  | nil => simp [isAscii]
  | cons b rest ih =>
    have both : seen ||| b.toNat < 0x80 ↔ seen < 0x80 ∧ b.toNat < 0x80 := by
      constructor
      · intro small
        exact ⟨Nat.lt_of_le_of_lt Nat.left_le_or small, Nat.lt_of_le_of_lt Nat.right_le_or small⟩
      · intro small
        exact Nat.or_lt_two_pow (n := 7) small.1 small.2
    rw [List.foldl_cons, ih, both]
    simp [isAscii, and_assoc]

theorem vector_unmasks {payload : List UInt8} {n : Nat} (multiple : n % 4 = 0)
    (within : n ≤ payload.length) :
    Unmasks key payload 0 (xorBytes key 0 (payload.take n)) (payload.drop n)
      (if !isAscii (xorBytes key 0 (payload.take n)) then 0x80 else 0) := by
  constructor
  · exact (xorBytes_split key 0 multiple within).symm
  · cases isAscii (xorBytes key 0 (payload.take n)) with
    | true => simp [Clear]
    | false => simp [Clear, highBits]

theorem Unmasks.trans {payload middle rest first second : List UInt8} {seen bits after : Nat}
    (before : Unmasks key payload seen first middle bits)
    (later : Unmasks key middle bits second rest after) :
    Unmasks key payload seen (first ++ second) rest after := by
  constructor
  · rw [List.append_assoc, later.bytes, before.bytes]
  · rw [later.clear, before.clear, isAscii_append, Bool.and_eq_true, and_assoc]

theorem unmaskASCII_eq (useAVX2 : Bool) (payload : List UInt8) : unmaskASCII useAVX2 key payload =
      (xorBytes key 0 payload, isAscii (xorBytes key 0 payload)) := by
  unfold unmaskASCII
  split
  · have small : (indexLoop key payload 0).2 < 0x80 ↔ 0 < 0x80 ∧ _ :=
      indexLoop_small (xorBytes key 0 payload) 0
    have ascii : decide ((indexLoop key payload 0).2 < 0x80) = isAscii (xorBytes key 0 payload) := by
      rw [Bool.eq_iff_iff, decide_eq_true_iff, small]
      simp
    rw [← ascii]
    rfl
  · generalize count : (if useAVX2 = true ∧ vectorUnmaskThreshold ≤ payload.length then
      payload.length / 32 * 32 else 0) = n
    have multiple : n % 4 = 0 ∧ n ≤ payload.length := by
      split at count <;> omega
    have vector := vector_unmasks key multiple.1 multiple.2
    simp only [maskASCIIAVX2, maskAVX2_eq]
    generalize (if !isAscii (xorBytes key 0 (payload.take n)) then 0x80 else 0) = bits at vector ⊢
    have blocks := blockLoop_unmasks key (payload.drop n) bits
    generalize blockLoop (key64 key 0) (payload.drop n) bits = block at blocks
    obtain ⟨block, rest, bits⟩ := block
    have words := (wordLoop_unmasks key rest bits).1
    generalize wordLoop (key64 key 0) rest bits = word at words
    obtain ⟨word, rest, bits⟩ := word
    have done := ((vector.trans key blocks).trans key words)
    have last := indexLoop_unmasks key rest bits
    simp only [indexLoop] at last ⊢
    rw [done.bytes]
    congr 1
    apply verdict
    rw [last, done.clear, ← done.bytes, isAscii_append _ (xorBytes key 0 rest), Bool.and_eq_true]
    simp only [show Clear 0 from rfl, true_and]

theorem getElem?_xorBytes (offset : Nat) (payload : List UInt8) (i : Nat) :
    (xorBytes key offset payload)[i]? = payload[i]?.map (· ^^^ key.at (offset + i)) :=
  List.getElem?_mapIdx

theorem isAscii_iff (bytes : List UInt8) : isAscii bytes = true ↔ ∀ b ∈ bytes, b.toNat < 0x80 := by
  simp [isAscii]

/-- Every path masks byte by byte with the key at the byte's own place, a payload may be cut
    anywhere, and the verdict is about the unmasked bytes. -/
theorem unmasking_bytewise (useAVX2 : Bool) (key : Key) (offset : Nat) (payload : List UInt8) :
    (∀ i : Nat, (unmask useAVX2 key offset payload)[i]? =
        payload[i]?.map (· ^^^ key.at (offset + i)) ∧
      (unmaskASCII useAVX2 key payload).1[i]? = payload[i]?.map (· ^^^ key.at i) ∧
      (unmaskShort payload (key32 key 0)).1[i]? = payload[i]?.map (· ^^^ key.at i)) ∧
    (∀ left right, unmask useAVX2 key offset (left ++ right) =
      unmask useAVX2 key offset left ++ unmask useAVX2 key (offset + left.length) right) ∧
    ((unmaskASCII useAVX2 key payload).2 = true ↔
      ∀ b ∈ (unmaskASCII useAVX2 key payload).1, b.toNat < 0x80) ∧
    ((unmaskShort payload (key32 key 0)).2 = true ↔
      ∀ b ∈ (unmaskShort payload (key32 key 0)).1, b.toNat < 0x80) := by
  rw [unmaskASCII_eq, unmaskShort_eq]
  refine ⟨fun i => ?_, fun left right => ?_, isAscii_iff _, isAscii_iff _⟩
  · have aligned := getElem?_xorBytes key 0 payload i
    rw [Nat.zero_add] at aligned
    rw [unmask_eq]
    exact ⟨getElem?_xorBytes key offset payload i, aligned, aligned⟩
  · rw [unmask_eq, unmask_eq, unmask_eq]
    exact xorBytes_append key offset left right

end Loops

end UwsShortUnmask
