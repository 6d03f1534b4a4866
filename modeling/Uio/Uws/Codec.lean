import Uio.Uws.Segments

/-!
The encoder and `parseFrame` are inverse on the legal frames: an encoded frame is read
back whole, whatever follows it, and an accepted input is the encoding of its frame with
the key on the wire, so no frame has a second encoding.
-/
namespace UwsCodec
open ByteOrder UwsMask UwsFrame UwsSegments
variable (m : Platform) (cfg : ParserConfig)

structure Legal (f : Content) : Prop where
  rsv1 : f.rsv1 = true → cfg.allowRSV1 = true
  masked : f.masked = cfg.expectMask
  control : f.opcode.isControl = true → f.fin = true ∧ f.rsv1 = false ∧ f.payload.length < 126
  size : f.payload.length ≤ parserMaxFramePayload cfg
  close : checkClose m f.opcode f.payload = none

theorem forall_byte {p : UInt8 → Prop} (all : ∀ n : Fin 256, p (UInt8.ofNat n)) (b : UInt8) : p b := by
  have holds := all ⟨b.toNat, b.toNat_lt⟩
  rwa [UInt8.ofNat_toNat] at holds

theorem firstByte_fields (f : Content) :
    firstByte f &&& 0x30 = 0 ∧ isFin (firstByte f) = f.fin ∧ isRSV1 (firstByte f) = f.rsv1 ∧
      OpCode.ofByte (firstByte f &&& 0x0f) = some f.opcode := by
  unfold firstByte
  generalize f.fin = fin
  generalize f.rsv1 = rsv1
  cases f.opcode <;> revert fin rsv1 <;> decide

theorem ofByte_toByte {b : UInt8} {opcode : OpCode} (valid : OpCode.ofByte b = some opcode) :
    opcode.toByte = b := by
  unfold OpCode.ofByte at valid
  repeat' split at valid
  all_goals first | (cases valid; done) | skip
  all_goals
    rename_i same
    cases valid
    exact same.symm

theorem byte_of_fields (b : UInt8) : b &&& 0x30 = 0 →
    (b &&& 0x0f) ||| (if isFin b then 0x80 else 0) ||| (if isRSV1 b then 0x40 else 0) = b := by
  revert b
  exact forall_byte (by decide +kernel)

theorem shortLength_fields : ∀ masked : Bool, ∀ n < 126,
    isMasked ((if masked then 0x80 else 0) ||| UInt8.ofNat n) = masked ∧
      ((if masked then 0x80 else 0) ||| UInt8.ofNat n) &&& 0x7f = UInt8.ofNat n ∧
        UInt8.ofNat n < 126 ∧ (UInt8.ofNat n).toNat = n := by
  decide +kernel

theorem shortLength_of_fields (b : UInt8) : b &&& 0x7f ≠ 126 → b &&& 0x7f ≠ 127 →
    (b &&& 0x7f).toNat < 126 ∧
      (if isMasked b then 0x80 else 0) ||| UInt8.ofNat (b &&& 0x7f).toNat = b := by
  revert b
  exact forall_byte (by decide +kernel)

theorem longLength_fields : ∀ masked : Bool,
    (isMasked ((if masked then 0x80 else 0) ||| 126) = masked ∧
        ((if masked then 0x80 else 0) ||| 126) &&& 0x7f = (126 : UInt8)) ∧
      isMasked ((if masked then 0x80 else 0) ||| 127) = masked ∧
        ((if masked then 0x80 else 0) ||| 127) &&& 0x7f = (127 : UInt8) := by
  decide

theorem longLength_of_fields (b : UInt8) :
    (b &&& 0x7f = 126 → (if isMasked b then 0x80 else 0) ||| 126 = b) ∧
      (b &&& 0x7f = 127 → (if isMasked b then 0x80 else 0) ||| 127 = b) := by
  revert b
  exact forall_byte (by decide +kernel)

structure Reads (masked : Bool) (length : Nat) (b1 : UInt8) (ext : List UInt8) : Prop where
  bit : isMasked b1 = masked
  extended : ext.length = extension (b1 &&& 0x7f)
  small : length < 126 → b1 &&& 0x7f < 126
  reads : ∀ b0 rest,
    payloadLength (b1 &&& 0x7f) (b0 :: b1 :: (ext ++ rest)) (b1 &&& 0x7f).toNat = .ok length

theorem encodeBE_top {n : Nat} (fits : n < 2 ^ 63) (rest : List UInt8) :
    (encodeBE 8 n ++ rest).getD 0 0 &&& 0x80 = 0 := by
  have top : (encodeBE 8 n ++ rest).getD 0 0 =
      UInt8.ofNat (n / 256 / 256 / 256 / 256 / 256 / 256 / 256) := rfl
  have small : ∀ k < 128, UInt8.ofNat k &&& 0x80 = 0 := by decide +kernel
  rw [top]
  apply small
  omega

theorem lengthBytes_reads (masked : Bool) {length : Nat} (fits : length < 2 ^ 63) :
    ∃ b1 ext, lengthBytes masked length = b1 :: ext ∧ Reads masked length b1 ext := by
  unfold lengthBytes
  by_cases short : length < 126
  · obtain ⟨bit, code, below, value⟩ := shortLength_fields masked length short
    have not126 : UInt8.ofNat length ≠ 126 := fun same => by rw [same] at below; exact absurd below (by decide)
    have not127 : UInt8.ofNat length ≠ 127 := fun same => by rw [same] at below; exact absurd below (by decide)
    rw [if_pos short]
    refine ⟨_, [], rfl, bit, ?_, ?_, ?_⟩
    · rw [code, extension, if_neg not126, if_neg not127]
      rfl
    · intro _
      rw [code]
      exact below
    · intro b0 rest
      rw [code, payloadLength, if_neg not126, if_neg not127, value]
  · rw [if_neg short]
    obtain ⟨⟨bit2, code2⟩, bit8, code8⟩ := longLength_fields masked
    by_cases middle : length ≤ 65535
    · rw [if_pos middle]
      refine ⟨_, _, rfl, bit2, ?_, ?_, ?_⟩
      · rw [code2, length_encodeBE]
        rfl
      · intro below
        exact absurd below short
      · intro b0 rest
        have bytes : ((b0 :: ((if masked then 0x80 else 0) ||| 126) :: (encodeBE 2 length ++ rest)).drop 2).take 2 =
            encodeBE 2 length := List.take_left' (length_encodeBE 2 length)
        rw [code2, payloadLength, if_pos rfl, bytes, decodeBE_encodeBE 2 (by omega)]
        exact if_neg short
    · rw [if_neg middle]
      refine ⟨_, _, rfl, bit8, ?_, ?_, ?_⟩
      · rw [code8, length_encodeBE]
        rfl
      · intro below
        exact absurd below short
      · intro b0 rest
        have bytes : ((b0 :: ((if masked then 0x80 else 0) ||| 127) :: (encodeBE 8 length ++ rest)).drop 2).take 8 =
            encodeBE 8 length := List.take_left' (length_encodeBE 8 length)
        have top : (b0 :: ((if masked then 0x80 else 0) ||| 127) :: (encodeBE 8 length ++ rest)).getD 2 0
            &&& 0x80 = 0 := encodeBE_top fits rest
        rw [code8, payloadLength, if_neg (by decide), if_pos rfl, if_neg (not_not_intro top), bytes,
          decodeBE_encodeBE 8 (by omega)]
        exact if_neg (by omega)

theorem lengthBytes_parsed {b1 : UInt8} {src : List UInt8} {length : Nat}
    (within : 2 + extension (b1 &&& 0x7f) ≤ src.length)
    (parsed : payloadLength (b1 &&& 0x7f) src (b1 &&& 0x7f).toNat = .ok length) :
    lengthBytes (isMasked b1) length = b1 :: (src.drop 2).take (extension (b1 &&& 0x7f)) := by
  unfold payloadLength at parsed
  unfold extension at within ⊢
  by_cases two : b1 &&& 0x7f = 126
  · rw [if_pos two] at parsed within ⊢
    have size : ((src.drop 2).take 2).length = 2 := by
      rw [List.length_take, List.length_drop]
      omega
    have bound := decodeBE_lt ((src.drop 2).take 2)
    have bytes := encodeBE_decodeBE ((src.drop 2).take 2)
    rw [size] at bound bytes
    dsimp only at parsed
    split at parsed
    · cases parsed
    · rename_i canonical
      cases parsed
      unfold lengthBytes
      rw [if_neg canonical, if_pos (by omega), bytes, (longLength_of_fields b1).1 two]
  · rw [if_neg two] at parsed within ⊢
    by_cases eight : b1 &&& 0x7f = 127
    · rw [if_pos eight] at parsed within ⊢
      have size : ((src.drop 2).take 8).length = 8 := by
        rw [List.length_take, List.length_drop]
        omega
      have bytes := encodeBE_decodeBE ((src.drop 2).take 8)
      rw [size] at bytes
      split at parsed
      · cases parsed
      · dsimp only at parsed
        split at parsed
        · cases parsed
        · rename_i canonical
          cases parsed
          unfold lengthBytes
          rw [if_neg (by omega), if_neg (by omega), bytes, (longLength_of_fields b1).2 eight]
    · rw [if_neg eight] at parsed ⊢
      obtain ⟨short, same⟩ := shortLength_of_fields b1 two eight
      cases parsed
      unfold lengthBytes
      rw [if_pos short, same]
      rfl

section
variable {m cfg} {f : Content} {key : Key} {b1 : UInt8} {ext : List UInt8}

/-- The header behind its first byte and the length bytes: the key, of a masked frame. -/
def keyBytesOf (f : Content) (key : Key) : List UInt8 := if f.masked then key.bytes else []

theorem headerSize_reads (key : Key) (reads : Reads f.masked f.payload.length b1 ext) :
    headerSize b1 = (firstByte f :: b1 :: (ext ++ keyBytesOf f key)).length := by
  unfold headerSize keyBytesOf
  rw [reads.bit, ← reads.extended, List.length_cons, List.length_cons, List.length_append]
  cases f.masked
  · simp only [Bool.false_eq_true, if_false, List.length_nil]
    omega
  · simp only [if_true, Key.bytes, List.length_cons, List.length_nil]
    omega

theorem vet_legal (legal : Legal m cfg f) (reads : Reads f.masked f.payload.length b1 ext) :
    vet cfg (firstByte f) b1 = .ok f.opcode := by
  obtain ⟨reserved, fin, rsv1, opcode⟩ := firstByte_fields f
  refine (vet_ok cfg).mpr ⟨reserved, ?_, opcode, reads.bit.trans legal.masked, ?_⟩
  · rw [rsv1]
    cases set : f.rsv1 with
    | false => rfl
    | true =>
      rw [legal.rsv1 set]
      rfl
  · rw [fin, rsv1]
    cases control : f.opcode.isControl with
    | false => rfl
    | true =>
      obtain ⟨last, clear, short⟩ := legal.control control
      have below := reads.small short
      rw [last, clear, decide_eq_false (UInt8.not_le.mpr below)]
      rfl

theorem keyOf_reads (key : Key) (reads : Reads f.masked f.payload.length b1 ext) :
    keyOf b1 (firstByte f :: b1 :: (ext ++ keyBytesOf f key)) = if f.masked then key else .zero := by
  unfold keyOf keyBytesOf
  rw [reads.bit]
  cases f.masked with
  | false => rfl
  | true =>
    have at_ : ∀ i, (firstByte f :: b1 :: (ext ++ key.bytes)).getD (2 + ext.length + i) 0 =
        key.bytes.getD i 0 := by
      intro i
      rw [show 2 + ext.length + i = (ext.length + i) + 1 + 1 by omega, List.getD_cons_succ,
        List.getD_cons_succ]
      simp only [List.getD_eq_getElem?_getD, List.getElem?_append_right (Nat.le_add_right _ _),
        Nat.add_sub_cancel_left]
    have first := at_ 0
    rw [Nat.add_zero] at first
    simp only [if_true, ← reads.extended, keyAt, first, at_]
    rfl

theorem append_reads (key : Key) (bytes : lengthBytes f.masked f.payload.length = b1 :: ext) :
    append m [] f key = firstByte f :: b1 :: (ext ++ keyBytesOf f key) ++
      xorBytes (if f.masked then key else .zero) 0 f.payload := by
  unfold append appendHeader keyBytesOf
  rw [bytes]
  cases f.masked with
  | false =>
    simp only [Bool.false_eq_true, if_false, xorBytes_zero, List.nil_append, List.cons_append]
  | true => simp only [if_true, unmask_eq, List.nil_append, List.cons_append]

theorem parseFrame_append_legal {key : Key} (legal : Legal m cfg f)
    (fits : (append m [] f key).length ≤ maxInt) (rest : List UInt8) :
    parseFrame m cfg (append m [] f key ++ rest) =
      .complete ⟨f, true⟩ (append m [] f key).length := by
  have payload : f.payload.length ≤ (append m [] f key).length := by
    unfold append
    rw [List.length_append]
    cases f.masked <;> simp [unmask_eq]
  obtain ⟨b1, ext, bytes, reads⟩ := lengthBytes_reads f.masked
    (Nat.lt_of_le_of_lt (Nat.le_trans payload fits) (by decide))
  have header := headerSize_reads key reads
  have vetted := vet_legal legal reads
  have keyed := keyOf_reads key reads
  have length := reads.reads (firstByte f) (keyBytesOf f key)
  rw [append_reads key bytes] at fits ⊢
  generalize (if f.masked then key else .zero) = k at fits keyed ⊢
  have total : (firstByte f :: b1 :: (ext ++ keyBytesOf f key) ++ xorBytes k 0 f.payload).length =
      headerSize b1 + f.payload.length := by
    rw [List.length_append, ← header, length_xorBytes]
  have size : measured cfg b1 (firstByte f :: b1 :: (ext ++ keyBytesOf f key)) = .ok f.payload.length := by
    unfold measured
    rw [length]
    refine if_neg (not_or.mpr ⟨Nat.not_lt.mpr legal.size, ?_⟩)
    omega
  have read : payloadOf b1 (firstByte f :: b1 :: (ext ++ keyBytesOf f key) ++ xorBytes k 0 f.payload) =
      f.payload := by
    unfold payloadOf
    rw [keyOf_append (Nat.le_of_eq header), keyed, header, List.drop_left, xorBytes_involutive]
  have whole : measured cfg b1
      (firstByte f :: b1 :: (ext ++ keyBytesOf f key ++ xorBytes k 0 f.payload)) = .ok f.payload.length :=
    (measured_append cfg (Nat.le_of_eq header) _).trans size
  obtain ⟨reserved, fin, rsv1, opcode⟩ := firstByte_fields f
  have verdict := parseFrame_whole m cfg vetted whole total rest
  rw [show payloadOf b1 (firstByte f :: b1 :: (ext ++ keyBytesOf f key ++ xorBytes k 0 f.payload)) =
    f.payload from read, legal.close, fin, rsv1, reads.bit, ← total] at verdict
  exact verdict

def wireKey (src : List UInt8) (f : Content) (size : Nat) : Key :=
  keyAt src (size - f.payload.length - 4)

theorem bytes_keyAt {src : List UInt8} {i : Nat} (within : i + 4 ≤ src.length) :
    (keyAt src i).bytes = (src.drop i).take 4 := by
  apply List.ext_getElem
  · rw [List.length_take, List.length_drop]
    simp only [Key.bytes, List.length_cons, List.length_nil]
    omega
  · intro j inside _
    have four : j < 4 := inside
    have there : i + j < src.length := by omega
    rw [List.getElem_take, List.getElem_drop]
    match j, four with
    | 0, _ => simp [Key.bytes, keyAt, List.getElem?_eq_getElem (show i < src.length from there)]
    | 1, _ => simp [Key.bytes, keyAt, List.getElem?_eq_getElem there]
    | 2, _ => simp [Key.bytes, keyAt, List.getElem?_eq_getElem there]
    | 3, _ => simp [Key.bytes, keyAt, List.getElem?_eq_getElem there]

theorem parseFrame_accepted {src : List UInt8} {g : Frame} {n : Nat}
    (parsed : parseFrame m cfg src = .complete g n) :
    ∃ b0 b1 tail opcode length, src = b0 :: b1 :: tail ∧ vet cfg b0 b1 = .ok opcode ∧
      measured cfg b1 src = .ok length ∧ n = headerSize b1 + length ∧ n ≤ src.length ∧
        checkClose m opcode (payloadOf b1 (src.take n)) = none ∧
          g = ⟨⟨isFin b0, isRSV1 b0, opcode, isMasked b1, payloadOf b1 (src.take n)⟩, true⟩ := by
  match src, parsed with
  | [], parsed => cases parsed
  | [_], parsed => cases parsed
  | b0 :: b1 :: tail, parsed =>
    cases vetted : vet cfg b0 b1 with
    | error e =>
      simp only [parseFrame, vetted] at parsed
      cases parsed
    | ok opcode =>
      rw [parseFrame_vetted m cfg vetted, parseBody_eq] at parsed
      by_cases header : (b0 :: b1 :: tail).length < headerSize b1
      · rw [if_pos header] at parsed
        cases parsed
      · rw [if_neg header] at parsed
        cases size : measured cfg b1 (b0 :: b1 :: tail) with
        | error e =>
          rw [size] at parsed
          cases parsed
        | ok length =>
          rw [size] at parsed
          dsimp only at parsed
          by_cases short : (b0 :: b1 :: tail).length < headerSize b1 + length
          · rw [if_pos short] at parsed
            cases parsed
          · rw [if_neg short] at parsed
            cases close : checkClose m opcode
                (payloadOf b1 ((b0 :: b1 :: tail).take (headerSize b1 + length))) with
            | some e =>
              rw [close] at parsed
              cases parsed
            | none =>
              rw [close] at parsed
              cases parsed
              exact ⟨b0, b1, tail, opcode, length, rfl, vetted, size, rfl, Nat.not_lt.mp short, close, rfl⟩

theorem measured_ok {b1 : UInt8} {src : List UInt8} {length : Nat}
    (size : measured cfg b1 src = .ok length) :
    payloadLength (b1 &&& 0x7f) src (b1 &&& 0x7f).toNat = .ok length ∧
      length ≤ parserMaxFramePayload cfg := by
  unfold measured at size
  cases read : payloadLength (b1 &&& 0x7f) src (b1 &&& 0x7f).toNat with
  | error e =>
    rw [read] at size
    cases size
  | ok found =>
    rw [read] at size
    simp only [limited] at size
    split at size
    · cases size
    · rename_i within
      cases size
      exact ⟨rfl, Nat.not_lt.mp (not_or.mp within).1⟩

theorem firstByte_vetted {b0 b1 : UInt8} {opcode : OpCode} (vetted : vet cfg b0 b1 = .ok opcode)
    (payload : List UInt8) :
    firstByte ⟨isFin b0, isRSV1 b0, opcode, isMasked b1, payload⟩ = b0 := by
  obtain ⟨reserved, _, valid, _⟩ := (vet_ok cfg).mp vetted
  unfold firstByte
  rw [ofByte_toByte valid]
  exact byte_of_fields b0 reserved

theorem legal_accepted {b0 b1 : UInt8} {opcode : OpCode} {src payload : List UInt8}
    (vetted : vet cfg b0 b1 = .ok opcode) (size : measured cfg b1 src = .ok payload.length)
    (close : checkClose m opcode payload = none) :
    Legal m cfg ⟨isFin b0, isRSV1 b0, opcode, isMasked b1, payload⟩ := by
  obtain ⟨_, rsv1, _, masked, control⟩ := (vet_ok cfg).mp vetted
  obtain ⟨read, within⟩ := measured_ok size
  refine ⟨fun set => ?_, masked, fun isControl => ?_, within, close⟩
  · simp only [show isRSV1 b0 = true from set, Bool.true_and, Bool.not_eq_false'] at rsv1
    exact rsv1
  · simp only [show opcode.isControl = true from isControl, Bool.true_and, Bool.or_eq_false_iff,
      Bool.not_eq_false', decide_eq_false_iff_not, UInt8.not_le] at control
    obtain ⟨⟨fin, below⟩, clear⟩ := control
    refine ⟨fin, clear, ?_⟩
    have not126 : b1 &&& 0x7f ≠ 126 := fun same => by rw [same] at below; exact absurd below (by decide)
    have not127 : b1 &&& 0x7f ≠ 127 := fun same => by rw [same] at below; exact absurd below (by decide)
    rw [payloadLength, if_neg not126, if_neg not127] at read
    have same := Except.ok.inj read
    rw [← same]
    exact (shortLength_of_fields b1 not126 not127).1

theorem header_parts {b0 b1 : UInt8} {tail : List UInt8}
    (whole : headerSize b1 ≤ (b0 :: b1 :: tail).length) :
    b0 :: b1 :: (tail.take (extension (b1 &&& 0x7f)) ++
        if isMasked b1 then (keyAt (b0 :: b1 :: tail) (headerSize b1 - 4)).bytes else []) =
      (b0 :: b1 :: tail).take (headerSize b1) := by
  unfold headerSize at whole ⊢
  cases masked : isMasked b1 with
  | false =>
    simp only [Bool.false_eq_true, if_false, List.append_nil, Nat.add_zero, Nat.add_comm 2]
    rfl
  | true =>
    rw [masked, if_pos rfl] at whole
    rw [if_pos rfl, if_pos rfl, Nat.add_sub_cancel, bytes_keyAt whole,
      show 2 + extension (b1 &&& 0x7f) + 4 = (extension (b1 &&& 0x7f) + 4) + 1 + 1 by omega,
      List.take_succ_cons, List.take_succ_cons, List.take_add, Nat.add_comm 2]
    rfl

theorem append_accepted {src : List UInt8} {g : Frame} {n : Nat}
    (parsed : parseFrame m cfg src = .complete g n) :
    Legal m cfg g.toContent ∧ append m [] g.toContent (wireKey src g.toContent n) = src.take n := by
  obtain ⟨b0, b1, tail, opcode, length, rfl, vetted, size, rfl, within, close, rfl⟩ :=
    parseFrame_accepted parsed
  have whole : headerSize b1 ≤ (b0 :: b1 :: tail).length := Nat.le_trans (Nat.le_add_right _ _) within
  have key : keyOf b1 ((b0 :: b1 :: tail).take (headerSize b1 + length)) = keyOf b1 (b0 :: b1 :: tail) := by
    have inside : headerSize b1 ≤ ((b0 :: b1 :: tail).take (headerSize b1 + length)).length := by
      rw [List.length_take]
      omega
    rw [← keyOf_append inside ((b0 :: b1 :: tail).drop (headerSize b1 + length)), List.take_append_drop]
  have paid : (payloadOf b1 ((b0 :: b1 :: tail).take (headerSize b1 + length))).length = length := by
    unfold payloadOf
    rw [length_xorBytes, List.length_drop, List.length_take]
    omega
  have payload : xorBytes (keyOf b1 (b0 :: b1 :: tail)) 0
      (payloadOf b1 ((b0 :: b1 :: tail).take (headerSize b1 + length))) =
        ((b0 :: b1 :: tail).drop (headerSize b1)).take length := by
    unfold payloadOf
    rw [key, xorBytes_involutive, List.drop_take, Nat.add_sub_cancel_left]
  generalize payloadOf b1 ((b0 :: b1 :: tail).take (headerSize b1 + length)) = read at *
  have bytes : lengthBytes (isMasked b1) read.length = _ :=
    lengthBytes_parsed (Nat.le_trans (length_le_headerSize b1) whole) (by rw [paid]; exact (measured_ok size).1)
  refine ⟨legal_accepted vetted (by rw [paid]; exact size) close, ?_⟩
  have wire : wireKey (b0 :: b1 :: tail) ⟨isFin b0, isRSV1 b0, opcode, isMasked b1, read⟩
      (headerSize b1 + length) = keyAt (b0 :: b1 :: tail) (headerSize b1 - 4) := by
    unfold wireKey
    rw [paid, Nat.add_sub_cancel]
  have keyed : (if isMasked b1 = true then keyAt (b0 :: b1 :: tail) (headerSize b1 - 4) else .zero) =
      keyOf b1 (b0 :: b1 :: tail) := by
    unfold keyOf headerSize
    split
    · rw [Nat.add_sub_cancel]
    · rfl
  rw [wire, append_reads _ bytes, firstByte_vetted vetted]
  unfold keyBytesOf
  dsimp only
  rw [keyed, payload, List.take_add]
  congr 1
  exact header_parts whole

end

theorem codec_bijective : (∀ (f : Content) (key : Key) (rest : List UInt8),
      Legal m cfg f → (append m [] f key).length ≤ maxInt →
        parseFrame m cfg (append m [] f key ++ rest) =
          .complete ⟨f, true⟩ (append m [] f key).length) ∧
      ∀ (src : List UInt8) (g : Frame) (n : Nat), parseFrame m cfg src = .complete g n →
        Legal m cfg g.toContent ∧
          append m [] g.toContent (wireKey src g.toContent n) = src.take n := by
  refine ⟨fun f key rest legal fits => ?_, fun src g n parsed => ?_⟩
  · exact parseFrame_append_legal legal fits rest
  · exact append_accepted parsed

def anyText : Platform := ⟨false, fun _ => true⟩

def server : ParserConfig := { expectMask := true }

def greeting : Content := ⟨true, false, .text, true, [0x48, 0x69]⟩

theorem codec_bijective_greeting :
    append anyText [] greeting ⟨1, 2, 3, 4⟩ = [0x81, 0x82, 1, 2, 3, 4, 0x49, 0x6b] ∧
      parseFrame anyText server ([0x81, 0x82, 1, 2, 3, 4, 0x49, 0x6b] ++ [0x88]) =
        .complete ⟨greeting, true⟩ 8 ∧
      append anyText [] greeting (wireKey [0x81, 0x82, 1, 2, 3, 4, 0x49, 0x6b, 0x88] greeting 8) =
        [0x81, 0x82, 1, 2, 3, 4, 0x49, 0x6b] := by
  have encoded : append anyText [] greeting ⟨1, 2, 3, 4⟩ = [0x81, 0x82, 1, 2, 3, 4, 0x49, 0x6b] := by
    decide
  have legal : Legal anyText server greeting :=
    ⟨nofun, rfl, nofun, by decide, rfl⟩
  have parsed := (codec_bijective anyText server).1 greeting ⟨1, 2, 3, 4⟩ [0x88] legal (by decide)
  rw [encoded] at parsed
  exact ⟨encoded, parsed, ((codec_bijective anyText server).2 _ _ _ parsed).2⟩

end UwsCodec
