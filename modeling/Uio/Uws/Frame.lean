import Uio.Uws.Mask

/-!
The WebSocket frame codec: the one-shot `parseFrame`, the incremental parser with its
own header states, and the encoder. Errors keep their reason; `Err.kind` is the class
a caller tests for. The incremental payload's buffer comes from a pool, of which only
`payloadBuf != nil` shows, in the frame's `borrowed`. `validUTF8` is the library's.
-/
namespace UwsFrame
open ByteOrder UwsMask

inductive OpCode where
  | continuation
  | text
  | binary
  | close
  | ping
  | pong
  deriving DecidableEq, Repr

def OpCode.toByte : OpCode → UInt8
  | .continuation => 0x0
  | .text => 0x1
  | .binary => 0x2
  | .close => 0x8
  | .ping => 0x9
  | .pong => 0xa

def OpCode.ofByte (b : UInt8) : Option OpCode :=
  if b = 0x0 then some .continuation
  else if b = 0x1 then some .text
  else if b = 0x2 then some .binary
  else if b = 0x8 then some .close
  else if b = 0x9 then some .ping
  else if b = 0xa then some .pong
  else none

def OpCode.isControl (op : OpCode) : Bool := 0x8 ≤ op.toByte

inductive Fault where
  | reservedBits
  | unexpectedRSV1
  | invalidOpcode (op : UInt8)
  | invalidMaskBit
  | invalidControl
  | rsv1OnControl
  | nonCanonicalLength
  | reservedLengthBit
  | closeOddLength
  | closeCode (code : Nat)
  deriving DecidableEq, Repr

inductive Err where
  | protocol (fault : Fault)
  | messageTooBig
  | invalidUTF8
  | sink (n : Nat)
  deriving DecidableEq, Repr

inductive ErrKind where
  | protocol
  | messageTooBig
  | invalidUTF8
  | sink (n : Nat)
  deriving DecidableEq, Repr

def Err.kind : Err → ErrKind
  | .protocol _ => .protocol
  | .messageTooBig => .messageTooBig
  | .invalidUTF8 => .invalidUTF8
  | .sink n => .sink n

structure Content where
  fin : Bool
  rsv1 : Bool
  opcode : OpCode
  masked : Bool
  payload : List UInt8
  deriving DecidableEq, Repr

structure Frame extends Content where
  borrowed : Bool
  deriving DecidableEq, Repr

structure ParserConfig where
  expectMask : Bool := false
  allowRSV1 : Bool := false
  maxFramePayload : Nat := 0

structure Platform where
  useAVX2 : Bool
  validUTF8 : List UInt8 → Bool

def maxInt : Nat := 2 ^ 63 - 1

def parserMaxFramePayload (cfg : ParserConfig) : Nat :=
  if cfg.maxFramePayload = 0 then maxInt else cfg.maxFramePayload

def validCloseCode (code : Nat) : Bool :=
  code ∈ [1000, 1001, 1002, 1003, 1007, 1008, 1009, 1010, 1011, 1012, 1013, 1014]
    || (3000 ≤ code && code ≤ 4999)

variable (m : Platform) (cfg : ParserConfig)

def validateClosePayload (payload : List UInt8) : Option Err :=
  if payload.length = 0 then none
  else if payload.length = 1 then some (.protocol .closeOddLength)
  else if validCloseCode (decodeBE (payload.take 2)) = false then
    some (.protocol (.closeCode (decodeBE (payload.take 2))))
  else if m.validUTF8 (payload.drop 2) = false then some .invalidUTF8
  else none

inductive Parsed where
  | incomplete
  | complete (f : Frame) (size : Nat)
  | failed (e : Err)

def extension (lengthCode : UInt8) : Nat :=
  if lengthCode = 126 then 2 else if lengthCode = 127 then 8 else 0

/-- The payload length once the header is there: that of the code itself is `short`. -/
def payloadLength (lengthCode : UInt8) (header : List UInt8) (short : Nat) : Except Err Nat :=
  if lengthCode = 126 then
    let n := decodeBE ((header.drop 2).take 2)
    if n < 126 then .error (.protocol .nonCanonicalLength) else .ok n
  else if lengthCode = 127 then
    if header.getD 2 0 &&& 0x80 ≠ 0 then .error (.protocol .reservedLengthBit)
    else
      let n := decodeBE ((header.drop 2).take 8)
      if n < 65536 then .error (.protocol .nonCanonicalLength) else .ok n
  else .ok short

def limited (headerSize : Nat) : Except Err Nat → Except Err Nat
  | .error e => .error e
  | .ok n =>
    if parserMaxFramePayload cfg < n ∨ maxInt - headerSize < n then .error .messageTooBig
    else .ok n

def keyAt (bytes : List UInt8) (i : Nat) : Key :=
  ⟨bytes.getD i 0, bytes.getD (i + 1) 0, bytes.getD (i + 2) 0, bytes.getD (i + 3) 0⟩

def isFin (b0 : UInt8) : Bool := b0 &&& 0x80 != 0

def isRSV1 (b0 : UInt8) : Bool := b0 &&& 0x40 != 0

def isMasked (b1 : UInt8) : Bool := b1 &&& 0x80 != 0

def headerSize (b1 : UInt8) : Nat := 2 + extension (b1 &&& 0x7f) + if isMasked b1 then 4 else 0

def vet (b0 b1 : UInt8) : Except Err OpCode :=
  if b0 &&& 0x30 ≠ 0 then .error (.protocol .reservedBits)
  else if isRSV1 b0 && !cfg.allowRSV1 then .error (.protocol .unexpectedRSV1)
  else
    match OpCode.ofByte (b0 &&& 0x0f) with
    | none => .error (.protocol (.invalidOpcode (b0 &&& 0x0f)))
    | some opcode =>
      if isMasked b1 ≠ cfg.expectMask then .error (.protocol .invalidMaskBit)
      else if opcode.isControl && (!isFin b0 || 126 ≤ b1 &&& 0x7f || isRSV1 b0) then
        .error (.protocol .invalidControl)
      else .ok opcode

def checkClose (opcode : OpCode) (payload : List UInt8) : Option Err :=
  if opcode = .close then validateClosePayload m payload else none

def parseBody (b0 b1 : UInt8) (opcode : OpCode) (src : List UInt8) : Parsed :=
  if src.length < headerSize b1 then .incomplete
  else
    match limited cfg (headerSize b1) (payloadLength (b1 &&& 0x7f) src (b1 &&& 0x7f).toNat) with
    | .error e => .failed e
    | .ok payloadLen =>
      if src.length < headerSize b1 + payloadLen then .incomplete
      else
        let raw := (src.drop (headerSize b1)).take payloadLen
        let payload :=
          if isMasked b1 then unmask m.useAVX2 (keyAt src (headerSize b1 - 4)) 0 raw else raw
        match checkClose m opcode payload with
        | some e => .failed e
        | none =>
          .complete ⟨⟨isFin b0, isRSV1 b0, opcode, isMasked b1, payload⟩, true⟩
            (headerSize b1 + payloadLen)

def parseFrame (src : List UInt8) : Parsed :=
  match src with
  | [] | [_] => .incomplete
  | b0 :: b1 :: _ =>
    match vet cfg b0 b1 with
    | .error e => .failed e
    | .ok opcode => parseBody m cfg b0 b1 opcode src

/-- `header` holds the header bytes so far; a nil payload is `none`. A parser always
    waits for two bytes at least. -/
structure Parser where
  header : List UInt8 := []
  headerNeed : Nat := 2
  fin : Bool := false
  rsv1 : Bool := false
  opcode : OpCode := .continuation
  masked : Bool := false
  payloadLen : Nat := 0
  payloadRead : Nat := 0
  maskKey : Key := .zero
  maskOffset : Nat := 0
  payload : Option (List UInt8) := none
  payloadBuf : Bool := false
  need_two : 2 ≤ headerNeed := by decide

def newParser : Parser := {}

def prepareHeader (p : Parser) : Except Err Parser :=
  let b0 := p.header.getD 0 0
  let b1 := p.header.getD 1 0
  let lengthCode := b1 &&& 0x7f
  if b0 &&& 0x30 ≠ 0 then .error (.protocol .reservedBits)
  else if isRSV1 b0 && !cfg.allowRSV1 then .error (.protocol .unexpectedRSV1)
  else
    match OpCode.ofByte (b0 &&& 0x0f) with
    | none => .error (.protocol (.invalidOpcode (b0 &&& 0x0f)))
    | some opcode =>
      if isMasked b1 ≠ cfg.expectMask then .error (.protocol .invalidMaskBit)
      else if opcode.isControl && isRSV1 b0 then .error (.protocol .rsv1OnControl)
      else if opcode.isControl && (!isFin b0 || 126 ≤ lengthCode) then
        .error (.protocol .invalidControl)
      else
        .ok { p with
          fin := isFin b0, rsv1 := isRSV1 b0, opcode := opcode, masked := isMasked b1
          payloadLen :=
            if lengthCode = 126 ∨ lengthCode = 127 then p.payloadLen else lengthCode.toNat
          headerNeed := headerSize b1
          need_two := Nat.le_trans (Nat.le_add_right 2 _) (Nat.le_add_right _ _) }

def finishHeader (p : Parser) : Except Err Parser :=
  let lengthCode := p.header.getD 1 0 &&& 0x7f
  match limited cfg p.headerNeed (payloadLength lengthCode p.header p.payloadLen) with
  | .error e => .error e
  | .ok payloadLen =>
    .ok { p with
      payloadLen := payloadLen
      maskKey := if p.masked then keyAt p.header (2 + extension lengthCode) else p.maskKey
      payload := some []
      payloadBuf := if 0 < payloadLen then true else p.payloadBuf
      payloadRead := 0
      maskOffset := 0 }

/-- One round of the feeding loop: it goes on, a frame is whole, or it fails; each with
    the input left. -/
inductive Round where
  | again (p : Parser) (rest : List UInt8)
  | frame (f : Frame) (rest : List UInt8)
  | fail (e : Err) (rest : List UInt8)

def finishFrame (p : Parser) (rest : List UInt8) : Round :=
  let f : Frame := ⟨⟨p.fin, p.rsv1, p.opcode, p.masked, p.payload.getD []⟩, p.payloadBuf⟩
  match checkClose m p.opcode f.payload with
  | some e => .fail e rest
  | none => .frame f rest

def takePayload (p : Parser) (rest : List UInt8) : Round :=
  let remaining := p.payloadLen - p.payloadRead
  if 0 < remaining then
    let n := min rest.length remaining
    let p := { p with
      payload := some (p.payload.getD [] ++ unmask m.useAVX2 p.maskKey p.maskOffset (rest.take n))
      maskOffset := (p.maskOffset + n) % 4
      payloadRead := p.payloadRead + n }
    if p.payloadRead < p.payloadLen then .again p (rest.drop n) else finishFrame m p (rest.drop n)
  else finishFrame m p rest

def readPayload (p : Parser) (rest : List UInt8) : Round :=
  if p.payload = none ∧ p.payloadLen = 0 then
    match finishHeader cfg p with
    | .error e => .fail e rest
    | .ok p => takePayload m p rest
  else takePayload m p rest

def endHeader (p : Parser) (rest : List UInt8) : Round :=
  if p.payload = none ∧ 0 < p.payloadLen then
    match finishHeader cfg p with
    | .error e => .fail e rest
    | .ok p => readPayload m cfg p rest
  else readPayload m cfg p rest

def readHeader (p : Parser) (src : List UInt8) : Round :=
  let n := min (p.headerNeed - p.header.length) src.length
  let p := { p with header := p.header ++ src.take n }
  let rest := src.drop n
  if p.header.length < p.headerNeed then .again p rest
  else if p.headerNeed = 2 then
    match prepareHeader cfg p with
    | .error e => .fail e rest
    | .ok p => if p.header.length < p.headerNeed then .again p rest else endHeader m cfg p rest
  else endHeader m cfg p rest

def advance (p : Parser) (src : List UInt8) : Round :=
  if p.header.length < p.headerNeed then readHeader m cfg p src else readPayload m cfg p src

theorem parseBody_sized {b0 b1 : UInt8} {opcode : OpCode} {src : List UInt8} {f : Frame} {n : Nat}
    (parsed : parseBody m cfg b0 b1 opcode src = .complete f n) :
    headerSize b1 ≤ n ∧ n ≤ src.length := by
  unfold parseBody at parsed
  split at parsed
  · cases parsed
  · split at parsed
    · cases parsed
    · split at parsed
      · cases parsed
      · rename_i long
        dsimp only at parsed
        split at parsed <;> cases parsed
        exact ⟨Nat.le_add_right _ _, Nat.not_lt.mp long⟩

theorem parseFrame_sized {src : List UInt8} {f : Frame} {n : Nat}
    (parsed : parseFrame m cfg src = .complete f n) : 0 < n ∧ n ≤ src.length := by
  unfold parseFrame at parsed
  split at parsed
  · cases parsed
  · cases parsed
  · split at parsed
    · cases parsed
    · obtain ⟨header, within⟩ := parseBody_sized m cfg parsed
      refine ⟨Nat.lt_of_lt_of_le ?_ header, within⟩
      unfold headerSize
      omega

def Round.rest : Round → List UInt8
  | .again _ rest | .frame _ rest | .fail _ rest => rest

def Round.goesOn : Round → Bool
  | .again _ _ => true
  | _ => false

theorem finishFrame_rest (p : Parser) (rest : List UInt8) :
    (finishFrame m p rest).rest = rest ∧ (finishFrame m p rest).goesOn = false := by
  simp only [finishFrame]
  split <;> exact ⟨rfl, rfl⟩

theorem takePayload_rest (p : Parser) (rest : List UInt8) :
    (takePayload m p rest).rest.length ≤ rest.length ∧
      ((takePayload m p rest).goesOn = true → rest ≠ [] →
        (takePayload m p rest).rest.length < rest.length) := by
  simp only [takePayload]
  split
  · rename_i more
    split
    · refine ⟨?_, fun _ some => ?_⟩
      · simp [Round.rest]
      · have positive := List.length_pos_iff.mpr some
        simp only [Round.rest, List.length_drop]
        omega
    · rw [(finishFrame_rest m _ _).1, (finishFrame_rest m _ _).2]
      exact ⟨by simp, nofun⟩
  · rw [(finishFrame_rest m _ _).1, (finishFrame_rest m _ _).2]
    exact ⟨le_rfl, nofun⟩

theorem readPayload_rest (p : Parser) (rest : List UInt8) :
    (readPayload m cfg p rest).rest.length ≤ rest.length ∧
      ((readPayload m cfg p rest).goesOn = true → rest ≠ [] →
        (readPayload m cfg p rest).rest.length < rest.length) := by
  unfold readPayload
  split
  · split
    · exact ⟨le_rfl, nofun⟩
    · exact takePayload_rest m _ rest
  · exact takePayload_rest m p rest

theorem endHeader_rest (p : Parser) (rest : List UInt8) :
    (endHeader m cfg p rest).rest.length ≤ rest.length := by
  unfold endHeader
  split
  · split
    · exact le_rfl
    · exact (readPayload_rest m cfg _ rest).1
  · exact (readPayload_rest m cfg p rest).1

theorem readHeader_rest {p : Parser} (short : p.header.length < p.headerNeed) {src : List UInt8}
    (some : src ≠ []) : (readHeader m cfg p src).rest.length < src.length := by
  have positive := List.length_pos_iff.mpr some
  have shrinks : (src.drop (min (p.headerNeed - p.header.length) src.length)).length < src.length := by
    rw [List.length_drop]
    omega
  simp only [readHeader]
  split
  · exact shrinks
  · split
    · split
      · exact shrinks
      · split
        · exact shrinks
        · exact Nat.lt_of_le_of_lt (endHeader_rest m cfg _ _) shrinks
    · exact Nat.lt_of_le_of_lt (endHeader_rest m cfg _ _) shrinks

theorem advance_rest (p : Parser) {src : List UInt8} (some : src ≠ []) :
    (advance m cfg p src).rest.length ≤ src.length ∧
      ((advance m cfg p src).goesOn = true ∨ p.header = [] →
        (advance m cfg p src).rest.length < src.length) := by
  unfold advance
  split
  · rename_i short
    have shrinks := readHeader_rest m cfg short some
    exact ⟨Nat.le_of_lt shrinks, fun _ => shrinks⟩
  · rename_i full
    obtain ⟨within, goes⟩ := readPayload_rest m cfg p src
    refine ⟨within, ?_⟩
    rintro (on | empty)
    · exact goes on some
    · rw [empty] at full
      exact absurd (Nat.lt_of_lt_of_le (by decide) p.need_two) full

theorem advance_again {p p' : Parser} {src rest : List UInt8} (some : src ≠ [])
    (round : advance m cfg p src = .again p' rest) : rest.length < src.length := by
  have taken := (advance_rest m cfg p some).2
  rw [round] at taken
  exact taken (.inl rfl)

theorem advance_frame {p : Parser} {f : Frame} {src rest : List UInt8} (some : src ≠ [])
    (round : advance m cfg p src = .frame f rest) :
    rest.length ≤ src.length ∧ (p.header = [] → rest.length < src.length) := by
  have taken := advance_rest m cfg p some
  rw [round] at taken
  exact ⟨taken.1, fun boundary => taken.2 (.inr boundary)⟩

/-- What a feed leaves: the parser, the frames delivered so far, the input not
    consumed and the error. A parser that failed is not fed again, and its state is
    not followed further. -/
structure FeedResult where
  parser : Parser
  emitted : List Frame
  rest : List UInt8
  err : Option Err

/-- The receiver of the frames, which may refuse the last of those it got. -/
abbrev Sink := List Content → Option Nat

def accepts (sink : Sink) (emitted : List Frame) : Option Err :=
  (sink (emitted.map Frame.toContent)).map .sink

def glance (p : Parser) (src : List UInt8) : Parsed :=
  if p.header = [] then parseFrame m cfg src else .incomplete

theorem glance_settled {p : Parser} {src : List UInt8} {verdict : Parsed}
    (parsed : glance m cfg p src = verdict) (settled : verdict ≠ .incomplete) :
    p.header = [] ∧ parseFrame m cfg src = verdict := by
  unfold glance at parsed
  split at parsed
  · rename_i boundary
    exact ⟨boundary, parsed⟩
  · exact absurd parsed.symm settled

def feedTo (sink : Sink) (finish : Bool) (p : Parser) (seen : List Frame) (src : List UInt8) :
    FeedResult :=
  if empty : src = [] then ⟨p, seen, [], none⟩
  else if p.header = [] ∧ finish = true then ⟨p, seen, src, none⟩
  else
    match parsed : glance m cfg p src with
    | .failed e => ⟨p, seen, src, some e⟩
    | .complete f size =>
      match accepts sink (seen ++ [f]) with
      | some e => ⟨p, seen ++ [f], src.drop size, some e⟩
      | none => feedTo sink finish p (seen ++ [f]) (src.drop size)
    | .incomplete =>
      match round : advance m cfg p src with
      | .again p rest => feedTo sink finish p seen rest
      | .fail e rest => ⟨p, seen, rest, some e⟩
      | .frame f rest =>
        match accepts sink (seen ++ [f]) with
        | some e => ⟨{}, seen ++ [f], rest, some e⟩
        | none => feedTo sink finish {} (seen ++ [f]) rest
termination_by 2 * src.length + if p.header = [] then 0 else 1
decreasing_by
  · obtain ⟨boundary, whole⟩ := glance_settled m cfg parsed nofun
    have sized := parseFrame_sized m cfg whole
    simp only [boundary, if_true, List.length_drop]
    omega
  · have taken := advance_again m cfg empty round
    split <;> split <;> omega
  · have taken := advance_frame m cfg empty round
    simp only [if_true]
    split
    · rename_i boundary
      have shrinks := taken.2 boundary
      omega
    · omega

def firstByte (f : Content) : UInt8 :=
  f.opcode.toByte ||| (if f.fin then 0x80 else 0) ||| if f.rsv1 then 0x40 else 0

/-- The mask bit and the payload length, in the shortest of the three forms. -/
def lengthBytes (masked : Bool) (length : Nat) : List UInt8 :=
  let maskBit : UInt8 := if masked then 0x80 else 0
  if length < 126 then [maskBit ||| UInt8.ofNat length]
  else if length ≤ 65535 then (maskBit ||| 126) :: encodeBE 2 length
  else (maskBit ||| 127) :: encodeBE 8 length

def appendHeader (dst : List UInt8) (f : Content) (key : Key) : List UInt8 :=
  dst ++ firstByte f :: lengthBytes f.masked f.payload.length ++ if f.masked then key.bytes else []

def append (dst : List UInt8) (f : Content) (key : Key) : List UInt8 :=
  appendHeader dst f key ++ if f.masked then unmask m.useAVX2 key 0 f.payload else f.payload

end UwsFrame
