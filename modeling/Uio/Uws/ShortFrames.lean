import Uio.Uws.Limits
import Uio.Uws.Segments
import Uio.Uws.ShortUnmask

/-!
The read round's fused path for whole, masked, unfragmented messages of seven-bit or
16-bit length, next to the path every frame can take: `parseFrame`, then `acceptFrame`.
Both unmask in place, so the input buffer is part of what a turn leaves behind. What a
message handler may change is `Shared`; it sees the whole connection.
-/
namespace UwsShortFrames
open ByteOrder UwsMask UwsFrame UwsAssembly UwsSegments UwsLimits UwsShortUnmask

/-- `validUTF8` is the library's: all that is used of it is that ASCII is valid. -/
structure Text extends Platform where
  ascii_valid : ∀ bytes, isAscii bytes = true → validUTF8 bytes = true

structure Shared (W : Type) where
  closed : Bool
  closing : Bool
  readPaused : Nat
  world : W

/-- `parsed` is the heartbeat's count of frames, when there is a heartbeat. -/
structure Conn (W : Type) extends Shared W where
  config : Settled
  maxFramesPerDataEvent : Nat
  assembler : Option Assembler
  batching : Bool
  readFrames : Nat
  parsed : Option Nat

/-- The receivers of a connection's frames. Control frames and compressed messages take
only the general path. -/
structure Process (W ε : Type) where
  onMessage : Option (Conn W → MessageType → List UInt8 → Shared W)
  acceptControl : Conn W → Frame → Shared W × Option ε
  inflate : Conn W → UwsAssembly.Message → Shared W × Option ε
  errClosed : ε

variable {W ε : Type}

def Conn.beginWriteBatch (c : Conn W) : Conn W := { c with batching := true }

/-- One frame's turn: what it left, the message it delivered, the bytes it took and
whether it took the frame at all. -/
structure Effect (W ε : Type) where
  conn : Conn W
  buffer : List UInt8
  delivered : Option (MessageType × List UInt8)
  consumed : Nat
  ok : Bool
  err : Option (AcceptError ε)

def declined (c : Conn W) (src : List UInt8) : Effect W ε := ⟨c, src, none, 0, false, none⟩

def shortLength (config : Config) (src : List UInt8) (limit : Int) : Option (Nat × Nat) :=
  let n := (src.getD 1 0 &&& 0x7f).toNat
  if n = 126 then
    if limit < 0 ∨ src.length < 8 then none
    else
      let n := decodeBE ((src.drop 2).take 2)
      if n < 126 ∨ (config.parser.maxFramePayload ≠ 0 ∧ config.parser.maxFramePayload < n) ∨
          (config.assembler.maxMessage ≠ 0 ∧ config.assembler.maxMessage < n) then none
      else some (n, 4)
  else if limit < n then none
  else some (n, 2)

def shortPayload (m : Text) (src : List UInt8) (n head : Nat) : List UInt8 × Bool :=
  let raw := (src.drop (head + 4)).take n
  if n < vectorUnmaskThreshold then unmaskShort raw (decodeLE ((src.drop head).take 4))
  else if src.getD 0 0 = 0x82 then (unmask m.useAVX2 (keyAt src head) 0 raw, false)
  else unmaskASCII m.useAVX2 (keyAt src head) raw

def shortOpcode (b0 : UInt8) : OpCode := if b0 &&& 0x0f = 0x1 then .text else .binary

def deliverShort (m : Text) (P : Process W ε) (c : Conn W) (buffer : List UInt8) (opcode : OpCode)
    (payload : List UInt8) (ascii : Bool) (size : Nat) : Effect W ε :=
  if c.closed then ⟨c, buffer, none, size, true, some .closed⟩
  else if opcode = .text ∧ ascii = false ∧ c.config.assembler.validateUTF8 = true ∧
      m.validUTF8 payload = false then ⟨c, buffer, none, size, true, some .invalidUTF8⟩
  else if c.closing then ⟨c, buffer, none, size, true, none⟩
  else
    match P.onMessage with
    | none => ⟨c, buffer, none, size, true, none⟩
    | some onMessage =>
      ⟨{ c with toShared := onMessage c (messageType opcode) payload }, buffer,
        some (messageType opcode, payload), size, true, none⟩

def consumeShortFrame (m : Text) (P : Process W ε) (c : Conn W) (src : List UInt8) (limit : Int) :
    Effect W ε :=
  if src.length < 6 ∨ c.assembler.isSome then declined c src
  else if 1 < src.getD 0 0 - 0x81 ∨ src.getD 1 0 &&& 0x80 = 0 then declined c src
  else
    match shortLength c.config.toConfig src limit with
    | none => declined c src
    | some (n, head) =>
      if src.length < head + 4 + n then declined c src
      else
        let size := head + 4 + n
        let (payload, ascii) := shortPayload m src n head
        let buffer := src.take (head + 4) ++ payload ++ src.drop size
        let c := if size < src.length then c.beginWriteBatch else c
        deliverShort m P c buffer (shortOpcode (src.getD 0 0)) payload ascii size

inductive Stop (ε : Type) where
  | accept (e : AcceptError ε)
  | readPaused
  | readBudget

def minFramesPerDataEvent : Nat := 1024

def Conn.countFrame (c : Conn W) : Conn W × Option (Stop ε) :=
  let c := { c with readFrames := c.readFrames + 1, parsed := c.parsed.map (· + 1) }
  let frameBudget :=
    if 0 < c.maxFramesPerDataEvent then c.maxFramesPerDataEvent else minFramesPerDataEvent
  (c,
    if c.readPaused ≠ 0 then some .readPaused
    else if frameBudget ≤ c.readFrames then some .readBudget
    else none)

/-- What a turn of the round's loop leaves, with the frame charged to its budget. -/
structure Turn (W ε : Type) where
  conn : Conn W
  buffer : List UInt8
  delivered : Option (MessageType × List UInt8)
  consumed : Nat
  err : Option (Stop ε)

def Effect.charge (e : Effect W ε) : Turn W ε :=
  match e.err with
  | some err => ⟨e.conn, e.buffer, e.delivered, e.consumed, some (.accept err)⟩
  | none =>
    let (conn, stop) := e.conn.countFrame
    ⟨conn, e.buffer, e.delivered, e.consumed, stop⟩

section General
variable (P : Process W ε)

/-- `notifyMessage`: the error, what it leaves and the message it delivers. -/
def notifyMessage (c : Conn W) (type : MessageType) (payload : List UInt8) :
    Option ε × Shared W × Option (MessageType × List UInt8) :=
  if c.closed then (some P.errClosed, c.toShared, none)
  else if c.closing then (none, c.toShared, none)
  else
    match P.onMessage with
    | none => (none, c.toShared, none)
    | some onMessage => (none, onMessage c type payload, some (type, payload))

def handlers (c : Conn W) : Handlers ε where
  acceptControl f := (P.acceptControl c f).2
  notifyMessage type payload := (notifyMessage P c type payload).1
  inflate msg := (P.inflate c msg).2

def shared (c : Conn W) : Option Event → Shared W × Option (MessageType × List UInt8)
  | none => (c.toShared, none)
  | some (.control f) => ((P.acceptControl c f).1, none)
  | some (.message msg) =>
    if msg.compressed then ((P.inflate c msg).1, none)
    else (notifyMessage P c (messageType msg.opcode) msg.payload).2

def accept (m : Text) (c : Conn W) (f : Frame) (buffer : List UInt8) (size : Nat) : Effect W ε :=
  let (assembler, out) :=
    acceptFrame m.toPlatform c.config.assembler c.closed (handlers P c) c.assembler f
  let (left, delivered) := shared P c out.event
  ⟨{ c with toShared := left, assembler := assembler }, buffer, delivered, size, true, out.err⟩

inductive Outcome (W ε : Type) where
  | incomplete
  | failed (e : Err)
  | done (turn : Turn W ε)

/-- The loop's turn without the fused path. An incomplete frame goes to the incremental
parser. -/
def generalTurn (m : Text) (c : Conn W) (src : List UInt8) : Outcome W ε :=
  match parseFrame m.toPlatform c.config.parser src with
  | .incomplete => .incomplete
  | .failed e => .failed e
  | .complete f size =>
    let buffer := src.take (size - f.payload.length) ++ f.payload ++ src.drop size
    let c := if size < src.length then c.beginWriteBatch else c
    .done (accept P m c f buffer size).charge

end General

section Header
variable {config : Settled} {src : List UInt8} {n head : Nat}

structure Fits (config : Settled) (src : List UInt8) (n head : Nat) : Prop where
  server : config.client = false
  header : head = 2 + extension (src.getD 1 0 &&& 0x7f)
  length : payloadLength (src.getD 1 0 &&& 0x7f) src (src.getD 1 0 &&& 0x7f).toNat = .ok n
  medium : n < 65536
  frame : config.parser.maxFramePayload ≠ 0 → n ≤ config.parser.maxFramePayload
  message : config.assembler.maxMessage ≠ 0 → n ≤ config.assembler.maxMessage

theorem fits_server (taken : 0 ≤ config.shortReadLimit) : config.client = false := by
  cases client : config.client with
  | true =>
    have limits := config.client_limits client
    omega
  | false => rfl

theorem shortReadLimit_eq (server : config.client = false) :
    config.shortReadLimit = config.withinMessageLimits 125 := by
  have eq := congrArg Config.shortReadLimit config.settled
  simp only [Config.settleShortLimits, server, Bool.false_eq_true, if_false] at eq
  exact eq.symm

theorem decodeBE_two (bytes : List UInt8) : decodeBE (bytes.take 2) < 65536 := by
  have below := decodeBE_lt (bytes.take 2)
  have short : (bytes.take 2).length ≤ 2 := List.length_take_le 2 bytes
  have power : 256 ^ (bytes.take 2).length ≤ 256 ^ 2 := Nat.pow_le_pow_right (by decide) short
  omega

theorem shortLength_fits
    (taken : shortLength config.toConfig src config.shortReadLimit = some (n, head)) :
    Fits config src n head := by
  simp only [shortLength] at taken
  split at taken
  · rename_i wide
    have code : src.getD 1 0 &&& 0x7f = 126 := UInt8.toNat_inj.mp wide
    split at taken
    · cases taken
    · rename_i room
      split at taken
      · cases taken
      · rename_i within
        obtain ⟨rfl, rfl⟩ := Prod.mk.inj (Option.some.inj taken)
        have large : ¬decodeBE ((src.drop 2).take 2) < 126 := fun small => within (.inl small)
        exact {
          server := fits_server (by omega)
          header := by rw [code]; rfl
          length := by
            rw [code, payloadLength, if_pos rfl]
            exact if_neg large
          medium := decodeBE_two _
          frame := by omega
          message := by omega }
  · rename_i narrow
    split at taken
    · cases taken
    · rename_i within
      obtain ⟨rfl, rfl⟩ := Prod.mk.inj (Option.some.inj taken)
      have server : config.client = false := fits_server (by omega)
      have bounds := config.withinMessageLimits_le (show (0 : Int) ≤ 125 by decide)
      rw [← shortReadLimit_eq server] at bounds
      have code : src.getD 1 0 &&& 0x7f ≠ 126 := fun same => narrow (by rw [same]; rfl)
      have long : src.getD 1 0 &&& 0x7f ≠ 127 := fun same => by
        rw [same] at within
        have value : (127 : UInt8).toNat = 127 := rfl
        omega
      exact {
        server := server
        header := by rw [extension, if_neg code, if_neg long]
        length := by rw [payloadLength, if_neg code, if_neg long]
        medium := by omega
        frame := fun set => by have := bounds.2.1 set; omega
        message := fun set => by have := bounds.2.2 set; omega }

theorem short_first {b0 : UInt8} (data : ¬1 < b0 - 0x81) : b0 = 0x81 ∨ b0 = 0x82 := by
  have small : (b0 - 0x81).toNat ≤ 1 := by
    rw [UInt8.lt_iff_toNat_lt] at data
    exact Nat.le_of_not_lt data
  rw [UInt8.toNat_sub] at small
  have below := b0.toNat_lt
  have value : (0x81 : UInt8).toNat = 129 := rfl
  have cases : b0.toNat = 0x81 ∨ b0.toNat = 0x82 := by omega
  exact cases.imp (fun same => UInt8.toNat_inj.mp same) (fun same => UInt8.toNat_inj.mp same)

theorem keyAt_bytes (long : head + 4 ≤ src.length) :
    (keyAt src head).bytes = (src.drop head).take 4 := by
  have four : ∀ rest : List UInt8, 4 ≤ rest.length →
      [rest.getD 0 0, rest.getD 1 0, rest.getD 2 0, rest.getD 3 0] = rest.take 4
    | _ :: _ :: _ :: _ :: _, _ => rfl
  have slice := four (src.drop head) (by rw [List.length_drop]; omega)
  simp only [List.getD_eq_getElem?_getD, List.getElem?_drop, Nat.add_zero] at slice
  simp only [keyAt, Key.bytes, List.getD_eq_getElem?_getD]
  exact slice

/-- Each way of unmasking gives the payload that `parseFrame` gives, and a text that was
not seen to be ASCII is one with a high bit. -/
theorem shortPayload_eq (m : Text) (long : head + 4 ≤ src.length) : (shortPayload m src n head).1 =
        unmask m.useAVX2 (keyAt src head) 0 ((src.drop (head + 4)).take n) ∧
      ((shortPayload m src n head).2 = true → isAscii (shortPayload m src n head).1 = true) := by
  have key : decodeLE ((src.drop head).take 4) = key32 (keyAt src head) 0 := by
    rw [← keyAt_bytes long, decodeLE_key]
  simp only [shortPayload, unmask_eq, unmaskASCII_eq, key, unmaskShort_eq]
  split
  · exact ⟨rfl, id⟩
  · split
    · exact ⟨rfl, nofun⟩
    · exact ⟨rfl, id⟩

structure Whole (b0 : UInt8) : Prop where
  reserved : b0 &&& 0x30 = 0
  fin : isFin b0 = true
  plain : isRSV1 b0 = false
  opcode : OpCode.ofByte (b0 &&& 0x0f) = some (shortOpcode b0)
  data : shortOpcode b0 = .text ∨ shortOpcode b0 = .binary

theorem short_whole {b0 : UInt8} (data : ¬1 < b0 - 0x81) : Whole b0 := by
  rcases short_first data with rfl | rfl
  · exact ⟨by decide, by decide, by decide, by decide, .inl rfl⟩
  · exact ⟨by decide, by decide, by decide, by decide, .inr rfl⟩

theorem vet_short {b0 b1 : UInt8} (first : Whole b0) (masked : isMasked b1 = true)
    (server : config.client = false) : vet config.parser b0 b1 = .ok (shortOpcode b0) := by
  have expect : config.parser.expectMask = true := by rw [config.masks, server]; rfl
  have data : (shortOpcode b0).isControl = false := by
    rcases first.data with same | same <;> rw [same] <;> rfl
  rw [vet_ok]
  refine ⟨first.reserved, ?_, first.opcode, by rw [masked, expect], ?_⟩
  · rw [first.plain, Bool.false_and]
  · rw [data, Bool.false_and]

theorem parseFrame_short (m : Text) (fits : Fits config src n head)
    (first : Whole (src.getD 0 0)) (masked : isMasked (src.getD 1 0) = true)
    (whole : head + 4 + n ≤ src.length) : parseFrame m.toPlatform config.parser src =
      .complete ⟨⟨true, false, shortOpcode (src.getD 0 0), true,
        unmask m.useAVX2 (keyAt src head) 0 ((src.drop (head + 4)).take n)⟩, true⟩ (head + 4 + n) := by
  have vetted := vet_short first masked fits.server
  have header : headerSize (src.getD 1 0) = head + 4 := by
    rw [headerSize, masked, if_pos rfl, fits.header]
  have limit : limited config.parser (head + 4)
      (payloadLength (src.getD 1 0 &&& 0x7f) src (src.getD 1 0 &&& 0x7f).toNat) = .ok n := by
    have frame := fits.frame
    have medium := fits.medium
    have extra : head ≤ 10 := by
      rw [fits.header, extension]
      split
      · decide
      · split <;> decide
    rw [fits.length, limited, if_neg]
    unfold parserMaxFramePayload maxInt
    split <;> omega
  have unchecked : ∀ payload, checkClose m.toPlatform (shortOpcode (src.getD 0 0)) payload = none := by
    intro payload
    apply if_neg
    rcases first.data with same | same <;> rw [same] <;> decide
  have fin := first.fin
  have plain := first.plain
  obtain _ | ⟨b0, _ | ⟨b1, tail⟩⟩ := src
  · simp at whole
  · simp only [List.length_cons, List.length_nil] at whole
    omega
  · simp only [List.getD_cons_zero, List.getD_cons_succ] at *
    simp only [parseFrame, vetted]
    rw [parseBody, if_neg (by omega), header, limit]
    simp only [if_neg (show ¬(b0 :: b1 :: tail).length < head + 4 + n by omega), masked, if_true,
      unchecked, fin, plain, Nat.add_sub_cancel]

end Header

section Accept
variable (m : Text) (P : Process W ε) {c : Conn W}

theorem accept_short {opcode : OpCode} {payload buffer : List UInt8} {ascii : Bool} {size : Nat}
    (idle : c.assembler = none) (data : opcode = .text ∨ opcode = .binary)
    (within : c.config.assembler.maxMessage ≠ 0 → payload.length ≤ c.config.assembler.maxMessage)
    (seen : ascii = true → isAscii payload = true) :
    accept P m c ⟨⟨true, false, opcode, true, payload⟩, true⟩ buffer size =
      deliverShort m P c buffer opcode payload ascii size := by
  have messages : ¬(c.config.assembler.maxMessage ≠ 0 ∧
      c.config.assembler.maxMessage < payload.length) := by omega
  have kind : (opcode = .binary || opcode = .text) = true := by
    rcases data with rfl | rfl <;> rfl
  have valid : (opcode = .text && c.config.assembler.validateUTF8 && !m.validUTF8 payload) = true ↔
      opcode = .text ∧ ascii = false ∧ c.config.assembler.validateUTF8 = true ∧
        m.validUTF8 payload = false := by
    have ascii := fun high => m.ascii_valid payload (seen high)
    simp only [Bool.and_eq_true, decide_eq_true_eq, Bool.not_eq_true', and_assoc]
    grind -ring -linarith
  have same : { c with toShared := c.toShared, assembler := none } = c := by rw [← idle]
  cases closed : c.closed with
  | true => simp only [accept, acceptFrame, deliverShort, closed, failed, shared, idle, same, if_true]
  | false =>
    simp only [accept, acceptFrame, deliverShort, closed, idle, kind, messages, Bool.not_false,
      Bool.and_self, Bool.false_eq_true, if_true, if_false, valid]
    split
    · simp only [failed, shared, same]
    · simp only [delivered, shared, handlers, notifyMessage, closed, Bool.false_eq_true, if_false]
      cases c.closing with
      | true => simp only [if_true, Option.map_none, same]
      | false =>
        cases P.onMessage with
        | none => simp only [Bool.false_eq_true, if_false, Option.map_none, same]
        | some onMessage => simp only [Bool.false_eq_true, if_false, Option.map_none]

theorem deliverShort_ok (c : Conn W) (buffer : List UInt8) (opcode : OpCode)
    (payload : List UInt8) (ascii : Bool) (size : Nat) :
    (deliverShort m P c buffer opcode payload ascii size).ok = true := by
  unfold deliverShort
  split
  · rfl
  · split
    · rfl
    · split
      · rfl
      · split <;> rfl

theorem consumeShortFrame_cases (c : Conn W) (src : List UInt8) :
    consumeShortFrame m P c src c.config.shortReadLimit = declined c src ∨
      (consumeShortFrame m P c src c.config.shortReadLimit).ok = true ∧ generalTurn P m c src =
          .done (consumeShortFrame m P c src c.config.shortReadLimit).charge := by
  unfold consumeShortFrame
  split
  · exact .inl rfl
  · rename_i early
    split
    · exact .inl rfl
    · rename_i other
      split
      · exact .inl rfl
      · rename_i n head taken
        split
        · exact .inl rfl
        · rename_i short
          have fits := shortLength_fits taken
          obtain ⟨unmasked, seen⟩ := shortPayload_eq (n := n) m (show head + 4 ≤ src.length by omega)
          generalize shortPayload m src n head = done at unmasked seen
          obtain ⟨payload, ascii⟩ := done
          have first := short_whole fun data => other (.inl data)
          have masked : isMasked (src.getD 1 0) = true := bne_iff_ne.mpr fun none => other (.inr none)
          have idle : c.assembler = none := Option.not_isSome_iff_eq_none.mp fun some => early (.inr some)
          have length : payload.length = n := by
            rw [show payload = _ from unmasked, unmask_eq, length_xorBytes, List.length_take,
              List.length_drop]
            omega
          have kept : (if head + 4 + n < src.length then c.beginWriteBatch else c).assembler = none ∧
              (if head + 4 + n < src.length then c.beginWriteBatch else c).config = c.config := by
            split <;> exact ⟨idle, rfl⟩
          refine .inr ⟨deliverShort_ok .., ?_⟩
          simp only [generalTurn, parseFrame_short m fits first masked (Nat.le_of_not_lt short), ← unmasked]
          rw [length, Nat.add_sub_cancel, accept_short]
          · exact kept.1
          · exact first.data
          · rw [kept.2, length]
            exact fits.message
          · exact seen

/-- The fused path is exact: a frame it takes leaves what the general path leaves, and a
frame it declines leaves the connection and the input as they were. -/
theorem short_frame_exact (c : Conn W) (src : List UInt8) :
    if (consumeShortFrame m P c src c.config.shortReadLimit).ok then generalTurn P m c src =
        .done (consumeShortFrame m P c src c.config.shortReadLimit).charge
    else consumeShortFrame m P c src c.config.shortReadLimit = declined c src := by
  rcases consumeShortFrame_cases m P c src with refused | ⟨taken, same⟩
  · rw [refused]
    rfl
  · rw [if_pos taken]
    exact same

/-- A masked "hi", with two bytes of the next frame behind it, is taken. -/
theorem short_frame_exact_hi : ∃ (m : Text) (P : Process Nat Unit) (c : Conn Nat),
    (consumeShortFrame m P c [0x81, 0x82, 1, 2, 3, 4, 0x69, 0x6b, 0x81, 0x80]
        c.config.shortReadLimit).delivered = some (.text, [0x68, 0x69]) ∧
      generalTurn P m c [0x81, 0x82, 1, 2, 3, 4, 0x69, 0x6b, 0x81, 0x80] =
        .done (consumeShortFrame m P c [0x81, 0x82, 1, 2, 3, 4, 0x69, 0x6b, 0x81, 0x80]
          c.config.shortReadLimit).charge := by
  let m : Text := ⟨⟨false, fun bytes => isAscii bytes⟩, fun _ ascii => ascii⟩
  let P : Process Nat Unit :=
    ⟨some fun c _ payload => { c.toShared with world := payload.length }, fun c _ => (c.toShared, none),
      fun c _ => (c.toShared, none), ()⟩
  let config : Config :=
    { client := false, parser := { expectMask := true }, assembler := {},
      writeBufferedThreshold := 4096, batchBlockSize := 4096 }
  let c : Conn Nat :=
    { closed := false, closing := false, readPaused := 0, world := 0, config := config.settle rfl,
      maxFramesPerDataEvent := 0, assembler := none, batching := false, readFrames := 0,
      parsed := none }
  have same := short_frame_exact m P c [0x81, 0x82, 1, 2, 3, 4, 0x69, 0x6b, 0x81, 0x80]
  rw [if_pos (by decide +kernel)] at same
  exact ⟨m, P, c, by decide +kernel, same⟩

end Accept

end UwsShortFrames
