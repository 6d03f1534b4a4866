import Uio.Uws.Limits

/-!
The ways a frame is encoded for sending: into the write batch and into space reserved in
the transport's queue, by hand or by `frame.Append`; into a buffer of its own; as a header
and a payload for one vectored write; on the stack for a write with a receipt. What is
handed over is the memory a way commits, which an append that ran out of room has left.
-/
namespace UwsEncoders
open ByteOrder UwsMask UwsFrame UwsLimits
open List (append_nil drop_append drop_drop length_cons length_drop length_set length_singleton
  length_take take_left)

/-- A slice from the start of `mem`. An append without room moves it elsewhere. -/
structure Window where
  mem : List UInt8
  len : Nat
  there : Bool

def Window.append (w : Window) (bytes : List UInt8) : Window :=
  if w.there ∧ w.len + bytes.length ≤ w.mem.length then
    ⟨w.mem.take w.len ++ bytes ++ w.mem.drop (w.len + bytes.length), w.len + bytes.length, true⟩
  else ⟨w.mem, w.len + bytes.length, false⟩

def copyAt (dst : List UInt8) (i : Nat) (bytes : List UInt8) : List UInt8 :=
  dst.take i ++ bytes.take (dst.length - i) ++ dst.drop (i + bytes.length)

variable (m : Platform)

def writeHeader (mem : List UInt8) (f : Content) (key : Key) : Window :=
  let w := (Window.append ⟨mem, 0, true⟩ [firstByte f]).append
    (lengthBytes f.masked f.payload.length)
  if f.masked then w.append key.bytes else w

/-- `Append(mem[:0], f, key)`; the payload is masked where it was copied to. -/
def writeFrame (mem : List UInt8) (f : Content) (key : Key) : Window :=
  let header := writeHeader mem f key
  let w := header.append f.payload
  if f.masked ∧ w.there then
    { w with
      mem := copyAt w.mem header.len
        (unmask m.useAVX2 key 0 ((w.mem.drop header.len).take f.payload.length)) }
  else w

/-- The buffers a connection gets: their contents are whatever was there before. -/
structure Memory where
  acquire : Nat → List UInt8
  acquired : ∀ n, n ≤ (acquire n).length
  reserve : Nat → List UInt8
  reserved : ∀ n, (reserve n).length = n

/-- What a sender reads of its connection; `batch` is the free space of the batch block. -/
structure Conn where
  config : Settled
  heartbeat : Bool
  compression : Bool
  tracked : Bool
  closeFlags : Bool
  closeFrameQueued : Bool
  opened : Bool
  closed : Bool
  closing : Bool
  batching : Bool
  batch : Option (List UInt8)

inductive Reserve where
  | space
  | unsupported
  | refused
deriving DecidableEq

/-- The answers a send meets: room below the outbound limit, a batch block handed over,
space in the transport's queue. -/
structure Answers where
  room : Bool
  flushed : Bool
  reserve : Reserve
  refused : Bool
  key : Key

namespace Conn
variable (c : Conn) (mem : Memory) (a : Answers)

def masks (f : Content) : Content := if c.config.client then { f with masked := true } else f

def maxFramePayload : Nat :=
  if c.config.parser.maxFramePayload = 0 then 16 <<< 20 else c.config.parser.maxFramePayload

def startBatch (wireSize : Nat) : Option (List UInt8) :=
  if a.flushed then some (mem.acquire (max wireSize c.config.batchBlockSize)) else none

def freeSpace (wireSize : Nat) : Option (List UInt8) :=
  match c.batch with
  | none => c.startBatch mem a wireSize
  | some free => if free.length < wireSize then c.startBatch mem a wireSize else some free

/-- The frame `batchMessageLocked` writes by hand into its part of the batch. -/
def batchEncode (dst : List UInt8) (opcode : OpCode) (payload : List UInt8) : List UInt8 :=
  if payload.length < 126 then
    copyAt ((dst.set 0 (0x80 ||| opcode.toByte)).set 1 (UInt8.ofNat payload.length)) 2 payload
  else if payload.length ≤ 0xFFFF then
    copyAt
      (copyAt ((dst.set 0 (0x80 ||| opcode.toByte)).set 1 126) 2 (encodeBE 2 payload.length))
      4 payload
  else
    let header := writeHeader dst ⟨true, false, opcode, false, payload⟩ .zero
    copyAt header.mem header.len payload

def batchMessageLocked (opcode : OpCode) (payload : List UInt8) : Option (List UInt8) :=
  let size := payload.length
  let wireSize := frameWireSize size false
  if c.heartbeat || c.compression || c.closeFlags || !c.opened || c.closed || c.closing then none
  else if c.config.shortSendLimit < size ∧ (c.config.client ∨
      c.config.assembler.maxMessage < size ∨ c.config.parser.maxFramePayload < size) then none
  else if c.config.writeBufferedThreshold ≤ 0 ∨ c.config.writeBufferedThreshold ≤ wireSize ∨
      a.room = false then none
  else (c.freeSpace mem a wireSize).map fun free => batchEncode (free.take wireSize) opcode payload

def shortEncode (dst : List UInt8) (opcode : OpCode) (payload : List UInt8) : List UInt8 :=
  if 125 < payload.length then
    copyAt
      (copyAt ((dst.set 0 (0x80 ||| opcode.toByte)).set 1 126) 2 (encodeBE 2 payload.length))
      4 payload
  else
    copyAt ((dst.set 0 (0x80 ||| opcode.toByte)).set 1 (UInt8.ofNat payload.length)) 2 payload

def sendShortLocked (opcode : OpCode) (payload : List UInt8) : Option (List UInt8) :=
  let size := payload.length
  if c.config.shortSendDirect < size ∨ (c.heartbeat || c.compression || c.batch.isSome ||
      c.closeFlags || !c.opened || c.closed || c.closing) then none
  else
    let wireSize := if 125 < size then size + 4 else size + 2
    if a.reserve = .space then some (shortEncode (mem.reserve wireSize) opcode payload) else none

/-- `batchFrame`: the batch commits `wireSize` bytes of its free space. -/
def batchFrame (f : Content) (wireSize : Nat) : Option (List UInt8) :=
  (c.freeSpace mem a wireSize).map fun free => (writeFrame m free f a.key).mem.take wireSize

def writeFrameOwned (f : Content) (wireSize : Nat) : Option (List UInt8) :=
  if a.refused then none
  else
    let wire := writeFrame m (mem.acquire wireSize) f a.key
    some (wire.mem.take wire.len)

def writeTrackedFrame (f : Content) : List UInt8 := append m [] (c.masks f) a.key

def queueFrameLocked (f : Content) : Option (List UInt8) :=
  if c.closed || (c.closing && f.opcode ≠ .close) then none
  else if c.maxFramePayload < f.payload.length then none
  else if f.opcode = .close && c.closeFrameQueued then none
  else if f.opcode = .close && c.tracked then some (c.writeTrackedFrame m a f)
  else
    let f := c.masks f
    let wireSize := frameWireSize f.payload.length f.masked
    let small := 0 < c.config.writeBufferedThreshold ∧ wireSize < c.config.writeBufferedThreshold
    if small ∧ c.batching ∧ a.room then c.batchFrame m mem a f wireSize
    else if a.flushed = false then none
    else if f.masked ∨ small then
      if small ∧ a.reserve = .space then some (writeFrame m (mem.reserve wireSize) f a.key).mem
      else if small ∧ a.reserve = .refused then none
      else writeFrameOwned m mem a f wireSize
    else some (appendHeader [] f a.key ++ f.payload)

end Conn

section Windows

structure Holds (w : Window) (bytes rest : List UInt8) : Prop where
  there : w.there = true
  len : w.len = bytes.length
  mem : w.mem = bytes ++ rest

theorem holds_append {w : Window} {bytes rest : List UInt8} (holds : Holds w bytes rest)
    (more : List UInt8) (fits : more.length ≤ rest.length) :
    Holds (w.append more) (bytes ++ more) (rest.drop more.length) := by
  obtain ⟨there, len, mem⟩ := holds
  have room : w.there = true ∧ w.len + more.length ≤ w.mem.length := by
    rw [len, mem, List.length_append]
    exact ⟨there, by omega⟩
  rw [Window.append, if_pos room]
  refine ⟨rfl, ?_, ?_⟩
  · rw [List.length_append, len]
  · simp only [len, mem, take_left, drop_append, List.append_assoc]
    simp

theorem copyAt_exact {dst bytes : List UInt8} {i : Nat} (exact : dst.length = i + bytes.length) :
    copyAt dst i bytes = dst.take i ++ bytes := by
  have whole : bytes.take (dst.length - i) = bytes := List.take_of_length_le (by omega)
  have none : dst.drop (i + bytes.length) = [] := List.drop_of_length_le (by omega)
  rw [copyAt, whole, none, append_nil]

theorem copyAt_take {dst bytes : List UInt8} {i : Nat} (fits : i + bytes.length ≤ dst.length) :
    (copyAt dst i bytes).take (i + bytes.length) = dst.take i ++ bytes := by
  have whole : bytes.take (dst.length - i) = bytes := List.take_of_length_le (by omega)
  rw [copyAt, whole]
  exact List.take_left' (by rw [List.length_append, length_take]; omega)

theorem length_copyAt {dst bytes : List UInt8} {i : Nat} (fits : i + bytes.length ≤ dst.length) :
    (copyAt dst i bytes).length = dst.length := by
  simp only [copyAt, List.length_append, length_take, length_drop]
  omega

theorem length_appendHeader (f : Content) (key : Key) :
    (appendHeader [] f key).length + f.payload.length =
      frameWireSize f.payload.length f.masked := by
  have keyed : (if f.masked then key.bytes else []).length = if f.masked then 4 else 0 := by
    split <;> rfl
  simp only [appendHeader, List.nil_append, List.length_append, length_cons, keyed,
    lengthBytes]
  split
  · rw [frameWireSize_short f.masked ‹_›]
    simp only [length_singleton]
    omega
  · split
    · rw [frameWireSize_medium f.masked (by omega) ‹_›]
      simp only [length_cons, length_encodeBE]
      omega
    · rw [frameWireSize_long f.masked (by omega)]
      simp only [length_cons, length_encodeBE]
      omega

theorem length_unmask (key : Key) (payload : List UInt8) :
    (unmask m.useAVX2 key 0 payload).length = payload.length := by
  rw [unmask_eq]
  simp [xorBytes]

theorem length_append (f : Content) (key : Key) :
    (append m [] f key).length = frameWireSize f.payload.length f.masked := by
  rw [append, List.length_append, ← length_appendHeader f key]
  split
  · rw [length_unmask]
  · rfl

theorem writeHeader_holds {mem : List UInt8} {f : Content} {key : Key}
    (fits : (appendHeader [] f key).length ≤ mem.length) :
    Holds (writeHeader mem f key) (appendHeader [] f key)
      (mem.drop (appendHeader [] f key).length) := by
  have start : Holds ⟨mem, 0, true⟩ [] mem := ⟨rfl, rfl, rfl⟩
  have pieces : appendHeader [] f key = [] ++ [firstByte f] ++
      lengthBytes f.masked f.payload.length ++ if f.masked then key.bytes else [] := rfl
  have sized := congrArg List.length pieces
  simp only [List.length_append, List.length_nil, length_singleton] at sized
  have first := holds_append start [firstByte f] (by rw [length_singleton]; omega)
  have second := holds_append first (lengthBytes f.masked f.payload.length)
    (by rw [length_drop, length_singleton]; omega)
  unfold writeHeader
  cases masked : f.masked with
  | false =>
    simp only [masked, Bool.false_eq_true, if_false, append_nil] at pieces second ⊢
    rw [pieces, List.length_append, ← drop_drop]
    exact second
  | true =>
    simp only [masked, if_true] at pieces sized second ⊢
    have third := holds_append second key.bytes
      (by rw [length_drop, length_drop, length_singleton]; omega)
    rw [pieces, List.length_append, List.length_append, ← drop_drop, ← drop_drop]
    exact third

theorem writeFrame_holds {mem : List UInt8} {f : Content} (key : Key)
    (fits : frameWireSize f.payload.length f.masked ≤ mem.length) :
    Holds (writeFrame m mem f key) (append m [] f key)
      (mem.drop (frameWireSize f.payload.length f.masked)) := by
  have size := length_appendHeader f key
  have header : Holds (writeHeader mem f key) (appendHeader [] f key)
    (mem.drop (appendHeader [] f key).length) := writeHeader_holds (by omega)
  have whole := holds_append header f.payload (by rw [length_drop]; omega)
  rw [drop_drop, size] at whole
  unfold writeFrame append
  cases masked : f.masked with
  | false =>
    simp only [masked, Bool.false_eq_true, false_and, if_false] at whole ⊢
    exact whole
  | true =>
    obtain ⟨there, len, holds⟩ := whole
    rw [masked] at holds
    simp only [there, and_self, if_true]
    constructor
    · rfl
    · rw [len, List.length_append, List.length_append, length_unmask]
    · simp only [holds, header.len, copyAt, List.append_assoc, List.drop_left, take_left]
      rw [List.take_of_length_le (by simp [length_unmask]), length_unmask,
        drop_append, drop_append]
      simp

end Windows

section Handmade
variable {opcode : OpCode} {payload dst : List UInt8} (key : Key)

/-- The frame the handmade encoders stand for: whole, unmasked and not compressed. -/
def plain (opcode : OpCode) (payload : List UInt8) : Content := ⟨true, false, opcode, false, payload⟩

theorem append_plain : append m [] (plain opcode payload) key =
    (0x80 ||| opcode.toByte) :: (lengthBytes false payload.length ++ payload) := by
  simp [append, appendHeader, plain, firstByte, UInt8.or_comm]

theorem set_two {a b : UInt8} (two : 2 ≤ dst.length) : ((dst.set 0 a).set 1 b).take 2 = [a, b] := by
  match dst, two with
  | _ :: _ :: _, _ => rfl

theorem handmade_short (short : payload.length < 126)
    (room : dst.length = frameWireSize payload.length false) :
    copyAt ((dst.set 0 (0x80 ||| opcode.toByte)).set 1 (UInt8.ofNat payload.length)) 2 payload =
      append m [] (plain opcode payload) key := by
  rw [frameWireSize_short false short] at room
  rw [copyAt_exact (by simp only [length_set, room]; simp; omega), set_two (by omega),
    append_plain, lengthBytes, if_pos short]
  simp

theorem handmade_medium (low : 126 ≤ payload.length) (high : payload.length ≤ 0xFFFF)
    (room : dst.length = frameWireSize payload.length false) : copyAt
        (copyAt ((dst.set 0 (0x80 ||| opcode.toByte)).set 1 126) 2 (encodeBE 2 payload.length))
        4 payload = append m [] (plain opcode payload) key := by
  rw [frameWireSize_medium false low high] at room
  simp only [Bool.false_eq_true, if_false] at room
  have within : 2 + (encodeBE 2 payload.length).length ≤
      ((dst.set 0 (0x80 ||| opcode.toByte)).set 1 126).length := by
    rw [length_encodeBE, length_set, length_set]
    omega
  have head := copyAt_take within
  have size := length_copyAt within
  rw [length_encodeBE, set_two (by omega)] at head
  rw [copyAt_exact (by rw [size, length_set, length_set]; omega), head, append_plain,
    lengthBytes, if_neg (by omega), if_pos high]
  simp

theorem batchEncode_eq (room : dst.length = frameWireSize payload.length false) :
    Conn.batchEncode dst opcode payload = append m [] (plain opcode payload) key := by
  unfold Conn.batchEncode
  split
  · exact handmade_short m key ‹_› room
  · split
    · exact handmade_medium m key (by omega) ‹_› room
    · have size : (appendHeader [] (plain opcode payload) .zero).length + payload.length =
          dst.length := by
        rw [room]
        exact length_appendHeader (plain opcode payload) .zero
      obtain ⟨-, len, mem⟩ :=
        writeHeader_holds (show (appendHeader [] (plain opcode payload) .zero).length ≤ dst.length by
          omega)
      have exact : (writeHeader dst (plain opcode payload) .zero).mem.length =
          (writeHeader dst (plain opcode payload) .zero).len + payload.length := by
        rw [len, mem, List.length_append, length_drop]
        omega
      show copyAt (writeHeader dst (plain opcode payload) .zero).mem
        (writeHeader dst (plain opcode payload) .zero).len payload = _
      rw [copyAt_exact exact, len, mem, take_left]
      rfl

theorem shortEncode_eq (short : payload.length ≤ 0xFFFF)
    (room : dst.length = frameWireSize payload.length false) :
    Conn.shortEncode dst opcode payload = append m [] (plain opcode payload) key := by
  unfold Conn.shortEncode
  split
  · exact handmade_medium m key (by omega) short room
  · exact handmade_short m key (by omega) room

end Handmade

section Ways
variable (c : Conn) (mem : Memory) (a : Answers)

theorem startBatch_room {wireSize : Nat} {free : List UInt8}
    (found : c.startBatch mem a wireSize = some free) : wireSize ≤ free.length := by
  have size := mem.acquired (max wireSize c.config.batchBlockSize)
  unfold Conn.startBatch at found
  split at found
  · cases found
    omega
  · cases found

theorem freeSpace_room {wireSize : Nat} {free : List UInt8}
    (found : c.freeSpace mem a wireSize = some free) : wireSize ≤ free.length := by
  unfold Conn.freeSpace at found
  split at found
  · exact startBatch_room c mem a found
  · split at found
    · exact startBatch_room c mem a found
    · cases found
      omega

/-- What a way hands over is the frame of the sender's role, at its wire size. -/
def Exact (f : Content) (bytes : List UInt8) : Prop :=
  bytes = append m [] (c.masks f) a.key ∧
    bytes.length = frameWireSize f.payload.length c.config.client

theorem masks_server (server : c.config.client = false) (f : Content) : c.masks f = f := by
  simp [Conn.masks, server]

theorem masks_payload (f : Content) : (c.masks f).payload = f.payload := by
  unfold Conn.masks
  split <;> rfl

theorem masks_masked {f : Content} (clear : f.masked = false) :
    (c.masks f).masked = c.config.client := by
  unfold Conn.masks
  split <;> simp_all

theorem exact_append {f : Content} (clear : f.masked = false) :
    Exact m c a f (append m [] (c.masks f) a.key) := by
  refine ⟨rfl, ?_⟩
  rw [length_append, masks_payload, masks_masked c clear]

theorem exact_plain (server : c.config.client = false) (opcode : OpCode) (payload : List UInt8) :
    Exact m c a (plain opcode payload) (append m [] (plain opcode payload) a.key) := by
  have whole := exact_append m c a (f := plain opcode payload) rfl
  rw [masks_server c server] at whole
  exact whole

theorem exact_batchMessageLocked {opcode : OpCode} {payload bytes : List UInt8}
    (sent : c.batchMessageLocked mem a opcode payload = some bytes) :
    Exact m c a (plain opcode payload) bytes := by
  simp only [Conn.batchMessageLocked] at sent
  split at sent
  · cases sent
  split at sent
  · cases sent
  rename_i limits
  split at sent
  · cases sent
  have server : c.config.client = false := by
    cases client : c.config.client with
    | false => rfl
    | true =>
      have short := (c.config.client_limits client).1
      exact absurd ⟨by omega, .inl client⟩ limits
  obtain ⟨free, found, rfl⟩ := Option.map_eq_some_iff.1 sent
  have room := freeSpace_room c mem a found
  rw [batchEncode_eq m a.key (by rw [length_take]; omega)]
  exact exact_plain m c a server opcode payload

theorem shortSendDirect_le (config : Settled) : config.shortSendDirect ≤ 0xFFFF := by
  cases client : config.client with
  | true =>
    rw [(config.client_limits client).2.1]
    decide
  | false =>
    have eq := config.settled
    simp only [Config.settleShortLimits, client, Bool.false_eq_true, if_false] at eq
    have direct := congrArg Config.shortSendDirect eq
    simp only at direct
    have limit := bufferedPayloadLimit_le (show (0 : Int) ≤ 0xFFFF by decide)
      config.writeBufferedThreshold
    rw [← direct]
    by_cases some : 0 ≤ bufferedPayloadLimit config.writeBufferedThreshold 0xFFFF
    · have within := (config.toConfig.withinMessageLimits_le some).1
      omega
    · rw [Config.withinMessageLimits, if_pos (by omega)]
      decide

theorem exact_sendShortLocked {opcode : OpCode} {payload bytes : List UInt8}
    (sent : c.sendShortLocked mem a opcode payload = some bytes) :
    Exact m c a (plain opcode payload) bytes := by
  have most := shortSendDirect_le c.config
  simp only [Conn.sendShortLocked] at sent
  split at sent
  · cases sent
  rename_i limits
  have within : (payload.length : Int) ≤ c.config.shortSendDirect := by
    by_contra beyond
    exact limits (.inl (by omega))
  split at sent
  · cases sent
    have server : c.config.client = false := by
      cases client : c.config.client with
      | false => rfl
      | true =>
        have direct := (c.config.client_limits client).2.1
        omega
    have room : (mem.reserve (if 125 < payload.length then payload.length + 4
        else payload.length + 2)).length = frameWireSize payload.length false := by
      rw [mem.reserved]
      split
      · rw [frameWireSize_medium false (by omega) (by omega)]
        rfl
      · rw [frameWireSize_short false (by omega)]
        rfl
    rw [shortEncode_eq m a.key (by omega) room]
    exact exact_plain m c a server opcode payload
  · cases sent

theorem exact_writeFrameOwned {f : Content} {bytes : List UInt8}
    (sent : Conn.writeFrameOwned m mem a f (frameWireSize f.payload.length f.masked) =
      some bytes) : bytes = append m [] f a.key := by
  unfold Conn.writeFrameOwned at sent
  split at sent
  · cases sent
  · obtain ⟨-, len, holds⟩ := writeFrame_holds m a.key
      (mem.acquired (frameWireSize f.payload.length f.masked))
    cases sent
    rw [len, holds, take_left]

theorem exact_batchFrame {f : Content} {bytes : List UInt8}
    (sent : c.batchFrame m mem a f (frameWireSize f.payload.length f.masked) = some bytes) :
    bytes = append m [] f a.key := by
  unfold Conn.batchFrame at sent
  obtain ⟨free, found, rfl⟩ := Option.map_eq_some_iff.1 sent
  obtain ⟨-, -, holds⟩ := writeFrame_holds m a.key (freeSpace_room c mem a found)
  rw [holds, ← length_append m f a.key, take_left]

theorem exact_queueFrameLocked {f : Content} (clear : f.masked = false) {bytes : List UInt8}
    (sent : c.queueFrameLocked m mem a f = some bytes) : Exact m c a f bytes := by
  have done : bytes = append m [] (c.masks f) a.key → Exact m c a f bytes := by
    intro same
    rw [same]
    exact exact_append m c a clear
  simp only [Conn.queueFrameLocked, Option.ite_none_left_eq_some] at sent
  obtain ⟨-, -, -, sent⟩ := sent
  split at sent
  · cases sent
    exact done rfl
  split at sent
  · exact done (exact_batchFrame m c mem a sent)
  obtain ⟨-, sent⟩ := Option.ite_none_left_eq_some.mp sent
  split at sent
  · split at sent
    · cases sent
      obtain ⟨-, -, holds⟩ := writeFrame_holds m a.key (Nat.le_of_eq (mem.reserved
        (frameWireSize (c.masks f).payload.length (c.masks f).masked)).symm)
      apply done
      rw [holds, List.drop_of_length_le (by rw [mem.reserved]), append_nil]
    · split at sent
      · cases sent
      · exact done (exact_writeFrameOwned m mem a sent)
  · rename_i unmasked
    cases sent
    apply done
    have off : (c.masks f).masked = false := by
      cases masked : (c.masks f).masked with
      | false => rfl
      | true => exact absurd (.inl masked) unmasked
    rw [append, off]
    rfl

end Ways

/-- Every way a frame is encoded hands over what `frame.Append` makes of it in the
sender's role, of the size `frameWireSize` tells. -/
theorem encoders_agree (c : Conn) (mem : Memory) (a : Answers) :
    (∀ opcode payload bytes, c.batchMessageLocked mem a opcode payload = some bytes →
      Exact m c a (plain opcode payload) bytes) ∧
    (∀ opcode payload bytes, c.sendShortLocked mem a opcode payload = some bytes →
      Exact m c a (plain opcode payload) bytes) ∧ ∀ f : Content, f.masked = false →
      (∀ bytes, c.queueFrameLocked m mem a f = some bytes → Exact m c a f bytes) ∧
      (∀ bytes, Conn.writeFrameOwned m mem a (c.masks f)
          (frameWireSize f.payload.length (c.masks f).masked) = some bytes → Exact m c a f bytes) ∧
      Exact m c a f (c.writeTrackedFrame m a f) := by
  refine ⟨fun _ _ _ => exact_batchMessageLocked m c mem a,
    fun _ _ _ => exact_sendShortLocked m c mem a, ?_⟩
  intro f clear
  refine ⟨fun _ => exact_queueFrameLocked m c mem a clear, ?_, exact_append m c a clear⟩
  intro bytes sent
  rw [← masks_payload c f] at sent
  rw [exact_writeFrameOwned m mem a sent]
  exact exact_append m c a clear

def scalar : Platform := ⟨false, fun _ => true⟩

def zeros : Memory where
  acquire n := List.replicate n 0
  acquired n := by simp
  reserve n := List.replicate n 0
  reserved n := by simp

def echoServer : Settled :=
  Config.settle ⟨false, { expectMask := true }, {}, 4096, 8, 0, 0, 0⟩ rfl

def echoClient : Settled := Config.settle ⟨true, {}, {}, 4096, 8, 0, 0, 0⟩ rfl

def idle (config : Settled) : Conn :=
  ⟨config, false, false, false, false, false, true, false, false, false, none⟩

def generous : Answers := ⟨true, true, .space, false, ⟨1, 2, 3, 4⟩⟩

theorem encoders_agree_hi : (idle echoServer).sendShortLocked zeros generous .text [0x48, 0x69] =
        some [0x81, 2, 0x48, 0x69] ∧ (idle echoClient).queueFrameLocked scalar zeros generous
          ⟨true, false, .text, false, [0x48, 0x69]⟩ = some [0x81, 0x82, 1, 2, 3, 4, 0x49, 0x6b] ∧
      Exact scalar (idle echoServer) generous (plain .text [0x48, 0x69]) [0x81, 2, 0x48, 0x69] ∧
      Exact scalar (idle echoClient) generous (plain .text [0x48, 0x69])
        [0x81, 0x82, 1, 2, 3, 4, 0x49, 0x6b] :=
  have short : (idle echoServer).sendShortLocked zeros generous .text [0x48, 0x69] =
      some [0x81, 2, 0x48, 0x69] := by decide
  have masked : (idle echoClient).queueFrameLocked scalar zeros generous
      ⟨true, false, .text, false, [0x48, 0x69]⟩ =
      some [0x81, 0x82, 1, 2, 3, 4, 0x49, 0x6b] := by decide
  ⟨short, masked, (encoders_agree scalar _ zeros generous).2.1 _ _ _ short,
    ((encoders_agree scalar _ zeros generous).2.2 _ rfl).1 _ masked⟩

end UwsEncoders
