import Uio.ByteOrder
import Uio.Bytebuf.Queue
import Uio.Streaming
import Uio.Umux.Turn

/- How a session pulls frames off its transport. A round parses what the transport
   holds, in whatever chunks, until no frame is whole or the receive budget is spent.
   The frames and the error depend on the bytes alone, not on chunks and rounds. -/
namespace UmuxFraming
open Bytebuf BytebufQueue ByteOrder Streaming UmuxFrame
variable {ε : Type}

inductive FrameFault where
  | short
  | version
  | typ
  | flags
  | length
  deriving DecidableEq, Repr

def fault : FrameError → FrameFault
  | .flags => .flags
  | .length => .length

def protoVersion : Nat := 0

def frameType : Nat → Option FrameType
  | 0 => some .data
  | 1 => some .windowUpdate
  | 2 => some .ping
  | 3 => some .goAway
  | 4 => some .synMetadata
  | _ => none

def flagsOf (bits : Nat) : Flags where
  syn := bits.testBit 0
  ack := bits.testBit 1
  fin := bits.testBit 2
  rst := bits.testBit 3

/-- The defined flags are the four low bits, so a header has another one exactly when it
is above them. -/
def allFlags : Nat := 15

def decodeHeader (b : Bytes) : Except FrameFault FrameHeader :=
  if b.length < headerSize then .error .short
  else if (b.getD 0 0).toNat ≠ protoVersion then .error .version
  else
    match frameType (b.getD 1 0).toNat with
    | none => .error .typ
    | some typ =>
      let flags := decodeBE ((b.drop 2).take 2)
      if allFlags < flags then .error .flags
      else .ok ⟨typ, flagsOf flags, decodeBE ((b.drop 4).take 4), decodeBE ((b.drop 8).take 4)⟩

/-- A frame as `readFrame` hands it over. Its payload is a part of the transport's
chunk, or was read off the transport. -/
structure Pulled extends Frame where
  total : Nat
  borrowed : Bool
  consumed : Bool

section
variable (maxFrame maxMeta : Nat)

def readFrame (c : Inbound) : Inbound × Except FrameFault (Option Pulled) :=
  let got := c.peek headerSize
  if got.length < headerSize then (c, .ok none)
  else
    match decodeHeader got with
    | .error e => (c, .error e)
    | .ok h =>
      match validateFrame h (wrap32 maxFrame) (wrap32 maxMeta) with
      | some e => (c, .error (fault e))
      | none =>
        let total := headerSize + carries h
        if c.inboundBuffered < total then (c, .ok none)
        else if carries h = 0 then (c, .ok (some ⟨⟨h, []⟩, total, false, false⟩))
        else if total ≤ c.peekChunk.length then
          (c, .ok (some ⟨⟨h, (c.peekChunk.take total).drop headerSize⟩, total, true, false⟩))
        else
          ((c.read total).1, .ok (some ⟨⟨h, (c.read total).2.drop headerSize⟩, total, false, true⟩))

inductive Failure (ε : Type) where
  | frame (e : FrameFault)
  | handler (e : ε)

/-- Where a round stopped, and whether it stopped for the receive budget. -/
structure Round (ε : Type) where
  c : Inbound
  seen : List Frame
  err : Option (Failure ε)
  held : Bool

variable (handle : List Frame → Option ε) (exhausted : List Frame → Bool)

/-- The loop of `onRead`. `handle` is `handleFrame` as it answers the last of the frames
so far, `exhausted` the budget after it. -/
def readLoop : Nat → Inbound → List Frame → Round ε
  | 0, c, seen => ⟨c, seen, none, true⟩
  | fuel + 1, c, seen =>
    match readFrame maxFrame maxMeta c with
    | (c, .error e) => ⟨c, seen, some (.frame e), false⟩
    | (c, .ok none) => ⟨c, seen, none, false⟩
    | (c, .ok (some fr)) =>
      let seen := seen ++ [fr.toFrame]
      let c := if fr.consumed then c else (c.discard fr.total).1
      match handle seen with
      | some e => ⟨c, seen, some (.handler e), false⟩
      | none => if exhausted seen then ⟨c, seen, none, true⟩ else readLoop fuel c seen

def onRead (heldReads : Bool) (c : Inbound) (seen : List Frame) : Round ε :=
  if heldReads then ⟨c, seen, none, true⟩
  else readLoop maxFrame maxMeta handle exhausted (c.inboundBuffered.toNat + 1) c seen

def parse (ε : Type) (xs : Bytes) : Outcome Frame (Failure ε) :=
  if xs.length < headerSize then .more
  else
    match decodeHeader (xs.take headerSize) with
    | .error e => .fail (.frame e)
    | .ok h =>
      match validateFrame h (wrap32 maxFrame) (wrap32 maxMeta) with
      | some e => .fail (.frame (fault e))
      | none =>
        if xs.length < headerSize + carries h then .more
        else .item ⟨h, (xs.drop headerSize).take (carries h)⟩ (headerSize + carries h)

variable {maxFrame maxMeta} {handle} {exhausted}

theorem parse_append {xs : Bytes} (ys : Bytes) (whole : parse maxFrame maxMeta ε xs ≠ .more) :
    parse maxFrame maxMeta ε (xs ++ ys) = parse maxFrame maxMeta ε xs := by
  unfold parse at whole ⊢
  by_cases short : xs.length < headerSize
  · exact absurd (if_pos short) whole
  · have header : (xs ++ ys).take headerSize = xs.take headerSize :=
      List.take_append_of_le_length (Nat.not_lt.mp short)
    have longer : ¬(xs ++ ys).length < headerSize := by
      rw [List.length_append]
      omega
    rw [if_neg short] at whole
    rw [if_neg short, if_neg longer, header]
    split
    · rfl
    · rename_i h decoded
      simp only [decoded] at whole
      split
      · rfl
      · rename_i valid
        simp only [valid] at whole
        by_cases cut : xs.length < headerSize + carries h
        · exact absurd (if_pos cut) whole
        · have enough : ¬(xs ++ ys).length < headerSize + carries h := by
            rw [List.length_append]
            omega
          rw [if_neg cut, if_neg enough, List.drop_append_of_le_length (by omega),
            List.take_append_of_le_length (by rw [List.length_drop]; omega)]

theorem parse_sized {xs : Bytes} {f : Frame} {n : Nat}
    (item : parse maxFrame maxMeta ε xs = .item f n) : 0 < n ∧ n ≤ xs.length := by
  unfold parse at item
  split at item
  · cases item
  · split at item
    · cases item
    · split at item
      · cases item
      · split at item
        · cases item
        · rename_i enough
          injection item with _ size
          unfold headerSize at *
          omega

end

def front (ε : Type) (maxFrame maxMeta : Nat) : Front UInt8 Frame (Failure ε) where
  parse := parse maxFrame maxMeta ε
  sized := parse_sized
  item_append ys item := (parse_append ys (by rw [item]; nofun)).trans item
  fail_append ys fail := (parse_append ys (by rw [fail]; nofun)).trans fail

section
variable {maxFrame maxMeta : Nat}

/-- What a call of `readFrame` does, as the front of the bytes decides. -/
inductive Reads (maxFrame maxMeta : Nat) (ε : Type) (c : Inbound) :
    Inbound × Except FrameFault (Option Pulled) → Prop where
  | more (parsed : parse maxFrame maxMeta ε (view c) = .more) : Reads maxFrame maxMeta ε c (c, .ok none)
  | fail (e : FrameFault) (parsed : parse maxFrame maxMeta ε (view c) = .fail (.frame e)) :
      Reads maxFrame maxMeta ε c (c, .error e)
  | item (fr : Pulled) (c' : Inbound)
      (parsed : parse maxFrame maxMeta ε (view c) = .item fr.toFrame fr.total)
      (valid : Valid (if fr.consumed then c' else (c'.discard fr.total).1).inbound)
      (left : view (if fr.consumed then c' else (c'.discard fr.total).1) = (view c).drop fr.total) :
      Reads maxFrame maxMeta ε c (c', .ok (some fr))

variable {handle : List Frame → Option ε} {exhausted : List Frame → Bool}

def sink (handle : List Frame → Option ε) (seen : List Frame) : Option (Failure ε) :=
  (handle seen).map .handler

def decoded (maxFrame maxMeta : Nat) (handle : List Frame → Option ε) (stream : Bytes) :
    Drained UInt8 Frame (Failure ε) := drain (front ε maxFrame maxMeta) (sink handle) [] stream

end

end UmuxFraming
