import Uio.Slice

/-!
permessage-deflate with context takeover. Each end keeps the window of text its codec
may refer back to: the sender advances its own once a compressed message was queued,
the receiver once it has decoded one. A message sent as it is and a message refused
advance neither. The deflate codec is a parameter that inverts itself over any one
dictionary.
-/
namespace UwsDeflate
open Slices

abbrev Bytes := List UInt8

def defaultWindowBits : Int := 15

def maxDictionaryBytes : Nat := 1 <<< 15

def normalizeWindowBits (bits : Int) : Int :=
  if bits < 8 ∨ bits > defaultWindowBits then defaultWindowBits else bits

def windowLimit (limit : Int) : Nat :=
  if limit ≤ 0 ∨ limit > maxDictionaryBytes then maxDictionaryBytes else limit.toNat

def appendDictionary (dictionary : Slice UInt8) (payload : Bytes) (limit : Int) (spare : Nat) :
    Slice UInt8 :=
  let limit := windowLimit limit
  if limit ≤ payload.length then
    if limit ≤ dictionary.cap then
      (dictionary.upTo limit).copy (payload.drop (payload.length - limit))
    else Slice.empty.append (payload.drop (payload.length - limit)) spare
  else if dictionary.len + payload.length ≤ limit then dictionary.append payload spare
  else
    let keep := limit - payload.length
    let kept := dictionary.elems.drop (dictionary.len - keep)
    if limit ≤ dictionary.cap then ((dictionary.copy kept).upTo keep).append payload spare
    else ((Slice.make limit).append kept spare).append payload spare

/-- Compression of a payload against a dictionary; `how` stands for the level and the
writer taken from the pool. -/
structure Codec (χ : Type) where
  deflate : χ → Bytes → Bytes → Option Bytes
  inflate : Bytes → Bytes → Option Bytes
  inflate_deflate : ∀ how dictionary payload encoded,
    deflate how dictionary payload = some encoded → inflate dictionary encoded = some payload

structure Encoder where
  noContext : Bool
  windowBytes : Int
  dictionary : Slice UInt8

def newEncoderWithWindow (noContext : Bool) (windowBits : Int) : Encoder :=
  ⟨noContext, 1 <<< (normalizeWindowBits windowBits).toNat, .empty⟩

def Encoder.commit (e : Encoder) (payload : Bytes) (spare : Nat) : Encoder :=
  if e.noContext then e
  else { e with dictionary := appendDictionary e.dictionary payload e.windowBytes spare }

structure Decoder where
  noContext : Bool
  windowBytes : Int
  dictionary : Slice UInt8

def newDecoderWithWindow (noContext : Bool) (windowBits : Int) : Decoder :=
  ⟨noContext, 1 <<< (normalizeWindowBits windowBits).toNat, .empty⟩

def growDecodeOutput (capacity maxSize : Nat) : Nat :=
  let grown := if capacity * 2 < 32 <<< 10 then 32 <<< 10 else capacity * 2
  if maxSize < grown ∨ grown < capacity then maxSize else grown

/-- How much a read brings at most, and whether the last one says so at once. -/
structure Piece where
  size : Nat
  ended : Bool

/-- The capacity of the output and how far the next read may fill it, when it is below
`maxSize`: a full buffer is replaced first. -/
def writeLimit (capacity maxSize length : Nat) : Nat × Nat :=
  if length = min capacity maxSize then
    (growDecodeOutput capacity maxSize, growDecodeOutput capacity maxSize)
  else (capacity, min capacity maxSize)

inductive Ending where
  | eof
  | corrupt
  deriving DecidableEq

inductive Verdict where
  | handed (output : Bytes)
  | tooLarge
  | corrupt
  deriving DecidableEq

def Ending.verdict (output : Bytes) : Ending → Verdict
  | .eof => .handed output
  | .corrupt => .corrupt

structure Progress where
  capacity : Nat
  output : Bytes
  rest : Bytes

/-- The loop of `DecodeBorrowed` over the text that the reader still yields before its
ending, and what it passes through. A read into a buffer with room brings at least one
byte. -/
def decodeLoop (maxSize : Nat) (ending : Ending) (pieces : Nat → Piece) :
    Nat → Progress → Option Verdict × List Progress
  | 0, r => (none, [r])
  | fuel + 1, r =>
    if r.output.length = maxSize then
      (some (if r.rest = [] then ending.verdict r.output else .tooLarge), [r])
    else
      let (capacity, limit) := writeLimit r.capacity maxSize r.output.length
      let n := min ((pieces fuel).size + 1) (limit - r.output.length)
      let next : Progress := ⟨capacity, r.output ++ r.rest.take n, r.rest.drop n⟩
      if r.rest = [] ∨ (r.rest.length ≤ n ∧ (pieces fuel).ended) then
        (some (ending.verdict next.output), [r, next])
      else
        let later := decodeLoop maxSize ending pieces fuel next
        (later.1, r :: later.2)

variable {χ : Type} (codec : Codec χ)

def Decoder.advance (d : Decoder) (output : Bytes) (spare : Nat) : Decoder :=
  if d.noContext then d
  else { d with dictionary := appendDictionary d.dictionary output d.windowBytes spare }

def decodeLimit (maxSize : Int) : Nat := if maxSize ≤ 0 then 2 ^ 63 - 1 else maxSize.toNat

/-- Nothing stands for the errors of `DecodeBorrowed`, none of which touches the decoder. -/
def Decoder.decodeBorrowed (d : Decoder) (payload : Bytes) (maxSize : Int) (capacity : Nat)
    (pieces : Nat → Piece) (spare : Nat) : Option (Bytes × Decoder) :=
  match codec.inflate d.dictionary.elems payload with
  | none => none
  | some text =>
    match (decodeLoop (decodeLimit maxSize) .eof pieces (text.length + 2) ⟨capacity, [], text⟩).1 with
    | some (.handed output) => some (output, d.advance output spare)
    | _ => none

/-- A message on the wire, with the text it carries and, when it is compressed, the
dictionary it was compressed against. -/
structure Message where
  compressed : Bool
  payload : Bytes
  text : Bytes
  context : Bytes

structure Params where
  noContext : Bool
  windowBits : Int
  maxSend : Nat
  maxMessage : Nat
  maxCompressedPayload : Nat

structure Link where
  encoder : Encoder
  decoder : Decoder
  closing : Bool
  failed : Bool
  wire : List Message
  sent : List Bytes
  received : List Bytes

/-- What the frames of a message met: all were queued, the first was refused, or a
later one was and the stream is broken. -/
inductive Outcome where
  | taken
  | refused
  | broken

inductive Event (χ : Type) where
  | send (payload : Bytes) (how : χ) (outcome : Outcome) (spare : Nat)
  | receive (capacity : Nat) (pieces : Nat → Piece) (spare : Nat) (accepted : Bool)
  | close

def sendMessageLocked (s : Link) (m : Message) : Outcome → Link
  | .taken => { s with wire := s.wire ++ [m], sent := s.sent ++ [m.text] }
  | .refused => s
  | .broken => { s with closing := true }

def sendCompressed (s : Link) (payload : Bytes) (how : χ) (outcome : Outcome) (spare : Nat) :
    Link :=
  match codec.deflate how s.encoder.dictionary.elems payload with
  | none => s
  | some encoded =>
    if encoded.length < payload.length then
      let queued := sendMessageLocked s ⟨true, encoded, payload, s.encoder.dictionary.elems⟩ outcome
      match outcome with
      | .taken => { queued with encoder := s.encoder.commit payload spare }
      | _ => queued
    else sendMessageLocked s ⟨false, payload, payload, []⟩ outcome

def sendLocked (p : Params) (s : Link) (payload : Bytes) (how : χ) (outcome : Outcome)
    (spare : Nat) : Link :=
  if s.closing then s
  else if p.maxSend < payload.length then s
  else if 0 < payload.length then sendCompressed codec s payload how outcome spare
  else sendMessageLocked s ⟨false, payload, payload, []⟩ outcome

def exceedsPayloadLimit (p : Params) (m : Message) : Bool :=
  (if m.compressed then p.maxCompressedPayload else p.maxMessage) < m.payload.length

/-- A message read back stands in `received` before the check of its text or the handler
can fail the connection over it (`accepted`). -/
def acceptMessage (p : Params) (s : Link) (m : Message) (capacity : Nat) (pieces : Nat → Piece)
    (spare : Nat) (accepted : Bool) : Link :=
  if exceedsPayloadLimit p m then { s with failed := true }
  else if m.compressed then
    match s.decoder.decodeBorrowed codec m.payload p.maxMessage capacity pieces spare with
    | none => { s with failed := true }
    | some (output, decoder) =>
      { s with decoder, received := s.received ++ [output], failed := !accepted }
  else { s with received := s.received ++ [m.payload], failed := !accepted }

def step (p : Params) (s : Link) : Event χ → Link
  | .send payload how outcome spare => sendLocked codec p s payload how outcome spare
  | .receive capacity pieces spare accepted =>
    if s.failed then s
    else
      match s.wire with
      | [] => s
      | m :: rest => acceptMessage codec p { s with wire := rest } m capacity pieces spare accepted
  | .close => { s with closing := true }

def start (p : Params) : Link where
  encoder := newEncoderWithWindow p.noContext p.windowBits
  decoder := newDecoderWithWindow p.noContext p.windowBits
  closing := false
  failed := false
  wire := []
  sent := []
  received := []

def run (p : Params) (events : List (Event χ)) : Link :=
  events.foldl (step codec p) (start p)

end UwsDeflate
