import Uio.Bytebuf.Buffer

/-!
A buffer of separately pooled blocks with its length cached, and a connection's view of
such a buffer followed by the tail it borrows from the current read. `extra` is what the
pool hands out beyond the capacity asked for.
-/
namespace Bytebuf

structure CompositeBuffer where
  bufList : List Buffer
  length : Int

namespace CompositeBuffer

def new : CompositeBuffer := ⟨[], 0⟩

def isEmpty (b : CompositeBuffer) : Bool := b.length = 0

def fillLast (list : List Buffer) (p : Bytes) : List Buffer × Nat :=
  match list.getLast? with
  | none => (list, 0)
  | some last =>
    if 0 < last.available then
      (list.dropLast ++ [last.write (p.take (min last.available p.length)) 0],
        min last.available p.length)
    else (list, 0)

def write (b : CompositeBuffer) (p : Bytes) (extra : Nat) : CompositeBuffer × Nat :=
  if p = [] then (b, 0)
  else
    let (list, n) := fillLast b.bufList p
    let p := p.drop n
    if p = [] then (⟨list, b.length + n⟩, n)
    else (⟨list ++ [(Buffer.take p.length extra).write p 0], b.length + (n + p.length : Nat)⟩,
      n + p.length)

def writev (b : CompositeBuffer) (vec : List Bytes) (extra : Nat) : CompositeBuffer × Nat :=
  vec.foldl (fun r buf => ((r.1.write buf extra).1, r.2 + (r.1.write buf extra).2)) (b, 0)

def removeRange (b : CompositeBuffer) (endIdx : Nat) : CompositeBuffer :=
  { b with bufList := b.bufList.drop endIdx }

def reset (b : CompositeBuffer) : CompositeBuffer :=
  { b.removeRange b.bufList.length with length := 0 }

def gather (b : CompositeBuffer) (n : Int) (tail : Bytes) (extra : Nat) :
    CompositeBuffer × Bytes :=
  let take := min tail.length (max (n - b.length) 0).toNat
  let head := tail.take take
  let total := b.length + take
  let size := max n total
  let gathered : CompositeBuffer :=
    ⟨[(b.bufList.foldl (fun block buffer => block.write buffer.bytes 0)
        (Buffer.take size.toNat extra)).write head 0], total⟩
  match b.bufList with
  | [first] =>
    if size ≤ first.len + first.available then (⟨[first.write head 0], total⟩, tail.drop take)
    else (gathered, tail.drop take)
  | _ => (gathered, tail.drop take)

def appendOwned (b : CompositeBuffer) : Option Buffer → CompositeBuffer
  | none => b
  | some buffer =>
    if buffer.len = 0 then b else ⟨b.bufList ++ [buffer], b.length + buffer.len⟩

def prependOwned (b : CompositeBuffer) : Option Buffer → CompositeBuffer
  | none => b
  | some buffer =>
    if buffer.len = 0 then b else ⟨buffer :: b.bufList, b.length + buffer.len⟩

def appendOwnedCoalesced (b : CompositeBuffer) (targetCapacity : Int) (extra : Nat) :
    Option Buffer → CompositeBuffer
  | none => b
  | some buffer =>
    let size := buffer.len
    let fresh : CompositeBuffer :=
      if targetCapacity ≤ size then b.appendOwned (some buffer)
      else
        ⟨b.bufList ++ [(Buffer.take targetCapacity.toNat extra).write buffer.bytes 0],
          b.length + size⟩
    if size = 0 then b
    else
      match b.bufList.getLast? with
      | none => fresh
      | some last =>
        if size ≤ last.available then
          ⟨b.bufList.dropLast ++ [last.write buffer.bytes 0], b.length + size⟩
        else fresh

/-- The size of a new block: exact while the buffer is empty, `blockSize` at least after. -/
def blockFor (list : List Buffer) (size : Nat) (blockSize : Int) : Nat :=
  if list ≠ [] ∧ size < blockSize then blockSize.toNat else size

def reserve (b : CompositeBuffer) (fill : Bytes) (blockSize : Int) (extra : Nat) :
    CompositeBuffer :=
  let fresh : CompositeBuffer :=
    ⟨b.bufList ++ [(Buffer.take (blockFor b.bufList fill.length blockSize) extra).push fill],
      b.length + fill.length⟩
  if fill = [] then b
  else
    match b.bufList.getLast? with
    | none => fresh
    | some last =>
      if fill.length ≤ last.available then
        ⟨b.bufList.dropLast ++ [last.push fill], b.length + fill.length⟩
      else fresh

/-- The list with room in its last block: a new one follows when that is full or missing. -/
def roomy (list : List Buffer) (remaining : Nat) (blockSize : Int) (extra : Nat) :
    List Buffer × Buffer :=
  match list.getLast? with
  | none => (list, Buffer.take (blockFor list remaining blockSize) extra)
  | some last =>
    if last.available = 0 then (list, Buffer.take (blockFor list remaining blockSize) extra)
    else (list.dropLast, last)

/-- One segment of a coalescing write; each round takes at least a byte of it. -/
def coalesce (blockSize : Int) (extra : Nat) :
    Nat → Bytes → List Buffer × Nat → List Buffer × Nat
  | 0, _, r => r
  | fuel + 1, p, (list, remaining) =>
    if p = [] then (list, remaining)
    else
      let (front, last) := roomy list remaining blockSize extra
      let n := min last.available p.length
      coalesce blockSize extra fuel (p.drop n) (front ++ [last.push (p.take n)], remaining - n)

def writevCoalesced (b : CompositeBuffer) (vec : List Bytes) (blockSize : Int) (extra : Nat) :
    CompositeBuffer × Nat :=
  let total := vec.flatten.length
  if total = 0 then (b, 0)
  else
    let written := vec.foldl (fun r p => coalesce blockSize extra p.length p r) (b.bufList, total)
    (⟨written.1, b.length + total⟩, total)

def writeCoalesced (b : CompositeBuffer) (p : Bytes) (blockSize : Int) (extra : Nat) :
    CompositeBuffer × Nat :=
  let total := p.length
  if total = 0 then (b, 0)
  else (⟨(coalesce blockSize extra total p (b.bufList, total)).1, b.length + total⟩, total)

/-- The blocks from the one a read stopped at, the bytes read, and the last error. -/
def readLoop : List Buffer → Nat → Bool → List Buffer × Bytes × Bool
  | [], _, err => ([], [], err)
  | buf :: rest, k, _ =>
    let (data, after, err) := buf.read k
    if after.len ≠ 0 then (after :: rest, data, err)
    else
      let (list, more, err) := readLoop rest (k - data.length) err
      (list, data ++ more, err)

/-- The buffer, the bytes read into room for `k`, and whether the error was `io.EOF`. -/
def read (b : CompositeBuffer) (k : Nat) : CompositeBuffer × Bytes × Bool :=
  if b.bufList = [] then (b, [], true)
  else
    let (list, data, err) := readLoop b.bufList k false
    (⟨list, b.length - data.length⟩, data, err)

def peekLoop : List Buffer → Nat → Bytes
  | [], _ => []
  | buf :: rest, k =>
    let data := buf.bytes.take k
    if data.length = k then data else data ++ peekLoop rest (k - data.length)

def peek (b : CompositeBuffer) (k : Nat) : Bytes :=
  match b.bufList with
  | [] => []
  | first :: rest =>
    if k = 0 then []
    else if k ≤ first.len then first.bytes.take k
    else peekLoop (first :: rest) k

def peekChunk (b : CompositeBuffer) : Bytes :=
  match b.bufList with
  | [] => []
  | first :: _ => first.bytes

def peekVec (b : CompositeBuffer) (dst : List Bytes) : List Bytes × Nat :=
  if b.bufList = [] then ([], 0)
  else (dst ++ b.bufList.map Buffer.bytes, (b.bufList.map Buffer.len).sum)

def peekVecN (b : CompositeBuffer) (limit : Int) : List Bytes × Nat :=
  if b.bufList = [] ∨ limit ≤ 0 then ([], 0)
  else
    let blocks := b.bufList.take (min b.bufList.length limit.toNat)
    (blocks.map Buffer.bytes, (blocks.map Buffer.len).sum)

/-- The blocks, where a discard of `n` bytes ends among them, and how many it dropped. It
ends nowhere when the blocks run out first. -/
def discardLoop : List Buffer → Nat → List Buffer × Option Nat × Nat
  | [], _ => ([], none, 0)
  | buf :: rest, n =>
    if n < buf.len then (buf.discard n :: rest, some 0, n)
    else if n - buf.len = 0 then (buf :: rest, some 1, buf.len)
    else
      let (list, endIdx, size) := discardLoop rest (n - buf.len)
      (buf :: list, endIdx.map (· + 1), buf.len + size)

def discard (b : CompositeBuffer) (n : Int) : CompositeBuffer × Int :=
  if b.bufList = [] then (b, 0)
  else if n ≤ 0 then (b.reset, b.length)
  else
    let (list, endIdx, size) := discardLoop b.bufList (min n b.length).toNat
    ({ CompositeBuffer.mk list b.length |>.removeRange (endIdx.getD 0) with
        length := b.length - size }, size)

/-- What is written block by block, with the writer's answer to each write that is made. -/
def writeToLoop (answers : Nat → Buffer.Answer) :
    List Buffer → Nat → Bytes × List Buffer × Bool
  | [], _ => ([], [], false)
  | buf :: rest, call =>
    let (data, after, failed) := buf.writeTo (answers call)
    if failed then (data, after :: rest, true)
    else
      let (more, list, failed) :=
        writeToLoop answers rest (if buf.len = 0 then call else call + 1)
      (data ++ more, list, failed)

def writeTo (b : CompositeBuffer) (answers : Nat → Buffer.Answer) :
    CompositeBuffer × Bytes × Bool :=
  let (data, list, failed) := writeToLoop answers b.bufList 0
  (⟨list, b.length - data.length⟩, data, failed)

end CompositeBuffer

/-- A connection's inbound bytes: the blocks it keeps, then the tail of the current read. -/
structure Inbound where
  inbound : CompositeBuffer
  inboundTail : Bytes

namespace Inbound

def read (c : Inbound) (k : Nat) : Inbound × Bytes :=
  let (inbound, data) :=
    if c.inbound.isEmpty then (c.inbound, [])
    else ((c.inbound.read k).1, (c.inbound.read k).2.1)
  if ¬ c.inbound.isEmpty ∧ data.length = k then ({ c with inbound }, data)
  else (⟨inbound, c.inboundTail.drop (k - data.length)⟩,
    data ++ c.inboundTail.take (k - data.length))

def peek (c : Inbound) (k : Nat) : Bytes :=
  if k = 0 ∨ c.inbound.length + c.inboundTail.length = 0 then []
  else if c.inbound.length = 0 then c.inboundTail.take (min k c.inboundTail.length)
  else
    let data := c.inbound.peek k
    if data.length < k then data ++ c.inboundTail.take (k - data.length) else data

def peekChunk (c : Inbound) : Bytes :=
  if c.inbound.isEmpty then c.inboundTail else c.inbound.peekChunk

def inboundBuffered (c : Inbound) : Int := c.inbound.length + c.inboundTail.length

def discardCount (c : Inbound) (n : Int) : Inbound × Int :=
  if n = 0 then (c, 0)
  else if c.inbound.length = 0 then ({ c with inboundTail := c.inboundTail.drop n.toNat }, n)
  else if n ≤ c.inbound.length then ({ c with inbound := (c.inbound.discard n).1 }, n)
  else
    (⟨(c.inbound.discard c.inbound.length).1,
      c.inboundTail.drop (n - c.inbound.length).toNat⟩, n)

def discard (c : Inbound) (n : Int) : Inbound × Int :=
  let total := c.inbound.length + c.inboundTail.length
  c.discardCount (if n < 0 ∨ n > total then total else n)

def reserveInbound (c : Inbound) (n limit : Int) (extra : Nat) : Inbound × Bool :=
  if 0 < limit ∧ limit < n then (c, true)
  else if (if c.inbound.isEmpty then n ≤ c.inboundTail.length
      else n ≤ c.inbound.peekChunk.length) then (c, false)
  else (⟨(c.inbound.gather n c.inboundTail extra).1, (c.inbound.gather n c.inboundTail extra).2⟩, false)

def writeTo (c : Inbound) (answers : Nat → Buffer.Answer) (last : Buffer.Answer) :
    Inbound × Bytes × Bool :=
  let (inbound, data, failed) :=
    if c.inbound.isEmpty then (c.inbound, [], false) else c.inbound.writeTo answers
  if failed ∨ c.inboundTail = [] then (⟨inbound, c.inboundTail⟩, data, failed)
  else
    let sz := min last.taken c.inboundTail.length
    (⟨inbound, c.inboundTail.drop sz⟩, data ++ c.inboundTail.take sz, last.failed)

end Inbound
end Bytebuf
