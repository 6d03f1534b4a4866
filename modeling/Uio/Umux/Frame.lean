import Mathlib

/- Frames as the session decodes them. `decodeHeader` rejects every undefined
   type and flag, so the five types and the four flags are all a session sees;
   the byte layout of the header is not modelled here. -/
namespace UmuxFrame

def headerSize : Nat := 12

def wrap32 (n : Nat) : Nat := n % 2 ^ 32

inductive FrameType where
  | data
  | windowUpdate
  | ping
  | goAway
  | synMetadata
  deriving DecidableEq, Repr

structure Flags where
  syn : Bool := false
  ack : Bool := false
  fin : Bool := false
  rst : Bool := false
  deriving DecidableEq, Repr

structure FrameHeader where
  typ : FrameType
  flags : Flags
  streamID : Nat
  length : Nat
  deriving DecidableEq, Repr

structure Frame where
  hdr : FrameHeader
  payload : List UInt8
  deriving DecidableEq, Repr

def goAwayNormal : Nat := 0

def control (typ : FrameType) (flags : Flags) (id length : Nat) : Frame :=
  ⟨⟨typ, flags, id, length⟩, []⟩

def dataFrame (id : Nat) (chunk : List UInt8) : Frame :=
  ⟨⟨.data, {}, id, wrap32 chunk.length⟩, chunk⟩

def finFrame (id : Nat) : Frame := control .windowUpdate { fin := true } id 0
def rstFrame (id : Nat) : Frame := control .windowUpdate { rst := true } id 0
def updateFrame (id delta : Nat) : Frame := control .windowUpdate {} id (wrap32 delta)

def putUint32 (n : Nat) : List UInt8 :=
  [UInt8.ofNat (n / 2 ^ 24), UInt8.ofNat (n / 2 ^ 16), UInt8.ofNat (n / 2 ^ 8), UInt8.ofNat n]

def uint32 : List UInt8 → Nat
  | a :: b :: c :: d :: _ => a.toNat * 2 ^ 24 + b.toNat * 2 ^ 16 + c.toNat * 2 ^ 8 + d.toNat
  | _ => 0

theorem uint32_putUint32 (n : Nat) (rest : List UInt8) :
    uint32 (putUint32 n ++ rest) = wrap32 n := by
  simp only [putUint32, List.cons_append, List.nil_append, uint32, UInt8.toNat_ofNat', wrap32]
  omega

def synMetadataFrame (id delta : Nat) (metadata : List UInt8) : Frame :=
  ⟨⟨.synMetadata, { syn := true }, id, wrap32 (4 + metadata.length)⟩, putUint32 delta ++ metadata⟩

def Frame.size (f : Frame) : Nat := headerSize + f.payload.length

inductive FrameError where
  | flags
  | length
  deriving DecidableEq, Repr

def validateFrame (h : FrameHeader) (maxData maxMeta : Nat) : Option FrameError :=
  match h.typ with
  | .data => if maxData < h.length then some .length else none
  | .windowUpdate => if h.streamID = 0 then some .flags else none
  | .ping => none
  | .goAway => if h.streamID ≠ 0 then some .flags else none
  | .synMetadata =>
    if h.flags ≠ { syn := true } ∨ h.streamID = 0 then some .flags
    else if h.length < 4 ∨ maxMeta < h.length - 4 then some .length
    else none

/-- The payload a frame carries behind its header, as `readFrame` cuts it. -/
def carries (h : FrameHeader) : Nat :=
  match h.typ with
  | .data | .synMetadata => h.length
  | _ => 0

theorem wrap32_of_lt {n : Nat} (small : n < 2 ^ 32) : wrap32 n = n := Nat.mod_eq_of_lt small

end UmuxFrame
