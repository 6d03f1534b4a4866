import Uio.Uws.Frame
import Uio.Uws.Assembly

/-!
The limits a connection's configuration settles once for its fused short paths, and the
wire sizes of frames. A client takes none of the short paths: it masks what it sends and
reads frames unmasked, so each of its limits is -1.
-/
namespace UwsLimits
open UwsFrame UwsAssembly

structure Config where
  client : Bool
  parser : ParserConfig
  assembler : AssemblerConfig
  writeBufferedThreshold : Int
  batchBlockSize : Nat
  shortSendLimit : Int := 0
  shortSendDirect : Int := 0
  shortReadLimit : Int := 0

def bufferedPayloadLimit (threshold maxPayload : Int) : Int :=
  if 126 ≤ min (threshold - 5) maxPayload then min (threshold - 5) maxPayload
  else max (-1) (min (min (threshold - 3) 125) maxPayload)

def lowered (limit : Int) (bound : Nat) : Int :=
  if bound ≠ 0 ∧ (bound : Int) < limit then bound else limit

def Config.withinMessageLimits (config : Config) (limit : Int) : Int :=
  if limit < 0 then -1
  else lowered (lowered limit config.parser.maxFramePayload) config.assembler.maxMessage

def Config.settleShortLimits (config : Config) : Config :=
  if config.client then
    { config with shortSendLimit := -1, shortSendDirect := -1, shortReadLimit := -1 }
  else
    { config with
      shortSendLimit :=
        config.withinMessageLimits (bufferedPayloadLimit config.writeBufferedThreshold 125)
      shortSendDirect :=
        config.withinMessageLimits (bufferedPayloadLimit config.writeBufferedThreshold 0xFFFF)
      shortReadLimit := config.withinMessageLimits 125 }

/-- The configuration a connection runs with: built by one of the two constructors, with
its limits settled last. -/
structure Settled extends Config where
  masks : parser.expectMask = !client
  settled : toConfig.settleShortLimits = toConfig

theorem Config.settleShortLimits_again (config : Config) :
    config.settleShortLimits.settleShortLimits = config.settleShortLimits := by
  cases client : config.client with
  | true => simp [settleShortLimits, client]
  | false => simp [settleShortLimits, client, withinMessageLimits]

def Config.settle (config : Config) (masks : config.parser.expectMask = !config.client) : Settled where
  toConfig := config.settleShortLimits
  masks := by
    unfold settleShortLimits
    split <;> exact masks
  settled := config.settleShortLimits_again

theorem Settled.client_limits (config : Settled) (client : config.client = true) :
    config.shortSendLimit = -1 ∧ config.shortSendDirect = -1 ∧ config.shortReadLimit = -1 := by
  have eq := config.settled
  simp only [Config.settleShortLimits, client, if_true] at eq
  rw [← eq]
  exact ⟨rfl, rfl, rfl⟩

theorem lowered_le (limit : Int) (bound : Nat) :
    lowered limit bound ≤ limit ∧ (bound ≠ 0 → lowered limit bound ≤ bound) := by
  unfold lowered
  split <;> omega

theorem Config.withinMessageLimits_le (config : Config) {limit : Int} (some : 0 ≤ limit) :
    config.withinMessageLimits limit ≤ limit ∧ (config.parser.maxFramePayload ≠ 0 →
        config.withinMessageLimits limit ≤ config.parser.maxFramePayload) ∧
      (config.assembler.maxMessage ≠ 0 →
        config.withinMessageLimits limit ≤ config.assembler.maxMessage) := by
  have first := lowered_le limit config.parser.maxFramePayload
  have second := lowered_le (lowered limit config.parser.maxFramePayload)
    config.assembler.maxMessage
  rw [withinMessageLimits, if_neg (by omega)]
  omega

theorem bufferedPayloadLimit_le {maxPayload : Int} (some : 0 ≤ maxPayload) (threshold : Int) :
    bufferedPayloadLimit threshold maxPayload ≤ maxPayload := by
  unfold bufferedPayloadLimit
  split <;> omega

def frameWireSize (payload : Nat) (masked : Bool) : Nat :=
  payload + 2 + (if 126 ≤ payload ∧ payload ≤ 0xffff then 2 else if 0xffff < payload then 8 else 0) +
    if masked then 4 else 0

section Sizes
variable {n : Nat} (masked : Bool)

theorem frameWireSize_short (short : n < 126) :
    frameWireSize n masked = n + 2 + if masked then 4 else 0 := by
  rw [frameWireSize, if_neg (by omega), if_neg (by omega), Nat.add_zero]

theorem frameWireSize_medium (low : 126 ≤ n) (high : n ≤ 0xffff) :
    frameWireSize n masked = n + 4 + if masked then 4 else 0 := by
  rw [frameWireSize, if_pos ⟨low, high⟩]

theorem frameWireSize_long (long : 0xffff < n) :
    frameWireSize n masked = n + 10 + if masked then 4 else 0 := by
  rw [frameWireSize, if_neg (by omega), if_pos long]

end Sizes

def fragmentedWireSize (payload maxFrame : Nat) (masked : Bool) : Nat :=
  if payload ≤ maxFrame then frameWireSize payload masked
  else
    payload / maxFrame * frameWireSize maxFrame masked +
      if 0 < payload % maxFrame then frameWireSize (payload % maxFrame) masked else 0

end UwsLimits
