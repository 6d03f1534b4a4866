import Mathlib

/- A session's configuration as the caller writes it, and what `resolve` makes of
   it. A resolved configuration carries the bounds the session relies on, so no
   session runs with a window below the protocol floor. Handlers, observers and
   the Accept hook are user code: only their presence is recorded. Times are
   nanoseconds. ReadBufferSize and Executor play no part in the session. -/
namespace UmuxSettings

def minWindow : Nat := 262144
def defaultSessionWindow : Nat := 4194304
def defaultMaxStreams : Nat := 1024
def defaultMaxFrame : Nat := 32768
def maxMaxFrame : Nat := 65536
def defaultMaxMetadata : Nat := 4096
def maxMaxMetadata : Nat := 1048576
def defaultAcceptBacklog : Nat := 256
def defaultStreamOpen : Nat := 75000000000
def defaultStreamClose : Nat := 300000000000
def defaultKeepAlive : Nat := 30000000000
def defaultKeepAliveMax : Nat := 60000000000

structure Config where
  handler : Bool := false
  observer : Bool := false
  observerDrains : Bool := false
  handlerDrains : Bool := false
  accept : Bool := false
  windowSize : Int := 0
  sessionWindow : Int := 0
  maxStreams : Int := 0
  maxFrame : Int := 0
  maxMetadata : Int := 0
  acceptBacklog : Int := 0
  streamOpenTimeout : Int := 0
  streamCloseTimeout : Int := 0
  keepAlive : Int := 0
  keepAliveMax : Int := 0

structure Settings where
  handler : Bool
  observer : Bool
  drainObs : Bool
  accept : Bool
  windowSize : Nat
  sessionWindow : Nat
  maxStreams : Nat
  maxFrame : Nat
  maxMetadata : Nat
  acceptBacklog : Nat
  streamOpenTimeout : Nat
  streamCloseTimeout : Nat
  keepAlive : Nat
  keepAliveMax : Nat
  window_floor : minWindow ≤ windowSize
  frame_positive : 0 < maxFrame
  frame_cap : maxFrame ≤ maxMaxFrame
  metadata_cap : maxMetadata ≤ maxMaxMetadata

def orDefault (fallback : Nat) (value : Int) : Nat :=
  if value ≤ 0 then fallback else value.toNat

def clamp (cap fallback : Nat) (value : Int) : Nat :=
  if cap < orDefault fallback value then cap else orDefault fallback value

def resolveWindow (value : Int) : Nat :=
  if value < minWindow then minWindow else value.toNat

/-- A negative interval switches the keepalive off, zero asks for the default. -/
def resolveKeepAlive (value : Int) : Nat :=
  if value < 0 then 0 else if value = 0 then defaultKeepAlive else value.toNat

theorem resolveWindow_floor (value : Int) : minWindow ≤ resolveWindow value := by
  unfold resolveWindow
  split <;> omega

theorem orDefault_positive {fallback : Nat} (positive : 0 < fallback) (value : Int) :
    0 < orDefault fallback value := by
  unfold orDefault
  split <;> omega

theorem clamp_le (cap fallback : Nat) (value : Int) : clamp cap fallback value ≤ cap := by
  unfold clamp
  split <;> omega

theorem clamp_positive {cap fallback : Nat} (capped : 0 < cap) (positive : 0 < fallback)
    (value : Int) : 0 < clamp cap fallback value := by
  unfold clamp
  split
  · exact capped
  · exact orDefault_positive positive value

def resolve (c : Config) : Settings where
  handler := c.handler
  observer := c.observer
  drainObs := c.observerDrains || c.handlerDrains
  accept := c.accept
  windowSize := resolveWindow c.windowSize
  sessionWindow := orDefault defaultSessionWindow c.sessionWindow
  maxStreams := orDefault defaultMaxStreams c.maxStreams
  maxFrame := clamp maxMaxFrame defaultMaxFrame c.maxFrame
  maxMetadata := clamp maxMaxMetadata defaultMaxMetadata c.maxMetadata
  acceptBacklog := orDefault defaultAcceptBacklog c.acceptBacklog
  streamOpenTimeout := orDefault defaultStreamOpen c.streamOpenTimeout
  streamCloseTimeout := orDefault defaultStreamClose c.streamCloseTimeout
  keepAlive := resolveKeepAlive c.keepAlive
  keepAliveMax := orDefault defaultKeepAliveMax c.keepAliveMax
  window_floor := resolveWindow_floor c.windowSize
  frame_positive := clamp_positive (by decide) (by decide) c.maxFrame
  frame_cap := clamp_le maxMaxFrame defaultMaxFrame c.maxFrame
  metadata_cap := clamp_le maxMaxMetadata defaultMaxMetadata c.maxMetadata

end UmuxSettings
