import Mathlib
/-!
The heartbeat's state: the outstanding Ping with its moments, the byte positions that
tell when it left a plain transport, and the deadlines the ticks decide by. A moment is
in nanoseconds since the epoch, 0 when unset; a zero `time.Time` is `none`. The counters
that live outside the mutex are kept by whoever models the writes.
-/
namespace UwsHeartbeat

/-- A heartbeat runs with a positive interval; its timeout is then positive too. -/
structure Timing where
  heartbeatInterval : Int
  heartbeatTimeout : Int
  interval_pos : 0 < heartbeatInterval
  timeout_pos : 0 < heartbeatTimeout

structure Heartbeat where
  sendStalledAt : Int := 0
  pingQueuedAt : Int := 0
  pingSentAt : Int := 0
  pingNonce : Nat := 0
  pingTarget : Nat := 0
  nextPingAt : Int := 0
  armedAt : Int := 0
  pingOutstanding : Bool := false
  pingReceipt : Nat := 0
  parsed : Nat := 0
  deferredAt : Nat := 0
  deriving DecidableEq, Repr

namespace Heartbeat
variable (h : Heartbeat)

def setPingReceipt (r : Nat) : Heartbeat := { h with pingReceipt := r }

def claimPingReceipt (r : Nat) : Heartbeat × Bool :=
  if r = 0 ∨ h.pingReceipt ≠ r ∨ h.pingOutstanding = false then (h, false)
  else ({ h with pingReceipt := 0 }, true)

def markPingReceiptSent (now : Int) : Heartbeat :=
  if h.pingOutstanding ∧ h.pingSentAt = 0 then { h with pingSentAt := now, sendStalledAt := 0 }
  else h

def markPingSent (retired : Nat) (now : Int) : Heartbeat :=
  if h.pingOutstanding ∧ h.pingSentAt = 0 ∧ h.pingTarget ≠ 0 ∧ h.pingTarget ≤ retired then
    { h with pingSentAt := now, sendStalledAt := 0 }
  else h

def beginPing (now : Int) (nonce : Nat) : Heartbeat × Bool :=
  if h.pingOutstanding then (h, false)
  else
    ({ h with
      pingQueuedAt := if h.sendStalledAt ≠ 0 then h.sendStalledAt else now
      pingSentAt := 0
      pingNonce := nonce
      pingTarget := 0
      pingReceipt := 0
      pingOutstanding := true
      deferredAt := h.parsed }, true)

def markPingTarget (nonce accepted : Nat) : Heartbeat :=
  if h.pingOutstanding ∧ h.pingNonce = nonce then { h with pingTarget := accepted } else h

def clearPingLocked : Heartbeat :=
  { h with
    pingOutstanding := false
    pingQueuedAt := 0
    pingSentAt := 0
    pingNonce := 0
    pingTarget := 0
    pingReceipt := 0 }

def acknowledgePing (nonce : Nat) : Heartbeat × Bool :=
  if nonce = 0 ∨ h.pingOutstanding = false ∨ h.pingNonce ≠ nonce then (h, false)
  else ({ h.clearPingLocked with sendStalledAt := 0 }, true)

def cancelPing (nonce : Nat) : Heartbeat :=
  if h.pingOutstanding ∧ h.pingNonce = nonce then h.clearPingLocked else h

def noteSendStall (now : Int) : Heartbeat :=
  if h.pingOutstanding = false ∧ h.sendStalledAt = 0 then { h with sendStalledAt := now } else h

def startedAt : Int := if h.pingSentAt ≠ 0 then h.pingSentAt else h.pingQueuedAt

def expirePing (now timeout : Int) : Heartbeat × Bool :=
  if h.pingOutstanding = false then
    if h.sendStalledAt = 0 ∨ now - h.sendStalledAt < timeout then (h, false)
    else ({ h with sendStalledAt := 0 }, true)
  else if h.startedAt = 0 ∨ now - h.startedAt < timeout then (h, false)
  else ({ h.clearPingLocked with sendStalledAt := 0 }, true)

def expiryLocked (timeout : Int) : Option Int :=
  let started := if h.pingOutstanding then h.startedAt else h.sendStalledAt
  if started = 0 then none else some (started + timeout)

def deferExpiry (now timeout : Int) (inputWaiting : Bool) : Heartbeat × Bool :=
  if h.pingOutstanding = false ∨ h.pingSentAt = 0 then (h, false)
  else
    match h.expiryLocked timeout with
    | none => (h, false)
    | some deadline =>
      if now < deadline ∨ deadline + timeout ≤ now then (h, false)
      else if inputWaiting ∨ h.parsed ≠ h.deferredAt then ({ h with deferredAt := h.parsed }, true)
      else (h, false)

def earlier (deadline : Option Int) (next : Int) : Int :=
  match deadline with
  | none => next
  | some deadline => if deadline < next then deadline else next

def heartbeatBoundary (timeout : Int) : Option Int :=
  if h.nextPingAt = 0 then none
  else if h.pingOutstanding then h.expiryLocked timeout
  else some (earlier (h.expiryLocked timeout) h.nextPingAt)

def steady (now : Int) : Bool :=
  h.nextPingAt ≠ 0 && now < h.nextPingAt && h.armedAt = h.nextPingAt && h.sendStalledAt = 0 &&
    !h.pingOutstanding

end Heartbeat

section Decisions
variable (h : Heartbeat) (now timeout : Int) (waiting : Bool)

theorem deferExpiry_true
    (deferred : (h.deferExpiry now timeout waiting).2 = true) :
    h.pingOutstanding = true ∧ h.pingSentAt ≠ 0 ∧ ∃ deadline,
      h.expiryLocked timeout = some deadline ∧ deadline ≤ now ∧ now < deadline + timeout ∧
        (h.deferExpiry now timeout waiting).1 = { h with deferredAt := h.parsed } := by
  unfold Heartbeat.deferExpiry at deferred ⊢
  split at deferred
  · cases deferred
  · rename_i sent
    rw [if_neg sent]
    split at deferred
    · cases deferred
    · rename_i deadline expiry
      split at deferred
      · cases deferred
      · rename_i inside
        split at deferred
        · rename_i waits
          simp only [expiry, if_neg inside, if_pos waits]
          simp only [not_or, Bool.not_eq_false] at sent
          exact ⟨sent.1, sent.2, deadline, rfl, by omega, by omega, trivial⟩
        · cases deferred

theorem deferExpiry_false (kept : (h.deferExpiry now timeout waiting).2 = false) :
    (h.deferExpiry now timeout waiting).1 = h := by
  unfold Heartbeat.deferExpiry at kept ⊢
  split at kept
  · rename_i sent
    rw [if_pos sent]
  · rename_i sent
    rw [if_neg sent]
    split at kept
    · rfl
    · split at kept
      · rename_i outside
        rw [if_pos outside]
      · rename_i inside
        rw [if_neg inside]
        split at kept
        · cases kept
        · rename_i quiet
          rw [if_neg quiet]

theorem expirePing_false (kept : (h.expirePing now timeout).2 = false) :
    (h.expirePing now timeout).1 = h := by
  unfold Heartbeat.expirePing at kept ⊢
  split at kept
  · rename_i idle
    rw [if_pos idle]
    split at kept
    · rename_i early
      rw [if_pos early]
    · cases kept
  · rename_i outstanding
    rw [if_neg outstanding]
    split at kept
    · rename_i early
      rw [if_pos early]
    · cases kept

theorem expirePing_early (kept : (h.expirePing now timeout).2 = false)
    (outstanding : h.pingOutstanding = true) (sent : h.pingSentAt ≠ 0) :
    now < h.pingSentAt + timeout := by
  have started : h.startedAt = h.pingSentAt := if_pos sent
  simp only [Heartbeat.expirePing, outstanding, Bool.true_eq_false, if_false, started] at kept
  split at kept
  · omega
  · cases kept

theorem expirePing_true (expired : (h.expirePing now timeout).2 = true) :
    (h.expirePing now timeout).1.pingOutstanding = false ∧
      (h.expirePing now timeout).1.sendStalledAt = 0 ∧
      (h.pingOutstanding = true → h.startedAt + timeout ≤ now) := by
  unfold Heartbeat.expirePing at expired ⊢
  split at expired
  · rename_i idle
    rw [if_pos idle]
    split at expired
    · cases expired
    · rename_i late
      rw [if_neg late]
      exact ⟨idle, rfl, fun outstanding => absurd outstanding (by rw [idle]; decide)⟩
  · rename_i outstanding
    rw [if_neg outstanding]
    split at expired
    · cases expired
    · rename_i late
      rw [if_neg late]
      exact ⟨rfl, rfl, fun _ => by omega⟩

end Decisions

theorem ten_pos : (0 : Int) < 10 := by decide

end UwsHeartbeat
