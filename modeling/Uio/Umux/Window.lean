import Mathlib

/- The two flow-control windows of one stream. The code's int64 counters never
   go below zero, since every subtraction is guarded, so they are Nat here. -/
namespace UmuxWindow

inductive WindowError where
  | exceeded
  | invalid
  deriving DecidableEq, Repr

structure SendWindow where
  avail : Nat
  max : Nat
  deriving DecidableEq, Repr

def newSendWindow (size : Nat) : SendWindow := ⟨size, size⟩

def SendWindow.reset (_ : SendWindow) (size : Nat) : SendWindow := ⟨size, size⟩

def SendWindow.take (w : SendWindow) (n : Nat) : SendWindow × Bool :=
  if w.avail < n then (w, false) else ({ w with avail := w.avail - n }, true)

def SendWindow.grant (w : SendWindow) (delta : Nat) : Except WindowError SendWindow :=
  if delta = 0 then .error .invalid
  else if w.max < w.avail + delta then .error .exceeded
  else .ok { w with avail := w.avail + delta }

structure RecvWindow where
  size : Nat
  buffered : Nat
  consumed : Nat
  grant : Nat
  deriving DecidableEq, Repr

def quarter (small : Nat) : Nat := if small / 4 < 1 then 1 else small / 4

def RecvWindow.retune (w : RecvWindow) (peerWindow : Nat) : RecvWindow :=
  { w with grant := quarter (if peerWindow < w.size then peerWindow else w.size) }

def newRecvWindow (size : Nat) : RecvWindow :=
  RecvWindow.retune ⟨size, 0, 0, 0⟩ size

def RecvWindow.onData (w : RecvWindow) (n : Nat) : RecvWindow × Option WindowError :=
  let w' := { w with buffered := w.buffered + n }
  (w', if w'.size < w'.buffered then some .exceeded else none)

def RecvWindow.threshold (w : RecvWindow) : Nat := if w.grant = 0 then 1 else w.grant

def RecvWindow.consume (w : RecvWindow) (n : Nat) : RecvWindow × Nat :=
  if n = 0 ∨ w.buffered < n then (w, 0)
  else if w.threshold ≤ w.consumed + n then
    ({ w with buffered := w.buffered - n, consumed := 0 }, w.consumed + n)
  else ({ w with buffered := w.buffered - n, consumed := w.consumed + n }, 0)

theorem quarter_positive (small : Nat) : 0 < quarter small := by
  unfold quarter
  split <;> omega

theorem retune_grant (w : RecvWindow) (peer : Nat) :
    (w.retune peer).grant = quarter (min peer w.size) := by
  simp only [RecvWindow.retune]
  congr 1
  split <;> omega

theorem consume_balance {w : RecvWindow} {n : Nat} (covered : n ≤ w.buffered) :
    (w.consume n).1.buffered + n = w.buffered ∧
      (w.consume n).1.consumed + (w.consume n).2 = w.consumed + n := by
  unfold RecvWindow.consume
  split
  · simp only
    omega
  · split <;> simp only <;> omega

theorem consume_settings (w : RecvWindow) (n : Nat) :
    (w.consume n).1.size = w.size ∧ (w.consume n).1.grant = w.grant := by
  unfold RecvWindow.consume
  split
  · exact ⟨rfl, rfl⟩
  · split <;> exact ⟨rfl, rfl⟩

theorem consume_grant_le (w : RecvWindow) (n : Nat) : (w.consume n).2 ≤ w.consumed + n := by
  unfold RecvWindow.consume
  split
  · exact Nat.zero_le _
  · split
    · exact (Nat.le_refl _)
    · exact Nat.zero_le _

theorem onData_ok_iff (w : RecvWindow) (n : Nat) :
    (w.onData n).2 = none ↔ w.buffered + n ≤ w.size := by
  simp only [RecvWindow.onData]
  split <;> simp <;> omega

end UmuxWindow
