import Uio.Uws.CloseFacts

/-!
Closing the transport. Whoever asks for it has a Close queued, has marked the connection
closing and has handed the batch over, all under the write lock; from then on no frame
enters the batch any more. The phase only moves forward, and its last move is a claim.
-/
namespace UwsTransportClose
open Interleaving Monitor UwsWrites UwsWriteSteps UwsOneClose UwsWriteOrder UwsCloseFacts
open List (mem_cons not_mem_nil)

variable {tracked : Bool} {s s' : State} {a b : Section} {more : List Section}
  {others owing : Multiset Section}

inductive PhaseMove (tracked : Bool) (s : State) (a : Section) : Phase → Prop where
  | stays : PhaseMove tracked s a s.phase
  | request : s.phase = .idle → PhaseMove tracked s a .pending
  | graceful : a = .claim → claimable tracked s = true → PhaseMove tracked s a .claimed
  | abort : a = .claimAbort → s.phase ≠ .claimed → PhaseMove tracked s a .claimed

theorem phase_step (step : Step tracked s a s' more) : PhaseMove tracked s a s'.phase := by
  cases step
  case claimAbort unclaimed => exact .abort rfl unclaimed
  case claim able => exact .graceful rfl able
  case requestTransportClose job unclaimed =>
    cases was : s.phase with
    | idle => exact .request was
    | pending => exact (was ▸ PhaseMove.stays : PhaseMove tracked s _ .pending)
    | claimed => exact absurd was unclaimed
  all_goals exact .stays

def drained : Section → Bool
  | .flushCount _ _ _ | .flushWrite _ _ _ | .flushRollback _ _ _ _ | .flushed _ _ _
  | .rawFlush _ _ => true
  | .closingMark job r _ => job == .heartbeatClose && r == .ok
  | .unlockCheck job r _ => job.isClose && r == .ok
  | _ => false

def empty : Guarded State Section := ⟨fun _ => True, fun s a => drained a = true → s.batch = []⟩

section Runs

variable {ok : Choice → Section → State → Prop} {h : Nat} {q : Pool State Section}

end Runs

theorem claimed_step (step : Step tracked s a s' more) (claimed : s.phase = .claimed) :
    s'.phase = .claimed := by
  have moved := phase_step step
  generalize s'.phase = after at moved
  cases moved with
  | stays => exact claimed
  | request idle => rw [claimed] at idle; cases idle
  | graceful => rfl
  | abort => rfl

section Runs

variable {ok : Choice → Section → State → Prop} {h : Nat} {q : Pool State Section}

structure Drained (tracked : Bool) (s : State) (owing : Multiset Section) : Prop where
  deferred : s.closeFrameDeferred = false
  batch : tracked = false → s.batch = [] ∨ s.rawClosed = true
  bytes : tracked = false → s.reportedBytes = s.acceptedBytes ∧ weigh offered owing = 0
  receipt : tracked = true → Proven s

end Runs

end UwsTransportClose
