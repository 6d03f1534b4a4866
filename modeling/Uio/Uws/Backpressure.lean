import Uio.Monitor

/-!
The pauses a WebSocket connection holds on its transport's reads: one for its outbound
watermark, one for the application, each its own owner there and each mirrored in a bit
that read rounds and progress reports look at without a lock. Every atomic operation of
the source is one section; the transport's queue, its lifecycle, the pauses of its other
owners and the reply ledger's verdict belong to the environment.
-/
namespace UwsBackpressure
open Interleaving

inductive Owner where
  | internal
  | external
deriving DecidableEq

structure Marks where
  outboundLow : Nat
  outboundHigh : Nat

/-- `readPaused` are the mirror bits, `paused` the flags of the two pauses, `owners` the
    count of all pauses that the transport reads. -/
structure State where
  opened : Bool := false
  closing : Bool := false
  closed : Bool := false
  readPaused : Owner → Bool := fun _ => false
  readPauses : Bool := false
  mu : Bool := false
  paused : Owner → Bool := fun _ => false
  owners : Nat := 0
  owed : Bool := false
  turns : Nat := 0
  foreign : Nat := 0
  boundaryClosed : Bool := false
  outboundBuffered : Nat := 0
  -- Which of the two ways of closing have begun.
  marked : Bool := false
  aborted : Bool := false

/-- How many bytes the transport takes or retires, and what the reply ledger says. -/
structure Choice where
  bytes : Nat := 0
  follows : Bool := false
  own : Nat := 0

inductive Call where
  | pauseReads
  | resumeReads

inductive Locker where
  | setInternalReadPause (paused : Bool)
  | checked (call : Call)
  | releaseReadPauses

/-- What follows a `Resume`: the other owner's, or the unlock, after which `holdReads`
    looks at the queue again if it asked for the pause. -/
inductive Then where
  | internal
  | unlock (recheck : Bool)

inductive Section where
  | enqueue
  | retire
  | resumeReadsAfterDrain
  | drainQueue
  | drainReplies
  | holdsReplies
  | roundPaused
  | roundQueue
  | holdReads
  | holdQueue
  | holdRecheck
  | setInternalReadPause (paused : Bool)
  | setClosing
  | setEnsure
  | lock (locker : Locker)
  | setDecide (asked : Bool)
  | setCompare (asked paused : Bool)
  | setClear (asked : Bool)
  | checkClosed (call : Call) (again : Bool)
  | checkClosing (call : Call) (again : Bool)
  | checkOpened (call : Call) (again : Bool)
  | pauseEnsure
  | resumeLoad
  | resumeBit
  | resumeClear
  | pauseCheck (owner : Owner)
  | pauseCount (owner : Owner)
  | pauseFlag (owner : Owner)
  | publish (owner : Owner)
  | resumeFlag (owner : Owner) (next : Then)
  | resumeCount (owner : Owner) (next : Then)
  | unlock (recheck : Bool)
  | markClosing
  | releaseLoad
  | releaseSwap
  | heartbeatFailed
  | heartbeatClosing
  | abortTransport
  | opens
  | closes
  | foreignPause
  | foreignResume

def Then.section : Then → Section
  | .internal => .resumeFlag .internal (.unlock false)
  | .unlock recheck => .unlock recheck

def Locker.section : Locker → Section
  | .setInternalReadPause paused => .setDecide paused
  | .checked call => .checkClosed call true
  | .releaseReadPauses => .releaseSwap

/-- What `checkReadControl` leads to: its second run is under the mutex. -/
def checkRefused (again : Bool) : List Section := if again then [.unlock false] else []

def checkPassed : Call → Bool → Section
  | .pauseReads, false => .pauseEnsure
  | .pauseReads, true => .pauseCheck .external
  | .resumeReads, false => .resumeLoad
  | .resumeReads, true => .resumeBit

def recheckOf (owner : Owner) : Bool := owner == .internal

variable (m : Marks)

def exec (c : Choice) : Section → State → State × List Section
  | .enqueue, s => ({ s with outboundBuffered := s.outboundBuffered + c.bytes }, [])
  -- The bytes are retired before the report that follows.
  | .retire, s =>
    ({ s with outboundBuffered := s.outboundBuffered - c.bytes }, [.resumeReadsAfterDrain])
  | .resumeReadsAfterDrain, s =>
    if s.readPaused .internal then (s, [.drainQueue]) else (s, [.drainReplies])
  | .drainQueue, s =>
    if m.outboundLow < s.outboundBuffered then (s, []) else (s, [.setInternalReadPause false])
  | .drainReplies, s =>
    if c.follows && decide (s.outboundBuffered ≤ m.outboundLow) then
      ({ s with turns := s.turns + 1 }, [])
    else (s, [])
  | .holdsReplies, s => if s.closing then (s, []) else (s, [.roundPaused])
  | .roundPaused, s =>
    if s.readPaused .internal then (s, [.holdReads]) else (s, [.roundQueue])
  | .roundQueue, s =>
    if s.outboundBuffered ≤ m.outboundLow then (s, [])
    else if s.outboundBuffered < m.outboundHigh ∨ c.follows = false then (s, [])
    else if c.own < m.outboundHigh - m.outboundLow then (s, [])
    else (s, [.holdReads])
  | .holdReads, s =>
    if s.readPaused .internal then (s, [.holdQueue]) else (s, [.setInternalReadPause true])
  | .holdQueue, s =>
    if m.outboundLow < s.outboundBuffered then (s, []) else (s, [.setInternalReadPause false])
  | .holdRecheck, s =>
    if s.outboundBuffered ≤ m.outboundLow then (s, [.setInternalReadPause false]) else (s, [])
  | .setInternalReadPause paused, s =>
    if s.readPauses then (s, [.lock (.setInternalReadPause paused)])
    else if paused then (s, [.setClosing])
    else (s, [])
  | .setClosing, s => if s.closing then (s, []) else (s, [.setEnsure])
  | .setEnsure, s => ({ s with readPauses := true }, [.lock (.setInternalReadPause true)])
  | .lock locker, s => ({ s with mu := true }, [locker.section])
  | .setDecide asked, s => (s, [.setCompare asked (asked && !s.closing)])
  | .setCompare asked paused, s =>
    if s.readPaused .internal == paused then (s, [.unlock false])
    else if paused then (s, [.pauseCheck .internal])
    else (s, [.setClear asked])
  | .setClear asked, s =>
    ({ s with readPaused := Function.update s.readPaused .internal false },
      [.resumeFlag .internal (.unlock asked)])
  | .checkClosed call again, s =>
    if s.closed then (s, checkRefused again) else (s, [.checkClosing call again])
  | .checkClosing call again, s =>
    if s.closing then (s, checkRefused again) else (s, [.checkOpened call again])
  | .checkOpened call again, s =>
    if s.opened then (s, [checkPassed call again]) else (s, checkRefused again)
  | .pauseEnsure, s => ({ s with readPauses := true }, [.lock (.checked .pauseReads)])
  | .resumeLoad, s => if s.readPauses then (s, [.lock (.checked .resumeReads)]) else (s, [])
  | .resumeBit, s => if s.readPaused .external then (s, [.resumeClear]) else (s, [.unlock false])
  | .resumeClear, s =>
    ({ s with readPaused := Function.update s.readPaused .external false },
      [.resumeFlag .external (.unlock false)])
  | .pauseCheck owner, s =>
    if s.boundaryClosed then (s, [.unlock false]) else (s, [.pauseCount owner])
  | .pauseCount owner, s =>
    if s.paused owner then (s, [.publish owner])
    else ({ s with owners := s.owners + 1 }, [.pauseFlag owner])
  | .pauseFlag owner, s =>
    ({ s with paused := Function.update s.paused owner true }, [.publish owner])
  | .publish owner, s =>
    ({ s with readPaused := Function.update s.readPaused owner true },
      [.unlock (recheckOf owner)])
  | .resumeFlag owner next, s =>
    if s.paused owner then
      ({ s with paused := Function.update s.paused owner false, owed := true },
        [.resumeCount owner next])
    else (s, [next.section])
  | .resumeCount _ next, s =>
    ({ s with
        owners := s.owners - 1
        turns := if s.owners = 1 then s.turns + 1 else s.turns }, [next.section])
  | .unlock recheck, s => ({ s with mu := false }, if recheck then [.holdRecheck] else [])
  | .markClosing, s => ({ s with closing := true, marked := true }, [.releaseLoad])
  | .releaseLoad, s => if s.readPauses then (s, [.lock .releaseReadPauses]) else (s, [])
  | .releaseSwap, s =>
    ({ s with readPaused := fun _ => false }, [.resumeFlag .external .internal])
  -- A heartbeat whose Ping could not be queued closes without `markClosing`.
  | .heartbeatFailed, s => if s.closed || s.closing then (s, []) else (s, [.heartbeatClosing])
  | .heartbeatClosing, s => ({ s with closing := true, aborted := true }, [.abortTransport])
  | .abortTransport, s => ({ s with boundaryClosed := true }, [])
  | .opens, s => ({ s with opened := true }, [])
  | .closes, s => ({ s with closed := true, boundaryClosed := true }, [])
  | .foreignPause, s => ({ s with owners := s.owners + 1, foreign := s.foreign + 1 }, [])
  | .foreignResume, s =>
    ({ s with
        owners := s.owners - 1
        foreign := s.foreign - 1
        turns := if s.owners = 1 then s.turns + 1 else s.turns }, [])

/-- Calls from outside: the transport, read rounds, the application, the close paths. -/
def entry : Section → Bool
  | .enqueue | .retire | .holdsReplies | .markClosing | .heartbeatFailed | .opens | .closes
  | .foreignPause | .foreignResume => true
  | .checkClosed _ again => !again
  | _ => false

def ready : Section → State → Bool
  | .lock _, s => !s.mu
  | .foreignPause, s => !s.boundaryClosed
  | .foreignResume, s => decide (0 < s.foreign)
  | _, _ => true

def program : Program State Section Choice := ⟨entry, ready, exec m⟩

def start : Pool State Section := ⟨{}, []⟩

inductive Step (s : State) : Section → State → List Section → Prop where
  | enqueue (n : Nat) : Step s .enqueue { s with outboundBuffered := s.outboundBuffered + n } []
  | retire (n : Nat) : Step s .retire { s with outboundBuffered := s.outboundBuffered - n }
      [.resumeReadsAfterDrain]
  | drainPaused : s.readPaused .internal = true → Step s .resumeReadsAfterDrain s [.drainQueue]
  | drainFree : s.readPaused .internal = false → Step s .resumeReadsAfterDrain s [.drainReplies]
  | drainAbove : m.outboundLow < s.outboundBuffered → Step s .drainQueue s []
  | drainBelow : Step s .drainQueue s [.setInternalReadPause false]
  | drainReplies (turns : Nat) : Step s .drainReplies { s with turns := turns } []
  | roundEnds : Step s .holdsReplies s []
  | roundOpen : Step s .holdsReplies s [.roundPaused]
  | roundHeld : Step s .roundPaused s [.holdReads]
  | roundFree : Step s .roundPaused s [.roundQueue]
  | roundGoesOn : Step s .roundQueue s []
  | roundBacksUp : Step s .roundQueue s [.holdReads]
  | holdPaused : Step s .holdReads s [.holdQueue]
  | holdFree : Step s .holdReads s [.setInternalReadPause true]
  | holdAbove : m.outboundLow < s.outboundBuffered → Step s .holdQueue s []
  | holdBelow : Step s .holdQueue s [.setInternalReadPause false]
  | recheckBelow : Step s .holdRecheck s [.setInternalReadPause false]
  | recheckAbove : m.outboundLow < s.outboundBuffered → Step s .holdRecheck s []
  | setLocks (paused : Bool) : s.readPauses = true →
      Step s (.setInternalReadPause paused) s [.lock (.setInternalReadPause paused)]
  | setFirst : s.readPauses = false → Step s (.setInternalReadPause true) s [.setClosing]
  | setNothing : s.readPauses = false → Step s (.setInternalReadPause false) s []
  | setRefused : Step s .setClosing s []
  | setCreates : Step s .setClosing s [.setEnsure]
  | setEnsure : Step s .setEnsure { s with readPauses := true }
      [.lock (.setInternalReadPause true)]
  | lockSet (paused : Bool) : s.mu = false →
      Step s (.lock (.setInternalReadPause paused)) { s with mu := true } [.setDecide paused]
  | lockCheck (call : Call) : s.mu = false →
      Step s (.lock (.checked call)) { s with mu := true } [.checkClosed call true]
  | lockRelease : s.mu = false →
      Step s (.lock .releaseReadPauses) { s with mu := true } [.releaseSwap]
  | setDecide (asked : Bool) :
      Step s (.setDecide asked) s [.setCompare asked (asked && !s.closing)]
  | setSame (asked paused : Bool) : s.readPaused .internal = paused →
      Step s (.setCompare asked paused) s [.unlock false]
  | setPauses (asked : Bool) : s.readPaused .internal = false →
      Step s (.setCompare asked true) s [.pauseCheck .internal]
  | setResumes (asked : Bool) : s.readPaused .internal = true →
      Step s (.setCompare asked false) s [.setClear asked]
  | setClear (asked : Bool) : Step s (.setClear asked)
      { s with readPaused := Function.update s.readPaused .internal false }
      [.resumeFlag .internal (.unlock asked)]
  | closedRefuses (call : Call) : Step s (.checkClosed call false) s []
  | closedUnlocks (call : Call) : Step s (.checkClosed call true) s [.unlock false]
  | closedPasses (call : Call) (again : Bool) :
      Step s (.checkClosed call again) s [.checkClosing call again]
  | closingRefuses (call : Call) : Step s (.checkClosing call false) s []
  | closingUnlocks (call : Call) : Step s (.checkClosing call true) s [.unlock false]
  | closingPasses (call : Call) (again : Bool) : s.closing = false →
      Step s (.checkClosing call again) s [.checkOpened call again]
  | openedRefuses (call : Call) : Step s (.checkOpened call false) s []
  | openedUnlocks (call : Call) : Step s (.checkOpened call true) s [.unlock false]
  | pausePasses : Step s (.checkOpened .pauseReads false) s [.pauseEnsure]
  | pausePassesLocked : Step s (.checkOpened .pauseReads true) s [.pauseCheck .external]
  | resumePasses : Step s (.checkOpened .resumeReads false) s [.resumeLoad]
  | resumePassesLocked : Step s (.checkOpened .resumeReads true) s [.resumeBit]
  | pauseEnsure : Step s .pauseEnsure { s with readPauses := true }
      [.lock (.checked .pauseReads)]
  | resumeLocks : s.readPauses = true → Step s .resumeLoad s [.lock (.checked .resumeReads)]
  | resumeNothing : Step s .resumeLoad s []
  | resumeHeld : Step s .resumeBit s [.resumeClear]
  | resumeFree : Step s .resumeBit s [.unlock false]
  | resumeClear : Step s .resumeClear
      { s with readPaused := Function.update s.readPaused .external false }
      [.resumeFlag .external (.unlock false)]
  | pauseRefused (owner : Owner) : Step s (.pauseCheck owner) s [.unlock false]
  | pauseAllowed (owner : Owner) : Step s (.pauseCheck owner) s [.pauseCount owner]
  | pauseAgain (owner : Owner) : s.paused owner = true →
      Step s (.pauseCount owner) s [.publish owner]
  | pauseCounts (owner : Owner) : s.paused owner = false →
      Step s (.pauseCount owner) { s with owners := s.owners + 1 } [.pauseFlag owner]
  | pauseFlag (owner : Owner) : Step s (.pauseFlag owner)
      { s with paused := Function.update s.paused owner true } [.publish owner]
  | publishInternal : Step s (.publish .internal)
      { s with readPaused := Function.update s.readPaused .internal true } [.unlock true]
  | publishExternal : Step s (.publish .external)
      { s with readPaused := Function.update s.readPaused .external true } [.unlock false]
  | resumeDrops (owner : Owner) (next : Then) : s.paused owner = true →
      Step s (.resumeFlag owner next)
        { s with paused := Function.update s.paused owner false, owed := true }
        [.resumeCount owner next]
  | skipsToInternal (owner : Owner) : s.paused owner = false →
      Step s (.resumeFlag owner .internal) s [.resumeFlag .internal (.unlock false)]
  | skipsToUnlock (owner : Owner) (recheck : Bool) : s.paused owner = false →
      Step s (.resumeFlag owner (.unlock recheck)) s [.unlock recheck]
  | countsToInternal (owner : Owner) (turns : Nat) : Step s (.resumeCount owner .internal)
      { s with owners := s.owners - 1, turns := turns } [.resumeFlag .internal (.unlock false)]
  | countsToUnlock (owner : Owner) (recheck : Bool) (turns : Nat) :
      Step s (.resumeCount owner (.unlock recheck))
        { s with owners := s.owners - 1, turns := turns } [.unlock recheck]
  | unlockEnds : Step s (.unlock false) { s with mu := false } []
  | unlockRechecks : Step s (.unlock true) { s with mu := false } [.holdRecheck]
  | markClosing : Step s .markClosing { s with closing := true, marked := true } [.releaseLoad]
  | releaseLocks : s.readPauses = true → Step s .releaseLoad s [.lock .releaseReadPauses]
  | releaseNothing : s.readPauses = false → Step s .releaseLoad s []
  | releaseSwap : Step s .releaseSwap { s with readPaused := fun _ => false }
      [.resumeFlag .external .internal]
  | heartbeatLate : Step s .heartbeatFailed s []
  | heartbeatFailed : Step s .heartbeatFailed s [.heartbeatClosing]
  | heartbeatClosing : Step s .heartbeatClosing { s with closing := true, aborted := true }
      [.abortTransport]
  | abortTransport : Step s .abortTransport { s with boundaryClosed := true } []
  | opens : Step s .opens { s with opened := true } []
  | closes : Step s .closes { s with closed := true, boundaryClosed := true } []
  | foreignPause : Step s .foreignPause
      { s with owners := s.owners + 1, foreign := s.foreign + 1 } []
  | foreignResume (turns : Nat) : 0 < s.foreign → Step s .foreignResume
      { s with owners := s.owners - 1, foreign := s.foreign - 1, turns := turns } []

theorem exec_step (c : Choice) (a : Section) (s : State) (allowed : ready a s = true) :
    Step m s a (exec m c a s).1 (exec m c a s).2 := by
  cases a with
  | setInternalReadPause paused =>
    cases paused <;> simp only [exec] <;> split_ifs with created <;>
      first
      | exact .setLocks _ created
      | exact .setFirst (Bool.eq_false_iff.mpr created)
      | exact .setNothing (Bool.eq_false_iff.mpr created)
      | contradiction
  | setCompare asked paused =>
    simp only [exec]
    cases held : s.readPaused .internal <;> cases paused
    · exact .setSame asked false held
    · exact .setPauses asked held
    · exact .setResumes asked held
    · exact .setSame asked true held
  | unlock recheck | publish recheck | resumeCount owner recheck => cases recheck <;> constructor
  | lock locker =>
    have free : s.mu = false := by simpa [ready] using allowed
    cases locker
    · exact .lockSet _ free
    · exact .lockCheck _ free
    · exact .lockRelease free
  | checkClosed call again =>
    simp only [exec]
    split_ifs
    · cases again <;> constructor
    · constructor
  | checkClosing call again =>
    simp only [exec]
    split_ifs with closing
    · cases again <;> constructor
    · exact .closingPasses call again (Bool.eq_false_iff.mpr closing)
  | checkOpened call again =>
    simp only [exec]
    split_ifs
    · cases call <;> cases again <;> constructor
    · cases again <;> constructor
  | resumeFlag owner next =>
    simp only [exec]
    split_ifs with held
    · exact .resumeDrops owner next held
    · cases next
      · exact .skipsToInternal owner (Bool.eq_false_iff.mpr held)
      · exact .skipsToUnlock owner _ (Bool.eq_false_iff.mpr held)
  | foreignResume => exact .foreignResume _ (by simpa [ready] using allowed)
  | drainReplies =>
    simp only [exec]
    split_ifs
    · exact .drainReplies _
    · exact .drainReplies s.turns
  | _ =>
    simp only [exec]
    try split_ifs
    all_goals first | (constructor; done) | (constructor; simp_all)

end UwsBackpressure
