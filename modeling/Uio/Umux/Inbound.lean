import Uio.Umux.Session

/- Receiving on a stream: the frame that arrives, the reads that consume it, and
   the session's receive budget. `pendingBytes` is an int64 that `releaseInbound`
   holds at zero from below, which is subtraction on Nat. -/
namespace UmuxInbound
open UmuxFrame UmuxOutbox UmuxSession UmuxWindow
variable (cfg : Endpoint) (s : Session)

/-- Take `n` bytes off the front; the second part is the credit to grant. -/
def Rx.consume (x : Rx) (n : Nat) : Rx × Nat :=
  (⟨x.inbuf.drop n, (x.win.consume n).1⟩, (x.win.consume n).2)

def grantOf (id grant : Nat) : List Section :=
  if grant = 0 then [] else [.sendWindowUpdate id grant]

def settles (x : Rx) (l : Life) : Bool :=
  x.inbuf.isEmpty && l.peerFIN && l.localFIN && !l.closedLocal

def read (r : Ref) (n : Nat) : Step :=
  let x := s.inbox.rx r
  if n = 0 ∨ x.inbuf = [] then (s, [])
  else
    let taken := min n x.inbuf.length
    let (x', grant) := Rx.consume x taken
    (s.setRx r x',
      .releaseInbound taken :: (if cfg.observer then [.callback none] else [])
        ++ grantOf (s.reg.idOf r) grant
        ++ (if settles x' (s.life r) || !cfg.handler then [.tryFinish r] else []))

def discardLength (x : Rx) (n : Int) : Nat :=
  if n < 0 ∨ (x.inbuf.length : Int) < n then x.inbuf.length else n.toNat

def discard (r : Ref) (n : Int) : Step :=
  let x := s.inbox.rx r
  let taken := discardLength x n
  let (x', grant) := Rx.consume x taken
  (s.setRx r x',
    .releaseInbound taken :: grantOf (s.reg.idOf r) grant
      ++ (if settles x' (s.life r) then [.tryFinish r] else []))

/-- One stream window of headroom under the budget, but at least half of it. -/
def lowWater : Nat :=
  if cfg.sessionWindow - cfg.windowSize < cfg.sessionWindow / 2 then cfg.sessionWindow / 2
  else cfg.sessionWindow - cfg.windowSize

def releaseInbound (n : Nat) : Step :=
  let left := s.inbox.pendingBytes - n
  if s.inbox.readHeld ∧ left ≤ lowWater cfg then
    ({ s with inbox := { s.inbox with pendingBytes := left, readHeld := false } }, [.connWake])
  else ({ s with inbox := { s.inbox with pendingBytes := left } }, [])

def exhaustedBudget : Step :=
  if s.inbox.pendingBytes ≤ cfg.sessionWindow then (s, [.readFrame])
  else
    ({ s with inbox := { s.inbox with readHeld := true } },
      [.flush, .runWakes, .drainCloses, .turnEnd])

def heldReads : Step :=
  if s.inbox.readHeld = false then (s, [.readFrame])
  else if s.inbox.pendingBytes ≤ lowWater cfg then
    ({ s with inbox := { s.inbox with readHeld := false } }, [.readFrame])
  else (s, [.flush, .runWakes, .drainCloses, .turnEnd])

def reserveInbound (r : Ref) (payload : List UInt8) (fin : Bool) (after : AfterPush) : Step :=
  ({ s with inbox := { s.inbox with pendingBytes := s.inbox.pendingBytes + payload.length } },
    [.pushData r payload fin after])

def afterPush (r : Ref) : AfterPush → List Section
  | .reset => [.abortRemote r .streamReset]
  | .dispatch => [.dispatchRead r]
  | .dispatchGrant delta => .dispatchRead r :: if delta = 0 then [] else [.grantWindow r delta]

def peerEnds (r : Ref) (s : Session) : Session :=
  let l := s.life r
  (s.setLife r { l with peerFIN := true }).setWatch r
    { s.time.watch r with halfSince := if l.localFIN then none else some s.time.clock }

def pushData (r : Ref) (payload : List UInt8) (fin : Bool) (after : AfterPush) : Step :=
  let l := s.life r
  let x := s.inbox.rx r
  let n := payload.length
  if l.closedLocal then (s, .releaseInbound n :: afterPush r after ++ [Section.afterFrame])
  else if n ≠ 0 ∧ (x.win.onData n).2 ≠ none then
    ({ s.setRx r { x with win := (x.win.onData n).1 } with turnErr := some .windowExceeded },
      [.releaseInbound n, .afterFrame])
  else
    let s := if n = 0 then s else s.setRx r ⟨x.inbuf ++ payload, (x.win.onData n).1⟩
    if fin ∧ l.peerFIN = false then
      (peerEnds r s,
        (if l.localFIN then [] else [Section.rearmTimer]) ++ afterPush r after ++ [Section.afterFrame])
    else (s, afterPush r after ++ [Section.afterFrame])

/-- A grant the stream took wakes its writers: the observers hear of it and an
    empty read turn runs. -/
def grantWindow (r : Ref) (delta : Nat) : Step :=
  if (s.life r).closedLocal then (s, [])
  else
    match (s.win r).grant delta with
    | .error _ => (s, [])
    | .ok w =>
      ({ s with win := Function.update s.win r w },
        (if cfg.observer || cfg.drainObs then [.callback none] else []) ++ [.dispatchRead r])

def held (l : Life) : Bool := !l.pausedBy.isEmpty || l.resumeOwed

def pauseReads (r : Ref) (owner : Nat) : Step :=
  if s.status.closed || (s.life r).closedLocal then (s, []) else (s, [.pauseHold r owner])

def pauseHold (r : Ref) (owner : Nat) : Step :=
  let l := s.life r
  if owner ∈ l.pausedBy then (s, [])
  else (s.setLife r { l with pausedBy := owner :: l.pausedBy }, [])

/-- The application's own owner, `0` here, is checked against the stream's life;
    the others are not. -/
def resumeReads (r : Ref) (owner : Nat) : Step :=
  if owner = 0 ∧ (s.status.closed || (s.life r).closedLocal) then (s, [])
  else (s, [.resumeRelease r owner])

def resumeRelease (r : Ref) (owner : Nat) : Step :=
  let l := s.life r
  if owner ∈ l.pausedBy then
    let left := l.pausedBy.erase owner
    (s.setLife r { l with pausedBy := left, resumeOwed := true },
      if left.isEmpty then [.wake r] else [])
  else (s, [])

def wake (r : Ref) : Step :=
  let l := s.life r
  if cfg.handler = false ∨ s.status.closed ∨ l.closedLocal then (s, [])
  else if l.wakePending then (s, [.connWake])
  else ({ s.setLife r { l with wakePending := true } with wakeQ := s.wakeQ ++ [r] }, [.connWake])

def yieldRead (r : Ref) : Step :=
  (s.setLife r { s.life r with yieldOwed := true }, [.wake r])

end UmuxInbound
