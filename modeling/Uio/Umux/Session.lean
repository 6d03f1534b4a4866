import Uio.Umux.Outbox
import Uio.Umux.Settings
import Uio.Umux.Window

/-!
The state of one session and of its streams, and the atomic sections its threads
are made of. A section is what the code does under one hold of its locks, or one
atomic operation; what a call remembers from one to the next travels as the
section's arguments. The fields are grouped by what they serve, so that a section
leaves most groups alone by definition. `rcvd`, `accepted`, `sent`, `returned` and
`log` only record what happened.
-/
namespace UmuxSession
open UmuxFrame UmuxOutbox UmuxSettings UmuxWindow

/-- What a session is built with: the resolved configuration and its side. -/
structure Endpoint extends Settings where
  client : Bool

/-- The stream table with the waiters of Open, and the objects made so far:
    `idOf r` is the wire id of the stream object `r`, for `r < fresh`. -/
structure Registry where
  streams : Table := ∅
  openWait : Table := ∅
  nextID : Nat
  fresh : Nat := 0
  idOf : Ref → Nat := fun _ => 0

structure Rx where
  inbuf : List UInt8 := []
  win : RecvWindow

structure Inbox where
  rx : Ref → Rx
  pendingBytes : Nat := 0
  readHeld : Bool := false

/-- The flags of one stream. `pausedBy` holds the owners of a read pause,
    `resumeOwed` a released pause whose read turn has not run. -/
structure Life where
  opening : Bool := false
  peerFIN : Bool := false
  localFIN : Bool := false
  callbackActive : Bool := false
  yieldOwed : Bool := false
  wakePending : Bool := false
  closedLocal : Bool := false
  closeDelivered : Bool := false
  closedErr : Option Cause := none
  pausedBy : List Nat := []
  resumeOwed : Bool := false

structure Watch where
  openedAt : Nat := 0
  halfSince : Option Nat := none
  wakeAt : Option Nat := none
  wakeDu : Nat := 0
  readDeadline : Option Nat := none
  writeDeadline : Option Nat := none

/-- `armed` is the wake deadline the transport holds, `armedAt` what the session
    believes it to be, `timerMu` whether a thread is between computing a deadline
    and submitting it. -/
structure Clockwork where
  clock : Nat
  watch : Ref → Watch := fun _ => {}
  lastPing : Nat
  pingSent : Option Nat := none
  pingSeq : Nat := 0
  armedAt : Option Nat := none
  armed : Option Nat := none
  timerMu : Bool := false

structure Waiters where
  mailbox : Ref → Option (Option Cause) := fun _ => none
  sent : Ref → Nat := fun _ => 0
  returned : Ref → Bool := fun _ => false

structure Status where
  goAway : Bool := false
  closed : Bool := false
  closeErr : Option Cause := none
  draining : Bool := false
  drainClosed : Bool := false
  drainErr : Option Cause := none

inductive Event where
  | onMetadata (r : Ref)
  | onOpen (r : Ref)
  | onRead (r : Ref)
  | onTimer (r : Ref)
  | onClose (r : Ref) (cause : Cause)
  deriving DecidableEq, Repr

/-- `busy` says that a turn of the transport runs, `ended` that its last turn began,
    `turnErr` what the handler of the turn's current frame returned. -/
structure Session where
  reg : Registry
  box : Outbox := {}
  inbox : Inbox
  win : Ref → SendWindow
  wmu : Ref → Bool := fun _ => false
  life : Ref → Life := fun _ => {}
  time : Clockwork
  mail : Waiters := {}
  status : Status := {}
  closeQ : List (Ref × Cause) := []
  wakeQ : List Ref := []
  acceptQ : Nat := 0
  busy : Bool := false
  ended : Bool := false
  turnErr : Option Cause := none
  rcvd : List Frame := []
  accepted : Ref → List UInt8 := fun _ => []
  log : List Event := []

/-- What `handleData` and `handleWindowUpdate` do once `pushData` took the frame. -/
inductive AfterPush where
  | reset
  | dispatch
  | dispatchGrant (delta : Nat)

inductive Section where
  -- the environment
  | tick (elapsed : Nat)
  | transportSent (n : Nat)
  | acceptReceive
  | turnRead
  | turnTimer
  | turnClose (cause : Cause)
  -- calls on the session
  | openStream (metadata : List UInt8)
  | close (cause : Cause)
  | shutdown
  -- calls on a stream
  | write (r : Ref) (p : List UInt8)
  | writeOwned (r : Ref) (p : List UInt8)
  | read (r : Ref) (n : Nat)
  | discard (r : Ref) (n : Int)
  | closeWrite (r : Ref)
  | closeLocal (r : Ref) (cause : Option Cause)
  | abortStream (r : Ref) (cause : Cause)
  | setWakeDeadline (r : Ref) (moment : Option Nat)
  | setWakeInterval (r : Ref) (interval : Int)
  | setDeadlines (r : Ref) (read write : Option Nat) (setRead setWrite : Bool)
  | wake (r : Ref)
  | yieldRead (r : Ref)
  | pauseReads (r : Ref) (owner : Nat)
  | resumeReads (r : Ref) (owner : Nat)
  -- the rest of Open and of Shutdown
  | waitOpen (r : Ref)
  | waitDrain
  | forceDrain (cause : Cause)
  | maybeFinishDrain
  -- the rest of a write
  | frameData (r : Ref) (p : List UInt8)
  | writeDone (r : Ref) (framed : Bool)
  | enqueueFin (r : Ref)
  | closeWriteDone (r : Ref)
  | requestFlush
  | connWake
  | flush
  | emitDrained
  | closeConn (cause : Cause)
  -- the rest of a read
  | releaseInbound (n : Nat)
  | sendWindowUpdate (id delta : Nat)
  | pauseHold (r : Ref) (owner : Nat)
  | resumeRelease (r : Ref) (owner : Nat)
  -- the end of a stream
  | tryFinish (r : Ref)
  | removeStream (r : Ref) (reset : Option Cause)
  | abortRemote (r : Ref) (cause : Cause)
  | resetStream (r : Ref) (cause : Cause)
  | answer (r : Ref) (result : Option Cause)
  | deliverClose (r : Ref) (cause : Cause)
  | queueClose (r : Ref) (cause : Cause)
  | drainCloses
  -- a read turn
  | onRead
  | heldReads
  | readFrame
  | reserveInbound (r : Ref) (payload : List UInt8) (fin : Bool) (after : AfterPush)
  | pushData (r : Ref) (payload : List UInt8) (fin : Bool) (after : AfterPush)
  | establish (r w : Ref) (delta : Nat)
  | acceptVet (id delta : Nat) (metadata : List UInt8)
  | afterFrame
  | exhaustedBudget
  | failTurn (cause : Cause)
  | turnEnd
  | grantWindow (r : Ref) (delta : Nat)
  | acceptDeliver (r : Ref)
  | runWakes
  -- callbacks of the handler
  | dispatchRead (r : Ref)
  | invokeRead (r : Ref)
  | invokeTimer (r : Ref)
  | callbackReturn (r : Ref)
  | callbackRelease (r : Ref)
  | callback (event : Option Event)
  -- timers
  | rearmTimer
  | rearmScan (now : Nat)
  | rearmSubmit (next : Option Nat)
  | armNotLaterThan (moment : Nat)
  | onTimer
  | timerStart
  | timerRound (now : Nat)
  | onTransportClose (cause : Cause)

inductive Incoming where
  | incomplete
  | malformed
  | frame (f : Frame)

/-- What a section finds outside the session: the transport's answers to its
    writes, the bytes at hand, the order of a map, what user code does and
    returns, and whether a context ended. -/
structure Oracle where
  answers : List Answer := []
  incoming : Incoming := .incomplete
  order : List Nat := []
  calls : List Section := []
  fails : Option Nat := none
  ctxDone : Bool := false

abbrev Step := Session × List Section

def Session.live (s : Session) (r : Ref) : Bool :=
  s.reg.streams.lookup (s.reg.idOf r) == some r

def Session.setLife (s : Session) (r : Ref) (l : Life) : Session :=
  { s with life := Function.update s.life r l }

def Session.setWatch (s : Session) (r : Ref) (w : Watch) : Session :=
  { s with time := { s.time with watch := Function.update s.time.watch r w } }

def Session.setRx (s : Session) (r : Ref) (x : Rx) : Session :=
  { s with inbox := { s.inbox with rx := Function.update s.inbox.rx r x } }

def Session.setWmu (s : Session) (r : Ref) (held : Bool) : Session :=
  { s with wmu := Function.update s.wmu r held }

def Session.setQueues (s : Session) (q : Queues) : Session :=
  { s with box := { s.box with toQueues := q } }

def Session.setConn (s : Session) (c : Conn) : Session :=
  { s with box := { s.box with conn := c } }

def Session.unlist (s : Session) (r : Ref) : Session :=
  { s with reg := { s.reg with
      streams := if s.live r then s.reg.streams.erase (s.reg.idOf r) else s.reg.streams
      openWait := s.reg.openWait.erase (s.reg.idOf r) } }

def Session.queueControl (s : Session) (f : Frame) : Session :=
  s.setQueues { s.box.toQueues with control := s.box.control ++ [f] }

def Session.sendControl (s : Session) (f : Frame) : Session :=
  s.setQueues (sendControlLocked s.status.closed f s.box.toQueues)

def Session.dropOut (s : Session) (r : Ref) : Session :=
  s.setQueues (dropOutLocked r s.box.toQueues)

def Session.pass (s : Session) (cfg : Endpoint) (c : Oracle) : Session × Option Cause :=
  let done := flushLocked s.status.closed cfg.drainObs s.reg.streams c.answers s.box
  ({ s with box := done.1 }, done.2)

/-- Close the transport with the error of a flush pass, if there was one. -/
def closeOn : Option Cause → List Section
  | none => []
  | some e => [.closeConn e]

def Session.waiter (s : Session) (r : Ref) : Option Ref :=
  s.reg.openWait.lookup (s.reg.idOf r)

def answerAll (waiting : Option Ref) (result : Option Cause) : List Section :=
  (waiting.map fun w => Section.answer w result).toList

end UmuxSession
