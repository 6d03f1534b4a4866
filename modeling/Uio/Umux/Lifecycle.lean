import Uio.Umux.Inbound

/- How a stream comes to be and how it ends: Open and its waiter, the removals from
   the table, the reset of the stream object, the finish after both FINs, the
   handler's callbacks, and the session's Close and Shutdown. -/
namespace UmuxLifecycle
open UmuxFrame UmuxOutbox UmuxSession UmuxSettings UmuxWindow UmuxInbound
variable (cfg : Endpoint) (c : Oracle) (s : Session)

/-- `newStream`: a fresh object under the given id, not yet in the table. -/
def newStream (id : Nat) (isLocal : Bool) : Session :=
  let r := s.reg.fresh
  { s with
    reg := { s.reg with fresh := r + 1, idOf := Function.update s.reg.idOf r id }
    box := { s.box with
      toQueues := { s.box.toQueues.setTx r {} with handed := Function.update s.box.handed r [] } }
    inbox := { s.inbox with rx := Function.update s.inbox.rx r ⟨[], newRecvWindow cfg.windowSize⟩ }
    win := Function.update s.win r (newSendWindow minWindow)
    wmu := Function.update s.wmu r false
    life := Function.update s.life r { opening := isLocal }
    time := { s.time with watch := Function.update s.time.watch r { openedAt := s.time.clock } }
    mail := { mailbox := Function.update s.mail.mailbox r none,
              sent := Function.update s.mail.sent r 0,
              returned := Function.update s.mail.returned r false }
    accepted := Function.update s.accepted r [] }

/-- The announced window as a delta above the protocol floor, in 32 bits. -/
def windowDelta : Nat := wrap32 (cfg.windowSize - minWindow)

def synFrame (id : Nat) (metadata : List UInt8) : Frame :=
  if metadata = [] then control .windowUpdate { syn := true } id (windowDelta cfg)
  else synMetadataFrame id (windowDelta cfg) metadata

def register (id : Nat) (r : Ref) (s : Session) : Session :=
  { s with reg := { s.reg with
      nextID := wrap32 (id + 2)
      streams := s.reg.streams.insert id r
      openWait := s.reg.openWait.insert id r } }

def returnOpen (r : Ref) (s : Session) : Session :=
  { s with mail := { s.mail with returned := Function.update s.mail.returned r true } }

def openStream (metadata : List UInt8) : Step :=
  if cfg.maxMetadata < metadata.length ∨ s.status.closed ∨ s.status.goAway
      ∨ cfg.maxStreams ≤ s.reg.streams.entries.length then (s, [])
  else
    let r := s.reg.fresh
    let id := s.reg.nextID
    let made := register id r (newStream cfg s id true)
    let done := (made.queueControl (synFrame cfg id metadata)).pass cfg c
    let arm := Section.armNotLaterThan (s.time.clock + cfg.streamOpenTimeout)
    match done.2 with
    | none => (done.1, [arm, .emitDrained, .waitOpen r])
    | some e => (returnOpen r done.1,
        [arm, .emitDrained, .removeStream r (some e), .closeConn e])

def waitOpen (r : Ref) : Step :=
  if c.ctxDone then (returnOpen r s, [.abortStream r .context])
  else
    match s.mail.mailbox r with
    | none => (s, [.waitOpen r])
    | some result =>
      let taken := returnOpen r { s with
        mail := { s.mail with mailbox := Function.update s.mail.mailbox r none } }
      match result with
      | none => (taken, [])
      | some e => (taken, [.removeStream r (some e)])

def answer (r : Ref) (result : Option Cause) : Step :=
  if (s.mail.mailbox r).isSome then (s, [])
  else
    ({ s with mail := { s.mail with
        mailbox := Function.update s.mail.mailbox r (some result)
        sent := Function.update s.mail.sent r (s.mail.sent r + 1) } }, [])

def removeStream (r : Ref) (reset : Option Cause) : Step :=
  ((s.unlist r).dropOut r, .maybeFinishDrain :: (reset.map (Section.resetStream r)).toList)

def abortStream (r : Ref) (cause : Cause) : Step :=
  let waiting := s.waiter r
  let gone := (s.unlist r).dropOut r
  let ending := answerAll waiting (some cause) ++ [Section.resetStream r cause]
  if s.live r then
    let done := (gone.sendControl (rstFrame (s.reg.idOf r))).pass cfg c
    (done.1, Section.emitDrained :: ending ++ closeOn done.2 ++ [Section.maybeFinishDrain])
  else (gone, Section.emitDrained :: ending ++ [Section.maybeFinishDrain])

def abortRemote (r : Ref) (cause : Cause) : Step :=
  ((s.unlist r).dropOut r,
    answerAll (s.waiter r) (some cause) ++ [Section.resetStream r cause, .maybeFinishDrain])

/-- `resetLocal` and `resetRemote`, which do the same. The window keeps its count. -/
def resetStream (r : Ref) (cause : Cause) : Step :=
  let l := s.life r
  if l.closedLocal then (s, [])
  else
    let x := s.inbox.rx r
    ((s.setLife r { l with closedLocal := true, closedErr := some cause }).setRx r
        { x with inbuf := [] },
      [.releaseInbound x.inbuf.length, .deliverClose r cause])

def unfinished (r : Ref) : Bool :=
  let l := s.life r
  l.closedLocal || l.callbackActive || !l.peerFIN || !l.localFIN
    || (s.box.tx r).finState ≠ .sent || (s.box.tx r).out ≠ []
    || (s.inbox.rx r).inbuf ≠ [] || (cfg.handler && (l.yieldOwed || held l))

def tryFinish (r : Ref) : Step :=
  if s.live r = false ∨ unfinished cfg s r then (s, [])
  else
    let l := s.life r
    let cause := l.closedErr.getD .eof
    let ended := (s.setLife r { l with closedLocal := true, closedErr := some cause }).setWatch r
      { s.time.watch r with halfSince := none }
    ((ended.unlist r).dropOut r, [.deliverClose r cause, .maybeFinishDrain])

def deliverClose (r : Ref) (cause : Cause) : Step :=
  let l := s.life r
  if l.closeDelivered then (s, [])
  else (s.setLife r { l with closeDelivered := true },
    if cfg.handler then [.queueClose r cause] else [])

def queueClose (r : Ref) (cause : Cause) : Step :=
  ({ s with closeQ := s.closeQ ++ [(r, cause)] },
    if s.status.closed then [.drainCloses] else [.connWake])

def drainCloses : Step :=
  if cfg.handler = false then ({ s with closeQ := [] }, [])
  else
    match s.closeQ with
    | [] => (s, [])
    | (r, cause) :: rest =>
      ({ s with closeQ := rest }, [.callback (some (.onClose r cause)), .drainCloses])

def clearWake (s : Session) (r : Ref) : Session :=
  s.setLife r { s.life r with wakePending := false }

def runWakes : Step :=
  let cleared := { s.wakeQ.foldl clearWake s with wakeQ := [] }
  if cfg.handler = false then (cleared, [])
  else (cleared, (s.wakeQ.filter fun r => !(s.life r).closedLocal).map .dispatchRead)

def dispatchRead (r : Ref) : Step :=
  if cfg.handler = false ∨ (s.life r).pausedBy ≠ [] then (s, [.tryFinish r])
  else (s, [.invokeRead r, .tryFinish r])

def invokeRead (r : Ref) : Step :=
  let l := s.life r
  if l.closedLocal then (s, [])
  else (s.setLife r { l with callbackActive := true, yieldOwed := false },
    [.callback (some (.onRead r)), .callbackReturn r])

def invokeTimer (r : Ref) : Step :=
  let l := s.life r
  if l.closedLocal then (s, [])
  else (s.setLife r { l with callbackActive := true },
    [.callback (some (.onTimer r)), .callbackReturn r])

def callbackReturn (r : Ref) : Step :=
  match c.fails with
  | none => (s, [.callbackRelease r])
  | some n => (s, [.abortStream r (.user n), .callbackRelease r])

def callbackRelease (r : Ref) : Step :=
  (s.setLife r { s.life r with callbackActive := false }, [])

def finishDrain (err : Option Cause) (s : Session) : Session :=
  if s.status.draining && !s.status.drainClosed then
    { s with status := { s.status with drainClosed := true, drainErr := err } }
  else s

def sayGoAway (s : Session) : Session :=
  if s.box.goAwaySent then s
  else
    (s.setQueues { s.box.toQueues with goAwaySent := true }).sendControl
      (control .goAway {} 0 goAwayNormal)

def close (cause : Cause) : Step :=
  if s.status.closed then (s, [])
  else
    let done := (sayGoAway { s with status := { s.status with goAway := true } }).pass cfg c
    (finishDrain (some cause) done.1, [.emitDrained, .closeConn (done.2.getD cause)])

def shutdown : Step :=
  if s.status.draining then (s, [.waitDrain])
  else if s.status.closed then (s, [])
  else
    let done := (sayGoAway
      { s with status := { s.status with draining := true, goAway := true } }).pass cfg c
    (done.1, .emitDrained :: closeOn done.2 ++ [Section.maybeFinishDrain, .waitDrain])

def waitDrain : Step :=
  if c.ctxDone then (s, [.forceDrain .context])
  else if s.status.drainClosed then (s, [])
  else (s, [.waitDrain])

def visit (order : List Nat) (t : Table) : List Nat :=
  if order.isPerm t.keys then order else t.keys

def forceDrain (cause : Cause) : Step :=
  if s.status.draining = false ∨ s.status.drainClosed then (s, [])
  else
    let refs := (visit c.order s.reg.streams).filterMap s.reg.streams.lookup
    (finishDrain (some .shutdownTimeout) s,
      refs.map (Section.abortStream · .shutdownTimeout) ++ [Section.closeConn cause])

def maybeFinishDrain : Step :=
  if s.status.draining ∧ s.status.drainClosed = false ∧ s.status.closed = false
      ∧ s.reg.streams.entries = [] ∧ s.box.goAwayFlushed then
    (finishDrain none s, [.closeConn .eof])
  else (s, [])

end UmuxLifecycle
