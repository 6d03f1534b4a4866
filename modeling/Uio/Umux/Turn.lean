import Uio.Umux.Timers

/- The read turn: frames come off the transport one by one and are handled, and a
   flush ends the turn. A section that decides what the next frame may find pushes
   the turn's next section itself, so that of these sections one at most is owed
   while a turn runs. -/
namespace UmuxTurn
open UmuxFrame UmuxOutbox UmuxSession UmuxSettings UmuxWindow UmuxInbound UmuxLifecycle
variable (cfg : Endpoint) (c : Oracle) (s : Session)

def beginTurn (s : Session) : Session := { s with busy := true }

def turnRead : Step :=
  (beginTurn (s.setConn { s.box.conn with wakeOwed := false }), [.onRead])

def turnTimer : Step :=
  (beginTurn { s with time := { s.time with armed := none } }, [.onTimer])

def turnClose (cause : Cause) : Step :=
  ({ beginTurn s with ended := true }, [.onTransportClose cause])

def turnEnd : Step := ({ s with busy := false }, [])

def onRead : Step := (s.setConn { s.box.conn with flushReq := false }, [.heldReads])

def failTurn (cause : Cause) : Step :=
  (s.setConn { s.box.conn with closing := some (s.box.conn.closing.getD cause) }, [.turnEnd])

def afterFrame : Step :=
  match s.turnErr with
  | some e => (s, [.failTurn e])
  | none => (s, [.exhaustedBudget])

/-- Queue one control frame, flush, and give the flush error to the turn. -/
def reply (f : Frame) (s : Session) : Session :=
  let done := (s.sendControl f).pass cfg c
  { done.1 with turnErr := done.2 }

def handleData (h : FrameHeader) (payload : List UInt8) : Step :=
  if h.flags.syn || h.flags.ack then ({ s with turnErr := some .protocol }, [.afterFrame])
  else
    match s.reg.streams.lookup h.streamID with
    | none => (reply cfg c (rstFrame h.streamID) s, [.emitDrained, .afterFrame])
    | some r =>
      let next := if h.flags.rst then AfterPush.reset else .dispatch
      if payload = [] then (s, [.pushData r [] h.flags.fin next])
      else (s, [.reserveInbound r payload h.flags.fin next])

def checkPeerStreamID (id : Nat) : Bool :=
  if cfg.client then id % 2 = 0 && id ≠ 0 else id % 2 = 1

/-- A peer's stream up to the Accept callback, which runs outside the lock. -/
def acceptStream (id delta : Nat) (metadata : List UInt8) : Step :=
  if checkPeerStreamID cfg id = false then ({ s with turnErr := some .protocol }, [.afterFrame])
  else if s.status.closed then (s, [.afterFrame])
  else if s.status.goAway then (reply cfg c (rstFrame id) s, [.emitDrained, .afterFrame])
  else if cfg.maxStreams ≤ s.reg.streams.entries.length then
    (reply cfg c (rstFrame id) s, [.emitDrained, .afterFrame])
  else if (s.reg.streams.lookup id).isSome then
    ({ s with turnErr := some .protocol }, [.afterFrame])
  else if cfg.handler = false ∧ cfg.acceptBacklog ≤ s.acceptQ then
    (reply cfg c (rstFrame id) s, [.emitDrained, .afterFrame])
  else (s, (if cfg.accept then [Section.callback none] else []) ++ [Section.acceptVet id delta metadata])

def peerWindow (delta : Nat) : Nat :=
  if cfg.windowSize < minWindow + delta then cfg.windowSize else minWindow + delta

def tuneWindows (r : Ref) (delta : Nat) (s : Session) : Session :=
  let x := s.inbox.rx r
  { s.setRx r { x with win := x.win.retune (minWindow + delta) } with
    win := Function.update s.win r ((s.win r).reset (peerWindow cfg delta)) }

def publish (id : Nat) (r : Ref) (s : Session) : Session :=
  { s with reg := { s.reg with streams := s.reg.streams.insert id r } }

def ackFrame (id : Nat) : Frame :=
  control .windowUpdate { ack := true } id (windowDelta cfg)

/-- The stream after Accept took it, or the refusal: publish it and acknowledge. -/
def acceptVet (id delta : Nat) (metadata : List UInt8) : Step :=
  if cfg.accept ∧ c.fails.isSome then
    (reply cfg c (rstFrame id) s, [.emitDrained, .afterFrame])
  else if s.status.closed then (s, [.afterFrame])
  else if s.status.goAway then (reply cfg c (rstFrame id) s, [.emitDrained, .afterFrame])
  else
    let r := s.reg.fresh
    let made := publish id r (tuneWindows cfg r delta (newStream cfg s id false))
    let done := reply cfg c (ackFrame cfg id) made
    match done.turnErr with
    | some _ => (done, [.emitDrained, .removeStream r none, .afterFrame])
    | none =>
      if cfg.handler then
        (done, .emitDrained :: (if metadata = [] then [] else [.callback (some (.onMetadata r))])
          ++ [.callback (some (.onOpen r)), .afterFrame])
      else (done, [.emitDrained, .acceptDeliver r, .afterFrame])

def acceptDeliver (r : Ref) : Step :=
  if s.status.closed then (s, [])
  else if s.acceptQ < cfg.acceptBacklog then ({ s with acceptQ := s.acceptQ + 1 }, [])
  else (s, [.abortStream r .maxStreams])

def acceptReceive : Step := ({ s with acceptQ := s.acceptQ - 1 }, [])

def handleAck (id delta : Nat) : Step :=
  let forgotten := { s with reg := { s.reg with openWait := s.reg.openWait.erase id } }
  match s.reg.streams.lookup id, s.reg.openWait.lookup id with
  | some r, some w => (forgotten, [.establish r w delta])
  | _, _ => (forgotten, [.afterFrame])

def establish (r w : Ref) (delta : Nat) : Step :=
  (tuneWindows cfg r delta (s.setLife r { s.life r with opening := false }),
    [.answer w none, .afterFrame])

def handleWindowUpdate (h : FrameHeader) : Step :=
  if h.flags.syn then acceptStream cfg c s h.streamID h.length []
  else if h.flags.ack then handleAck s h.streamID h.length
  else
    match s.reg.streams.lookup h.streamID with
    | none => (s, [.afterFrame])
    | some r =>
      if h.flags.rst then (s, [.abortRemote r .streamReset, .afterFrame])
      else if h.flags.fin then (s, [.pushData r [] true (.dispatchGrant h.length)])
      else if h.length = 0 then (s, [.afterFrame])
      else (s, [.grantWindow r h.length, .afterFrame])

def handlePing (h : FrameHeader) : Step :=
  if h.flags.syn then
    (reply cfg c (control .ping { ack := true } h.streamID h.length) s, [.emitDrained, .afterFrame])
  else if h.flags.ack ∧ h.length = s.time.pingSeq then
    ({ s with time := { s.time with pingSent := none } }, [.afterFrame])
  else (s, [.afterFrame])

def handleSynMetadata (h : FrameHeader) (payload : List UInt8) : Step :=
  if payload.length < 4 then ({ s with turnErr := some .protocol }, [.afterFrame])
  else acceptStream cfg c s h.streamID (uint32 payload) (payload.drop 4)

def handleGoAway : Step :=
  ({ s with status := { s.status with goAway := true } }, [.afterFrame])

def handleFrame (f : Frame) : Step :=
  match f.hdr.typ with
  | .data => handleData cfg c s f.hdr f.payload
  | .windowUpdate => handleWindowUpdate cfg c s f.hdr
  | .ping => handlePing cfg c s f.hdr
  | .synMetadata => handleSynMetadata cfg c s f.hdr f.payload
  | .goAway => handleGoAway s

/-- A frame the wire can carry: its fields are 32 bits wide and its payload is as
    long as its header says. -/
def wellFormed (f : Frame) : Bool :=
  f.payload.length = carries f.hdr && f.hdr.length < 2 ^ 32 && f.hdr.streamID < 2 ^ 32

def receive (f : Frame) (s : Session) : Session :=
  { s with rcvd := s.rcvd ++ [f], turnErr := none }

def readFrame : Step :=
  match c.incoming with
  | .incomplete => (s, [.flush, .runWakes, .drainCloses, .turnEnd])
  | .malformed => (s, [.failTurn .malformed])
  | .frame f =>
    if wellFormed f = false then (s, [.flush, .runWakes, .drainCloses, .turnEnd])
    else
      match validateFrame f.hdr (wrap32 cfg.windowSize) (wrap32 cfg.maxMetadata) with
      | some e => (s, [.failTurn (.frame e)])
      | none => handleFrame cfg c (receive f s) f

end UmuxTurn
