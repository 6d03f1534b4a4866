import Uio.Umux.Session

/- Writing on a stream, and the sections that bring queued frames to the
   transport. A write holds `wmu` from taking its credit to its last frame, one
   frame a section; CloseWrite holds it from the flag to the queued FIN. -/
namespace UmuxOutbound
open UmuxFrame UmuxOutbox UmuxSession UmuxWindow
variable (cfg : Endpoint) (c : Oracle) (s : Session)

def takeCredit (r : Ref) (p : List UInt8) : Session :=
  { s.setWmu r true with
    win := Function.update s.win r ((s.win r).take p.length).1
    accepted := Function.update s.accepted r (s.accepted r ++ p) }

def writable (l : Life) : Bool := !l.closedLocal && !l.opening && !l.localFIN

def write (r : Ref) (p : List UInt8) : Step :=
  if p = [] ∨ writable (s.life r) = false ∨ (s.win r).avail = 0 then (s, [])
  else
    let covered := p.take (s.win r).avail
    (takeCredit s r covered, [.frameData r covered])

def writeOwned (r : Ref) (p : List UInt8) : Step :=
  if p = [] ∨ writable (s.life r) = false ∨ (s.win r).avail < p.length then (s, [])
  else (takeCredit s r p, [.frameData r p])

def frameData (r : Ref) (p : List UInt8) : Step :=
  if p = [] then (s, [.writeDone r true])
  else if s.live r then
    let id := s.reg.idOf r
    (s.setQueues (enqueue id r (dataFrame id (p.take cfg.maxFrame)) s.box.toQueues),
      [.frameData r (p.drop cfg.maxFrame)])
  else (s, [.writeDone r false])

def writeDone (r : Ref) (framed : Bool) : Step :=
  (s.setWmu r false,
    .requestFlush :: if framed && cfg.observer then [.callback none] else [])

def closeWrite (r : Ref) : Step :=
  let l := s.life r
  if l.closedLocal || l.localFIN then (s, [])
  else
    (((s.setLife r { l with localFIN := true }).setWatch r
        { s.time.watch r with halfSince := some s.time.clock }).setWmu r true,
      [.enqueueFin r])

def enqueueFin (r : Ref) : Step :=
  if (s.box.tx r).finState = .none ∧ s.live r then
    (s.setQueues (queueFin (s.reg.idOf r) r s.box.toQueues), [.closeWriteDone r])
  else (s, [.closeWriteDone r])

def closeWriteDone (r : Ref) : Step :=
  (s.setWmu r false, [.requestFlush, .tryFinish r, .rearmTimer])

def closeLocal (r : Ref) (cause : Option Cause) : Step :=
  let l := s.life r
  if l.closedLocal then (s, [])
  else (s.setLife r { l with closedErr := cause }, [.closeWrite r])

def connWake : Step := (s.setConn s.box.conn.wake, [])

def requestFlush : Step :=
  if s.box.conn.flushReq then (s, [])
  else (s.setConn { s.box.conn with flushReq := true }, [.connWake])

def transportSent (n : Nat) : Step :=
  let sent := min n s.box.conn.unsent
  if sent = 0 then (s, [])
  else (s.setConn { s.box.conn with unsent := s.box.conn.unsent - sent }, [.requestFlush])

def flush : Step :=
  let done := s.pass cfg c
  let finished := done.1.box.finFlushed
  (done.1.setQueues { done.1.box.toQueues with finFlushed := [] },
    finished.map .tryFinish ++ .emitDrained :: closeOn done.2 ++ [Section.maybeFinishDrain])

def emitDrained : Step :=
  if cfg.drainObs then
    (s.setQueues { s.box.toQueues with drained := [] },
      s.box.drained.map fun _ => .callback none)
  else (s, [])

def closeConn (cause : Cause) : Step :=
  (s.setConn { s.box.conn with closing := some (s.box.conn.closing.getD cause) }, [])

def sendWindowUpdate (id delta : Nat) : Step :=
  let done := (s.sendControl (updateFrame id delta)).pass cfg c
  (done.1, .emitDrained :: closeOn done.2)

end UmuxOutbound
