import Uio.Umux.Lifecycle

/- The transport's wake deadline and the timer turn. Times are nanoseconds. The
   deadline is computed and submitted under `timerMu`, in separate sections, since
   the session lock is released between the two. -/
namespace UmuxTimers
open UmuxFrame UmuxOutbox UmuxSession UmuxSettings UmuxLifecycle
variable (cfg : Endpoint) (c : Oracle) (s : Session)

def millisecond : Nat := 1000000

def streamMoments (r : Ref) : List Nat :=
  let w := s.time.watch r
  let l := s.life r
  w.wakeAt.toList ++ w.readDeadline.toList ++ w.writeDeadline.toList
    ++ (if l.opening then [w.openedAt + cfg.streamOpenTimeout] else [])
    ++ (if l.peerFIN ≠ l.localFIN then
          (w.halfSince.map (· + cfg.streamCloseTimeout)).toList else [])

def keepAliveMoment : List Nat :=
  if 0 < cfg.keepAlive ∧ s.status.closed = false then
    match s.time.pingSent with
    | none => [s.time.lastPing + cfg.keepAlive]
    | some sent => [sent + cfg.keepAliveMax]
  else []

def moments : List Nat :=
  (s.reg.streams.entries.flatMap fun e => streamMoments cfg s e.2) ++ keepAliveMoment cfg s

def after (next : Option Nat) (t : Nat) : Option Nat :=
  match next with
  | none => some t
  | some n => if t < n then some t else some n

def nextTimerLocked (now : Nat) : Option Nat :=
  match (moments cfg s).foldl after none with
  | none => none
  | some next => if next ≤ now then some (now + millisecond) else some next

def rearmTimer : Step :=
  ({ s with time := { s.time with timerMu := true } }, [.rearmScan s.time.clock])

def rearmScan (now : Nat) : Step := (s, [.rearmSubmit (nextTimerLocked cfg s now)])

def rearmSubmit (next : Option Nat) : Step :=
  ({ s with time := { s.time with armedAt := next, armed := next, timerMu := false } }, [])

def armNotLaterThan (moment : Nat) : Step :=
  match s.time.armedAt with
  | some armed =>
    if armed ≤ moment then (s, [])
    else ({ s with time := { s.time with armedAt := some moment, armed := some moment } }, [])
  | none => ({ s with time := { s.time with armedAt := some moment, armed := some moment } }, [])

def setWakeDeadline (r : Ref) (moment : Option Nat) : Step :=
  (s.setWatch r { s.time.watch r with wakeAt := moment, wakeDu := 0 }, [.rearmTimer])

def setWakeInterval (r : Ref) (interval : Int) : Step :=
  let w := s.time.watch r
  (s.setWatch r
    (if interval ≤ 0 then { w with wakeAt := none, wakeDu := 0 }
     else { w with wakeAt := some (s.time.clock + interval.toNat), wakeDu := interval.toNat }),
    [.rearmTimer])

def setDeadlines (r : Ref) (read write : Option Nat) (setRead setWrite : Bool) : Step :=
  if s.status.closed ∨ s.live r = false ∨ (s.life r).closedLocal then (s, [])
  else
    let w := s.time.watch r
    (s.setWatch r { w with
      readDeadline := if setRead then read else w.readDeadline
      writeDeadline := if setWrite then write else w.writeDeadline }, [.rearmTimer])

def onTimer : Step := ({ s with time := { s.time with armedAt := none } }, [.timerStart])

def timerStart : Step := (s, [.timerRound s.time.clock])

def passed (now : Nat) : Option Nat → Bool
  | none => false
  | some t => t ≤ now

/-- What a timer round gathers: the streams whose own timer is due, the sections
    that answer failed Opens, that reset timed-out streams, and that end streams
    past a deadline. -/
structure Round where
  state : Session
  due : List Ref := []
  openFails : List Section := []
  resets : List Section := []
  deadlineResets : List Section := []

def delist (id : Nat) (r : Ref) (s : Session) : Session :=
  Session.dropOut { s with reg := { s.reg with streams := s.reg.streams.erase id } } r

def forgetWait (id : Nat) (s : Session) : Session :=
  { s with reg := { s.reg with openWait := s.reg.openWait.erase id } }

def fireWake (now : Nat) (w : Watch) : Watch :=
  { w with wakeAt := if 0 < w.wakeDu then some (now + w.wakeDu) else none }

def Round.visitStream (now : Nat) (round : Round) (id : Nat) (r : Ref) : Round :=
  let s := round.state
  let w := s.time.watch r
  let l := s.life r
  let waiting := s.reg.openWait.lookup id
  let readExpired := passed now w.readDeadline
  let writeExpired := passed now w.writeDeadline
  if readExpired || writeExpired then
    let cause := Cause.deadline readExpired writeExpired
    { round with
      state := (forgetWait id (delist id r s)).sendControl (rstFrame id)
      deadlineResets := round.deadlineResets ++ answerAll waiting (some cause)
        ++ [.resetStream r cause] }
  else
    let fired := passed now w.wakeAt
    let s := if fired then s.setWatch r (fireWake now w) else s
    let due := if fired then round.due ++ [r] else round.due
    if l.opening ∧ cfg.streamOpenTimeout < now - w.openedAt then
      { round with
        state := forgetWait id (delist id r s)
        due := due
        openFails := round.openFails ++ answerAll waiting (some .openTimeout)
        resets := round.resets ++ [.resetStream r .openTimeout] }
    else if l.peerFIN ≠ l.localFIN ∧ (w.halfSince.any fun h => cfg.streamCloseTimeout < now - h) then
      { round with
        state := (delist id r s).sendControl (rstFrame id)
        due := due
        resets := round.resets ++ [.resetStream r .streamReset] }
    else { round with state := s, due := due }

def Round.visitId (now : Nat) (round : Round) (id : Nat) : Round :=
  match round.state.reg.streams.lookup id with
  | none => round
  | some r => Round.visitStream cfg now round id r

/-- The keepalive of a round: a ping when one is due, or the verdict that the
    outstanding one went unanswered. -/
def keepAlive (now : Nat) (s : Session) : Session × Bool :=
  if 0 < cfg.keepAlive ∧ s.status.closed = false then
    match s.time.pingSent with
    | none =>
      if cfg.keepAlive ≤ now - s.time.lastPing then
        let seq := wrap32 (s.time.pingSeq + 1)
        (Session.sendControl
          { s with time := { s.time with pingSent := some now, lastPing := now, pingSeq := seq } }
          (control .ping { syn := true } 0 seq), false)
      else (s, false)
    | some sent => (s, cfg.keepAliveMax < now - sent)
  else (s, false)

def timerRound (now : Nat) : Step :=
  let round := (visit c.order s.reg.streams).foldl (Round.visitId cfg now) ⟨s, [], [], [], []⟩
  let pinged := keepAlive cfg now round.state
  let done := pinged.1.pass cfg c
  let ending := round.openFails ++ round.resets ++ round.deadlineResets
  let failure := if pinged.2 then some Cause.keepAlive else done.2
  match failure with
  | some e => (done.1, ending ++ [.drainCloses, .failTurn e])
  | none =>
    let fired := if cfg.handler then
      round.due.flatMap fun r => [.invokeTimer r, .tryFinish r] else []
    (done.1, ending ++ fired ++ [.rearmTimer, .drainCloses, .maybeFinishDrain, .turnEnd])

/-- The transport ended: everything queued is dropped, every waiter and every
    stream hears the cause. -/
def onTransportClose (cause : Cause) : Step :=
  if s.status.closed then (s, [.turnEnd])
  else
    let refs := (visit c.order s.reg.streams).filterMap s.reg.streams.lookup
    let waits := s.reg.openWait.entries.map fun e => Section.answer e.2 (some cause)
    let dropped := refs.foldl (fun q r => dropOutLocked r q) s.box.toQueues
    let s := finishDrain (some cause) s
    ({ s with
        status := { s.status with closed := true, closeErr := some cause }
        reg := { s.reg with streams := ∅, openWait := ∅ }
        box := ⟨{ dropped with finFlushed := [], drained := [], control := [], pending := [] },
          { s.box.conn with flushReq := false }⟩
        inbox := { s.inbox with readHeld := false }
        wakeQ := [] },
      waits ++ refs.map (Section.resetStream · cause) ++ [Section.drainCloses, .turnEnd])

end UmuxTimers
