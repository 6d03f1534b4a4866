import Uio.Monitor
import Uio.Uws.Heartbeat
import Uio.Uws.Limits

/-!
The heartbeat of a connection over a plain transport, among its senders. Frames are sent
under `writes.mu`, into the write batch or straight to the transport, which takes any part
of what it is given; the byte counters, the heartbeat's mutex and the transport are each
touched in sections of their own, and the transport's reports come in between. A deferred
Close frame's retry, which no frame follows, is left out.
-/
namespace UwsHeartbeatRuns
open Interleaving UwsHeartbeat

structure Config extends Timing where
  client : Bool

/-- A frame by its wire size; `ping` is the payload of a Ping of eight bytes. -/
structure Frame where
  size : Nat
  ping : Option Nat

/-- Who sends: the application, which may flush after the frame, or a tick at `now`. -/
inductive Sender where
  | app (flush : Bool)
  | beat (now : Int) (nonce : Nat)

inductive Result where
  | ok
  | backpressure
  | failed
  deriving DecidableEq

/-- `entered` and `reported` count what the transport took and what it reported sent.
`pingEnd` is where the heartbeat's Ping ends among the bytes accepted, `refusedAt` the
first Ping refused since the last one was sent, answered or expired, and `ticked` the
latest moment of a tick that is over. -/
structure State where
  heartbeat : Heartbeat := {}
  outboundAccepted : Nat := 0
  outboundRetired : Nat := 0
  pendingBytes : Nat := 0
  batch : Nat := 0
  mu : Bool := false
  turn : Bool := false
  closed : Bool := false
  closing : Bool := false
  clock : Int := 1
  entered : Nat := 0
  reported : Nat := 0
  pingEnd : Nat := 0
  refusedAt : Option Int := none
  ticked : Int := 0

def State.isOpen (s : State) : Bool := !s.closed && !s.closing

/-- What the environment decides: whether a frame joins the batch and that is full, how
much the transport takes and why not more, whether the round still batches, what a tick
finds waiting, and the random source. -/
structure Choice where
  batched : Bool := false
  full : Bool := false
  taken : Nat := 0
  overflow : Bool := false
  round : Bool := false
  unparsed : Bool := false
  staged : Bool := false
  fails : Bool := false
  nonce : Nat := 0
  armed : Int := 0

inductive Next where
  | append (f : Frame) (k : Sender)
  | track (f : Frame) (k : Sender)
  | flushed (k : Sender)
  | release (k : Sender) (res : Result)

inductive After where
  | fail (k : Sender) (res : Result)
  | batch (n : Next)

inductive Section where
  -- a sender, which holds `writes.mu` from `route` to `release`
  | send (f : Frame) (flush : Bool)
  | route (f : Frame) (k : Sender)
  | flushBatch (n : Next)
  | pend (bytes : Nat) (n : Next)
  | hand (bytes : Nat) (n : Next)
  | append (f : Frame) (k : Sender)
  | track (f : Frame) (k : Sender)
  | count (f : Frame) (k : Sender)
  | markTarget (f : Frame) (k : Sender) (direct : Bool)
  | write (f : Frame) (k : Sender)
  | rollback (bytes : Nat) (after : After)
  | uncount (bytes : Nat) (after : After)
  | failStream (n : Next)
  | sent (k : Sender)
  | rawFlush (k : Sender)
  | fail (k : Sender) (res : Result)
  | unlock (k : Sender) (res : Result)
  | release (k : Sender) (res : Result)
  -- the begin, and a tick at `now`, which holds the turn
  | beginHeartbeat
  | timerTick
  | heartbeatTick
  | enter (now : Int)
  | deferExpiry (now : Int) (timer : Bool)
  | expirePing (now : Int)
  | expireHeartbeat (now : Int)
  | due (now : Int)
  | openPing (now : Int)
  | lockPing (now : Int) (nonce : Nat)
  | pinged (now : Int) (res : Result)
  | noteSendStall (now : Int)
  | moveOn (now : Int)
  | arm (now : Int)
  | endTick (now : Int)
  -- a report of bytes that left
  | transportSent (bytes : Nat)
  | reduce (bytes : Nat)
  | retire (bytes : Nat)
  | markPingSent (retired : Nat)
  -- a Pong, a frame parsed, time passing, a close
  | pong (nonce : Nat)
  | frame
  | elapse (nanos : Nat)
  | close (closed : Bool)

def Next.section : Next → Section
  | .append f k => .append f k
  | .track f k => .track f k
  | .flushed k => .rawFlush k
  | .release k res => .release k res

def Next.refused : Next → Section
  | .append _ k | .track _ k | .flushed k => .fail k .failed
  | .release k res => .release k res

def After.section : After → Section
  | .fail k res => .fail k res
  | .batch n => .failStream n

variable (cfg : Config)

def pingFrame (nonce : Nat) : Frame := ⟨UwsLimits.frameWireSize 8 cfg.client, some nonce⟩

/-- `markHeartbeatPingTarget`: the heartbeat's own Ping carries its nonce, a Ping of the
application any payload. -/
def State.markTarget (s : State) (f : Frame) (k : Sender) (direct : Bool) : State :=
  match k, f.ping with
  | .beat _ nonce, _ =>
    { s with
      heartbeat := s.heartbeat.markPingTarget nonce s.outboundAccepted
      pingEnd := s.entered + s.batch + if direct then f.size else 0 }
  | .app _, some nonce =>
    { s with heartbeat := s.heartbeat.markPingTarget nonce s.outboundAccepted }
  | .app _, none => s

def execSend (c : Choice) : Section → State → State × List Section
  | .send f flush, s => ({ s with mu := true }, [.route f (.app flush)])
  | .route f k, s =>
    if s.isOpen = false ∨ c.fails then (s, [.fail k .failed])
    else if c.batched then
      (s, if c.full then [.flushBatch (.append f k)] else [.append f k])
    else (s, [.flushBatch (.track f k)])
  | .flushBatch n, s =>
    if s.batch = 0 then (s, [n.section]) else ({ s with batch := 0 }, [.pend s.batch n])
  | .pend bytes n, s => ({ s with pendingBytes := s.pendingBytes + bytes }, [.hand bytes n])
  | .hand bytes n, s =>
    if bytes ≤ c.taken then ({ s with entered := s.entered + bytes }, [n.section])
    else ({ s with entered := s.entered + c.taken }, [.rollback (bytes - c.taken) (.batch n)])
  | .append f k, s =>
    ({ s with batch := s.batch + f.size, outboundAccepted := s.outboundAccepted + f.size },
      [.markTarget f k false])
  | .track f k, s => ({ s with pendingBytes := s.pendingBytes + f.size }, [.count f k])
  | .count f k, s =>
    ({ s with outboundAccepted := s.outboundAccepted + f.size }, [.markTarget f k true])
  | .markTarget f k direct, s =>
    (s.markTarget f k direct, [if direct then .write f k else .sent k])
  | .write f k, s =>
    if f.size ≤ c.taken then ({ s with entered := s.entered + f.size }, [.sent k])
    else
      ({ s with entered := s.entered + c.taken },
        [.rollback (f.size - c.taken) (.fail k (if c.overflow then .backpressure else .failed))])
  | .rollback bytes after, s =>
    ({ s with pendingBytes := s.pendingBytes - bytes }, [.uncount (min bytes s.pendingBytes) after])
  | .uncount bytes after, s =>
    ({ s with outboundAccepted := s.outboundAccepted - bytes }, [after.section])
  | .failStream n, s => (if c.fails then s else { s with closing := true }, [n.refused])
  | .sent k, s =>
    (s,
      match k with
      | .app false => [.unlock k .ok]
      | .app true | .beat _ _ => [.flushBatch (.flushed k)])
  | .rawFlush k, s => (s, [if c.fails then .fail k .failed else .unlock k .ok])
  | .fail k res, s =>
    (match k with
      | .beat _ nonce => { s with heartbeat := s.heartbeat.cancelPing nonce }
      | .app _ => s, [.unlock k res])
  | .unlock k res, s =>
    (s, if c.round then [.release k res] else [.flushBatch (.release k res)])
  | .release k res, s =>
    ({ s with mu := false },
      match k with
      | .beat now _ => [.pinged now res]
      | .app _ => [])
  | _, s => (s, [])

def execTick (c : Choice) : Section → State → State × List Section
  | .beginHeartbeat, s =>
    let next := s.clock + cfg.heartbeatInterval
    ({ s with heartbeat := { s.heartbeat with nextPingAt := next, armedAt := c.armed } }, [])
  | .timerTick, s =>
    ({ s with turn := true },
      if s.isOpen = false then [.endTick s.clock]
      else if c.unparsed then [.deferExpiry s.clock true]
      else [.enter s.clock])
  | .heartbeatTick, s => ({ s with turn := true }, [.enter s.clock])
  | .enter now, s =>
    (s,
      if s.isOpen = false then [.endTick now]
      else if s.heartbeat.steady now then [.endTick now]
      else [.deferExpiry now false])
  | .deferExpiry now timer, s =>
    match s.heartbeat.deferExpiry now cfg.heartbeatTimeout (timer || c.staged) with
    | (h, true) => ({ s with heartbeat := h }, [.arm now])
    | (h, false) =>
      ({ s with heartbeat := h }, if timer then [.enter now] else [.expirePing now])
  | .expirePing now, s =>
    match s.heartbeat.expirePing now cfg.heartbeatTimeout with
    | (h, true) => ({ s with heartbeat := h, refusedAt := none }, [.expireHeartbeat now])
    | (h, false) => ({ s with heartbeat := h }, [.due now])
  | .expireHeartbeat now, s => ({ s with closing := true }, [.endTick now])
  | .due now, s =>
    (s,
      if s.heartbeat.nextPingAt = 0 then [.endTick now]
      else if s.heartbeat.pingOutstanding = false ∧ s.heartbeat.nextPingAt ≤ now then
        [.openPing now]
      else [.arm now])
  | .openPing now, s =>
    (s,
      if s.isOpen = false ∨ c.fails then [.pinged now .failed]
      else [.lockPing now (if c.nonce = 0 then 1 else c.nonce)])
  | .lockPing now nonce, s =>
    if s.isOpen = false then ({ s with mu := true }, [.unlock (.beat now nonce) .failed])
    else
      match s.heartbeat.beginPing now nonce with
      | (_, false) => ({ s with mu := true }, [.unlock (.beat now nonce) .ok])
      | (h, true) =>
        ({ s with mu := true, heartbeat := h }, [.route (pingFrame cfg nonce) (.beat now nonce)])
  | .pinged now res, s =>
    match res with
    | .ok => (s, [.moveOn now])
    | .backpressure => (s, [.noteSendStall now])
    | .failed =>
      if s.isOpen then ({ s with closing := true }, [.endTick now]) else (s, [.moveOn now])
  | .noteSendStall now, s =>
    ({ s with heartbeat := s.heartbeat.noteSendStall now, refusedAt := s.refusedAt <|> some now },
      [.moveOn now])
  | .moveOn now, s =>
    ({ s with heartbeat := { s.heartbeat with nextPingAt := now + cfg.heartbeatInterval } },
      [.arm now])
  | .arm now, s => ({ s with heartbeat := { s.heartbeat with armedAt := c.armed } }, [.endTick now])
  | .endTick now, s => ({ s with turn := false, ticked := max s.ticked now }, [])
  | _, s => (s, [])

def execOther : Section → State → State × List Section
  | .transportSent bytes, s =>
    let left := min bytes (s.entered - s.reported)
    ({ s with reported := s.reported + left }, [.reduce left])
  | .reduce bytes, s =>
    ({ s with pendingBytes := s.pendingBytes - bytes }, [.retire (min bytes s.pendingBytes)])
  | .retire bytes, s =>
    if bytes = 0 then (s, [])
    else
      ({ s with outboundRetired := s.outboundRetired + bytes },
        [.markPingSent (s.outboundRetired + bytes)])
  | .markPingSent retired, s =>
    ({ s with
      heartbeat := s.heartbeat.markPingSent retired s.clock
      refusedAt :=
        if s.heartbeat.markPingSent retired s.clock = s.heartbeat then s.refusedAt else none }, [])
  | .pong nonce, s =>
    match s.heartbeat.acknowledgePing nonce with
    | (h, true) => ({ s with heartbeat := h, refusedAt := none }, [])
    | (_, false) => (s, [])
  | .frame, s =>
    ({ s with heartbeat := { s.heartbeat with parsed := s.heartbeat.parsed + 1 } }, [])
  | .elapse nanos, s => ({ s with clock := s.clock + nanos }, [])
  | .close closed, s =>
    (if closed then { s with closed := true } else { s with closing := true }, [])
  | _, s => (s, [])

inductive Part where
  | sender
  | tick
  | other

def Section.part : Section → Part
  | .send .. | .route .. | .flushBatch .. | .pend .. | .hand .. | .append .. | .track ..
  | .count .. | .markTarget .. | .write .. | .rollback .. | .uncount .. | .failStream ..
  | .sent .. | .rawFlush .. | .fail .. | .unlock .. | .release .. => .sender
  | .beginHeartbeat | .timerTick | .heartbeatTick | .enter .. | .deferExpiry .. | .expirePing ..
  | .expireHeartbeat .. | .due .. | .openPing .. | .lockPing .. | .pinged .. | .noteSendStall ..
  | .moveOn .. | .arm .. | .endTick .. => .tick
  | .transportSent .. | .reduce .. | .retire .. | .markPingSent .. | .pong .. | .frame
  | .elapse .. | .close .. => .other

def exec (c : Choice) (a : Section) (s : State) : State × List Section :=
  match a.part with
  | .sender => execSend c a s
  | .tick => execTick cfg c a s
  | .other => execOther a s

def entry : Section → Bool
  | .send .. | .beginHeartbeat | .timerTick | .heartbeatTick | .transportSent .. | .pong ..
  | .frame | .elapse .. | .close .. => true
  | _ => false

/-- A sender waits for `writes.mu`; ticks and Pongs wait for the turn. -/
def ready : Section → State → Bool
  | .send .., s | .lockPing .., s => !s.mu
  | .beginHeartbeat, s | .timerTick, s | .heartbeatTick, s | .pong _, s => !s.turn
  | _, _ => true

def program : Program State Section Choice := ⟨entry, ready, exec cfg⟩

def start : Pool State Section := ⟨{}, []⟩

section Steps

inductive SendStep (s : State) : Section → State → List Section → Prop where
  | send (f : Frame) (flush : Bool) (free : s.mu = false) :
      SendStep s (.send f flush) { s with mu := true } [.route f (.app flush)]
  | shut (f : Frame) (k : Sender) : SendStep s (.route f k) s [.fail k .failed]
  | full (f : Frame) (k : Sender) : SendStep s (.route f k) s [.flushBatch (.append f k)]
  | joins (f : Frame) (k : Sender) : SendStep s (.route f k) s [.append f k]
  | direct (f : Frame) (k : Sender) : SendStep s (.route f k) s [.flushBatch (.track f k)]
  | empty (n : Next) (none : s.batch = 0) : SendStep s (.flushBatch n) s [n.section]
  | flush (n : Next) : SendStep s (.flushBatch n) { s with batch := 0 } [.pend s.batch n]
  | pend (bytes : Nat) (n : Next) :
      SendStep s (.pend bytes n) { s with pendingBytes := s.pendingBytes + bytes } [.hand bytes n]
  | handed (bytes : Nat) (n : Next) :
      SendStep s (.hand bytes n) { s with entered := s.entered + bytes } [n.section]
  | handRefused (bytes taken : Nat) (n : Next) (less : taken < bytes) :
      SendStep s (.hand bytes n) { s with entered := s.entered + taken }
        [.rollback (bytes - taken) (.batch n)]
  | append (f : Frame) (k : Sender) :
      SendStep s (.append f k)
        { s with batch := s.batch + f.size, outboundAccepted := s.outboundAccepted + f.size }
        [.markTarget f k false]
  | track (f : Frame) (k : Sender) :
      SendStep s (.track f k) { s with pendingBytes := s.pendingBytes + f.size } [.count f k]
  | count (f : Frame) (k : Sender) :
      SendStep s (.count f k) { s with outboundAccepted := s.outboundAccepted + f.size }
        [.markTarget f k true]
  | target (f : Frame) (k : Sender) :
      SendStep s (.markTarget f k false) (s.markTarget f k false) [.sent k]
  | targetDirect (f : Frame) (k : Sender) :
      SendStep s (.markTarget f k true) (s.markTarget f k true) [.write f k]
  | wrote (f : Frame) (k : Sender) :
      SendStep s (.write f k) { s with entered := s.entered + f.size } [.sent k]
  | writeRefused (f : Frame) (k : Sender) (taken : Nat) (res : Result) (less : taken < f.size) :
      SendStep s (.write f k) { s with entered := s.entered + taken }
        [.rollback (f.size - taken) (.fail k res)]
  | rollback (bytes : Nat) (after : After) :
      SendStep s (.rollback bytes after) { s with pendingBytes := s.pendingBytes - bytes }
        [.uncount (min bytes s.pendingBytes) after]
  | uncount (bytes : Nat) (after : After) :
      SendStep s (.uncount bytes after) { s with outboundAccepted := s.outboundAccepted - bytes }
        [after.section]
  | failStream (n : Next) (closing : Bool) :
      SendStep s (.failStream n) { s with closing := s.closing || closing } [n.refused]
  | sent (flush : Bool) : SendStep s (.sent (.app flush)) s [.unlock (.app flush) .ok]
  | sentFlush (k : Sender) : SendStep s (.sent k) s [.flushBatch (.flushed k)]
  | rawFlush (k : Sender) : SendStep s (.rawFlush k) s [.unlock k .ok]
  | rawFlushFails (k : Sender) : SendStep s (.rawFlush k) s [.fail k .failed]
  | failApp (flush : Bool) (res : Result) :
      SendStep s (.fail (.app flush) res) s [.unlock (.app flush) res]
  | failBeat (now : Int) (nonce : Nat) (res : Result) :
      SendStep s (.fail (.beat now nonce) res)
        { s with heartbeat := s.heartbeat.cancelPing nonce } [.unlock (.beat now nonce) res]
  | unlock (k : Sender) (res : Result) : SendStep s (.unlock k res) s [.release k res]
  | unlockFlush (k : Sender) (res : Result) :
      SendStep s (.unlock k res) s [.flushBatch (.release k res)]
  | releaseApp (flush : Bool) (res : Result) :
      SendStep s (.release (.app flush) res) { s with mu := false } []
  | releaseBeat (now : Int) (nonce : Nat) (res : Result) :
      SendStep s (.release (.beat now nonce) res) { s with mu := false } [.pinged now res]

theorem execSend_step (c : Choice) (a : Section) (s : State) (allowed : ready a s = true)
    (mine : a.part = .sender) : SendStep s a (execSend c a s).1 (execSend c a s).2 := by
  cases a
  case send f flush => exact .send f flush (by simpa [ready] using allowed)
  case route f k =>
    simp only [execSend]
    split
    · exact .shut f k
    · split
      · cases c.full
        · exact .joins f k
        · exact .full f k
      · exact .direct f k
  case flushBatch n =>
    simp only [execSend]
    split
    · rename_i none
      exact .empty n none
    · exact .flush n
  case pend bytes n => exact .pend bytes n
  case hand bytes n =>
    simp only [execSend]
    split
    · exact .handed bytes n
    · rename_i less
      exact .handRefused bytes c.taken n (Nat.lt_of_not_le less)
  case append f k => exact .append f k
  case track f k => exact .track f k
  case count f k => exact .count f k
  case markTarget f k direct =>
    cases direct with
    | false => exact .target f k
    | true => exact .targetDirect f k
  case write f k =>
    simp only [execSend]
    split
    · exact .wrote f k
    · rename_i less
      exact .writeRefused f k c.taken _ (Nat.lt_of_not_le less)
  case rollback bytes after => exact .rollback bytes after
  case uncount bytes after => exact .uncount bytes after
  case failStream n =>
    simp only [execSend]
    split
    · have step := SendStep.failStream (s := s) n false
      rw [Bool.or_false] at step
      exact step
    · have step := SendStep.failStream (s := s) n true
      rw [Bool.or_true] at step
      exact step
  case sent k =>
    cases k with
    | app flush =>
      cases flush with
      | false => exact .sent false
      | true => exact .sentFlush (.app true)
    | beat now nonce => exact .sentFlush (.beat now nonce)
  case rawFlush k =>
    simp only [execSend]
    split
    · exact .rawFlushFails k
    · exact .rawFlush k
  case fail k res =>
    cases k with
    | app flush => exact .failApp flush res
    | beat now nonce => exact .failBeat now nonce res
  case unlock k res =>
    simp only [execSend]
    split
    · exact .unlock k res
    · exact .unlockFlush k res
  case release k res =>
    cases k with
    | app flush => exact .releaseApp flush res
    | beat now nonce => exact .releaseBeat now nonce res
  all_goals cases mine

inductive TickStep (s : State) : Section → State → List Section → Prop where
  | begin (armed : Int) :
      TickStep s .beginHeartbeat
        { s with
          heartbeat :=
            { s.heartbeat with
              nextPingAt := s.clock + cfg.heartbeatInterval, armedAt := armed } } []
  | timerShut (free : s.turn = false) (shut : s.isOpen = false) :
      TickStep s .timerTick { s with turn := true } [.endTick s.clock]
  | timerDefers (free : s.turn = false) :
      TickStep s .timerTick { s with turn := true } [.deferExpiry s.clock true]
  | timerEnters (free : s.turn = false) :
      TickStep s .timerTick { s with turn := true } [.enter s.clock]
  | tick (free : s.turn = false) :
      TickStep s .heartbeatTick { s with turn := true } [.enter s.clock]
  | enterShut (now : Int) (shut : s.isOpen = false) : TickStep s (.enter now) s [.endTick now]
  | enterSteady (now : Int) (idle : s.heartbeat.pingOutstanding = false) :
      TickStep s (.enter now) s [.endTick now]
  | enter (now : Int) : TickStep s (.enter now) s [.deferExpiry now false]
  | defers (now : Int) (timer : Bool)
      (within : now < s.heartbeat.pingSentAt + 2 * cfg.heartbeatTimeout) :
      TickStep s (.deferExpiry now timer)
        { s with heartbeat := { s.heartbeat with deferredAt := s.heartbeat.parsed } } [.arm now]
  | again (now : Int) : TickStep s (.deferExpiry now true) s [.enter now]
  | decides (now : Int) : TickStep s (.deferExpiry now false) s [.expirePing now]
  | expired (now : Int) (h : Heartbeat) (idle : h.pingOutstanding = false)
      (none : h.sendStalledAt = 0)
      (late : s.heartbeat.pingOutstanding = true →
        s.heartbeat.startedAt + cfg.heartbeatTimeout ≤ now) :
      TickStep s (.expirePing now) { s with heartbeat := h, refusedAt := .none }
        [.expireHeartbeat now]
  | unexpired (now : Int)
      (early : s.heartbeat.pingOutstanding = true → s.heartbeat.pingSentAt ≠ 0 →
        now < s.heartbeat.pingSentAt + cfg.heartbeatTimeout) :
      TickStep s (.expirePing now) s [.due now]
  | expireHeartbeat (now : Int) :
      TickStep s (.expireHeartbeat now) { s with closing := true } [.endTick now]
  | dueIdle (now : Int) : TickStep s (.due now) s [.endTick now]
  | duePing (now : Int) : TickStep s (.due now) s [.openPing now]
  | dueArm (now : Int) : TickStep s (.due now) s [.arm now]
  | openFails (now : Int) : TickStep s (.openPing now) s [.pinged now .failed]
  | openPing (now : Int) (nonce : Nat) (some : nonce ≠ 0) :
      TickStep s (.openPing now) s [.lockPing now nonce]
  | lockShut (now : Int) (nonce : Nat) (free : s.mu = false) :
      TickStep s (.lockPing now nonce) { s with mu := true } [.unlock (.beat now nonce) .failed]
  | lockHeld (now : Int) (nonce : Nat) (free : s.mu = false) :
      TickStep s (.lockPing now nonce) { s with mu := true } [.unlock (.beat now nonce) .ok]
  | lockBegins (now : Int) (nonce : Nat) (free : s.mu = false)
      (idle : s.heartbeat.pingOutstanding = false) :
      TickStep s (.lockPing now nonce)
        { s with mu := true, heartbeat := (s.heartbeat.beginPing now nonce).1 }
        [.route (pingFrame cfg nonce) (.beat now nonce)]
  | pingedOk (now : Int) : TickStep s (.pinged now .ok) s [.moveOn now]
  | pingedStalls (now : Int) : TickStep s (.pinged now .backpressure) s [.noteSendStall now]
  | pingedAborts (now : Int) :
      TickStep s (.pinged now .failed) { s with closing := true } [.endTick now]
  | pingedGoesOn (now : Int) : TickStep s (.pinged now .failed) s [.moveOn now]
  | noteSendStall (now : Int) :
      TickStep s (.noteSendStall now)
        { s with
          heartbeat := s.heartbeat.noteSendStall now, refusedAt := s.refusedAt <|> some now }
        [.moveOn now]
  | moveOn (now : Int) :
      TickStep s (.moveOn now)
        { s with heartbeat := { s.heartbeat with nextPingAt := now + cfg.heartbeatInterval } }
        [.arm now]
  | arm (now armed : Int) :
      TickStep s (.arm now) { s with heartbeat := { s.heartbeat with armedAt := armed } }
        [.endTick now]
  | endTick (now : Int) :
      TickStep s (.endTick now) { s with turn := false, ticked := max s.ticked now } []

theorem deferExpiry_step (c : Choice) (now : Int) (timer : Bool) (s : State) :
    TickStep cfg s (.deferExpiry now timer) (execTick cfg c (.deferExpiry now timer) s).1
      (execTick cfg c (.deferExpiry now timer) s).2 := by
  have waits := deferExpiry_true s.heartbeat now cfg.heartbeatTimeout (timer || c.staged)
  have quiet := deferExpiry_false s.heartbeat now cfg.heartbeatTimeout (timer || c.staged)
  simp only [execTick]
  generalize s.heartbeat.deferExpiry now cfg.heartbeatTimeout (timer || c.staged) = answer at waits quiet
  obtain ⟨h, deferred⟩ := answer
  cases deferred with
  | true =>
    obtain ⟨outstanding, sent, deadline, expiry, -, within, same⟩ := waits rfl
    obtain rfl : h = _ := same
    refine .defers now timer ?_
    have started : s.heartbeat.startedAt = s.heartbeat.pingSentAt := if_pos sent
    simp only [Heartbeat.expiryLocked, outstanding, if_true, started, if_neg sent,
      Option.some.injEq] at expiry
    omega
  | false =>
    obtain rfl : h = s.heartbeat := quiet rfl
    cases timer with
    | true => exact .again now
    | false => exact .decides now

theorem expirePing_step (c : Choice) (now : Int) (s : State) :
    TickStep cfg s (.expirePing now) (execTick cfg c (.expirePing now) s).1
      (execTick cfg c (.expirePing now) s).2 := by
  have late := expirePing_true s.heartbeat now cfg.heartbeatTimeout
  have same := expirePing_false s.heartbeat now cfg.heartbeatTimeout
  have early := expirePing_early s.heartbeat now cfg.heartbeatTimeout
  simp only [execTick]
  generalize s.heartbeat.expirePing now cfg.heartbeatTimeout = answer at late same early
  obtain ⟨h, expired⟩ := answer
  cases expired with
  | true =>
    obtain ⟨idle, none, past⟩ := late rfl
    exact .expired now h idle none past
  | false =>
    obtain rfl : h = s.heartbeat := same rfl
    exact .unexpired now (early rfl)

theorem lockPing_step (c : Choice) (now : Int) (nonce : Nat) (s : State) (free : s.mu = false) :
    TickStep cfg s (.lockPing now nonce) (execTick cfg c (.lockPing now nonce) s).1
      (execTick cfg c (.lockPing now nonce) s).2 := by
  simp only [execTick]
  split
  · exact .lockShut now nonce free
  · split
    · exact .lockHeld now nonce free
    · rename_i h begun
      have idle : s.heartbeat.pingOutstanding = false := by
        cases outstanding : s.heartbeat.pingOutstanding with
        | false => rfl
        | true => simp [Heartbeat.beginPing, outstanding] at begun
      obtain rfl : (s.heartbeat.beginPing now nonce).1 = h := congrArg Prod.fst begun
      exact .lockBegins now nonce free idle

theorem execTick_step (c : Choice) (a : Section) (s : State) (allowed : ready a s = true)
    (mine : a.part = .tick) : TickStep cfg s a (execTick cfg c a s).1 (execTick cfg c a s).2 := by
  cases a
  case beginHeartbeat => exact .begin c.armed
  case timerTick =>
    have free : s.turn = false := by simpa [ready] using allowed
    simp only [execTick]
    split
    · rename_i shut
      exact .timerShut free shut
    · split
      · exact .timerDefers free
      · exact .timerEnters free
  case heartbeatTick => exact .tick (by simpa [ready] using allowed)
  case enter now =>
    simp only [execTick]
    split
    · rename_i shut
      exact .enterShut now shut
    · split
      · rename_i steady
        simp only [Heartbeat.steady, Bool.and_eq_true, Bool.not_eq_true'] at steady
        exact .enterSteady now steady.2
      · exact .enter now
  case deferExpiry now timer => exact deferExpiry_step cfg c now timer s
  case expirePing now => exact expirePing_step cfg c now s
  case expireHeartbeat now => exact .expireHeartbeat now
  case due now =>
    simp only [execTick]
    split
    · exact .dueIdle now
    · split
      · exact .duePing now
      · exact .dueArm now
  case openPing now =>
    simp only [execTick]
    split
    · exact .openFails now
    · refine .openPing now _ ?_
      split <;> omega
  case lockPing now nonce => exact lockPing_step cfg c now nonce s (by simpa [ready] using allowed)
  case pinged now res =>
    cases res with
    | ok => exact .pingedOk now
    | backpressure => exact .pingedStalls now
    | failed =>
      simp only [execTick]
      split
      · exact .pingedAborts now
      · exact .pingedGoesOn now
  case noteSendStall now => exact .noteSendStall now
  case moveOn now => exact .moveOn now
  case arm now => exact .arm now c.armed
  case endTick now => exact .endTick now
  all_goals cases mine

inductive OtherStep (s : State) : Section → State → List Section → Prop where
  | transportSent (bytes left : Nat) (some : left ≤ s.entered - s.reported) :
      OtherStep s (.transportSent bytes) { s with reported := s.reported + left } [.reduce left]
  | reduce (bytes : Nat) :
      OtherStep s (.reduce bytes) { s with pendingBytes := s.pendingBytes - bytes }
        [.retire (min bytes s.pendingBytes)]
  | retireNone : OtherStep s (.retire 0) s []
  | retire (bytes : Nat) :
      OtherStep s (.retire bytes) { s with outboundRetired := s.outboundRetired + bytes }
        [.markPingSent (s.outboundRetired + bytes)]
  | markPingSent (retired : Nat) (outstanding : s.heartbeat.pingOutstanding = true)
      (unsent : s.heartbeat.pingSentAt = 0) (marked : s.heartbeat.pingTarget ≠ 0)
      (passed : s.heartbeat.pingTarget ≤ retired) (refusedAt : Option Int)
      (ended : 0 < s.clock → refusedAt = none) :
      OtherStep s (.markPingSent retired)
        { s with
          heartbeat := { s.heartbeat with pingSentAt := s.clock, sendStalledAt := 0 }
          refusedAt := refusedAt } []
  | unmarked (retired : Nat) : OtherStep s (.markPingSent retired) s []
  | pong (nonce : Nat) (free : s.turn = false) (outstanding : s.heartbeat.pingOutstanding = true)
      (same : s.heartbeat.pingNonce = nonce) :
      OtherStep s (.pong nonce)
        { s with
          heartbeat := { s.heartbeat.clearPingLocked with sendStalledAt := 0 }
          refusedAt := none } []
  | stray (nonce : Nat) : OtherStep s (.pong nonce) s []
  | frame :
      OtherStep s .frame
        { s with heartbeat := { s.heartbeat with parsed := s.heartbeat.parsed + 1 } } []
  | elapse (nanos : Nat) : OtherStep s (.elapse nanos) { s with clock := s.clock + nanos } []
  | close (closed : Bool) : OtherStep s (.close closed) { s with closed := true } []
  | closing (closed : Bool) : OtherStep s (.close closed) { s with closing := true } []

theorem execOther_step (a : Section) (s : State) (allowed : ready a s = true)
    (mine : a.part = .other) : OtherStep s a (execOther a s).1 (execOther a s).2 := by
  cases a
  case transportSent bytes => exact .transportSent bytes _ (Nat.min_le_right _ _)
  case reduce bytes => exact .reduce bytes
  case retire bytes =>
    simp only [execOther]
    split
    · rename_i none
      subst none
      exact .retireNone
    · exact .retire bytes
  case markPingSent retired =>
    simp only [execOther, Heartbeat.markPingSent]
    split
    · rename_i passed
      refine .markPingSent retired passed.1 passed.2.1 passed.2.2.1 passed.2.2.2 _ ?_
      intro positive
      apply if_neg
      intro same
      have at_clock := congrArg Heartbeat.pingSentAt same
      rw [passed.2.1] at at_clock
      simp only at at_clock
      omega
    · rw [if_pos rfl]
      exact .unmarked retired
  case pong nonce =>
    have free : s.turn = false := by simpa [ready] using allowed
    simp only [execOther, Heartbeat.acknowledgePing]
    split
    · rename_i h answered
      split at answered
      · cases answered
      · rename_i fits
        simp only [not_or, Bool.not_eq_false, ne_eq, not_not] at fits
        cases answered
        exact .pong nonce free fits.2.1 fits.2.2
    · exact .stray nonce
  case frame => exact .frame
  case elapse nanos => exact .elapse nanos
  case close closed =>
    cases closed with
    | true => exact .close true
    | false => exact .closing false
  all_goals cases mine

inductive Step (s : State) (a : Section) (s' : State) (more : List Section) : Prop where
  | send (step : SendStep s a s' more)
  | tick (step : TickStep cfg s a s' more)
  | other (step : OtherStep s a s' more)

theorem exec_step (c : Choice) (a : Section) (s : State) (allowed : ready a s = true) :
    Step cfg s a (exec cfg c a s).1 (exec cfg c a s).2 := by
  unfold exec
  cases part : a.part with
  | sender => exact .send (execSend_step c a s allowed part)
  | tick => exact .tick (execTick_step cfg c a s allowed part)
  | other => exact .other (execOther_step a s allowed part)

end Steps

section Locks

def Next.by : Next → Sender
  | .append _ k | .track _ k | .flushed k | .release k _ => k

def After.by : After → Sender
  | .fail k _ => k
  | .batch n => n.by

def Section.by : Section → Option Sender
  | .route _ k | .append _ k | .track _ k | .count _ k | .markTarget _ k _ | .write _ k | .sent k
  | .rawFlush k | .fail k _ | .unlock k _ | .release k _ => some k
  | .flushBatch n | .pend _ n | .hand _ n | .failStream n => some n.by
  | .rollback _ after | .uncount _ after => some after.by
  | _ => none

def Sender.ticks : Sender → Bool
  | .app _ => false
  | .beat _ _ => true

def Section.ticks : Section → Bool
  | .enter _ | .deferExpiry _ _ | .expirePing _ | .expireHeartbeat _ | .due _ | .openPing _
  | .lockPing _ _ | .pinged _ _ | .noteSendStall _ | .moveOn _ | .arm _ | .endTick _ => true
  | a => a.by.any Sender.ticks

def mu : Monitor.Mutex State Section := ⟨State.mu, fun a => a.by.isSome⟩

def turn : Monitor.Mutex State Section := ⟨State.turn, Section.ticks⟩

@[simp] theorem by_section (n : Next) : n.section.by = some n.by := by
  cases n <;> rfl

@[simp] theorem by_refused (n : Next) : n.refused.by = some n.by := by
  cases n <;> rfl

@[simp] theorem by_after (after : After) : after.section.by = some after.by := by
  cases after <;> rfl

theorem ticks_by {a : Section} {k : Sender} (mine : a.by = some k) : a.ticks = k.ticks := by
  cases a <;> simp_all [Section.by, Section.ticks]

@[simp] theorem ticks_section (n : Next) : n.section.ticks = n.by.ticks := ticks_by (by_section n)

@[simp] theorem ticks_refused (n : Next) : n.refused.ticks = n.by.ticks := ticks_by (by_refused n)

@[simp] theorem ticks_after (after : After) : after.section.ticks = after.by.ticks :=
  ticks_by (by_after after)

end Locks

end UwsHeartbeatRuns
