import Uio.Monitor

/-!
How frames reach the transport and how the transport gets closed. A connection's senders
hold `writes.mu`: they put small frames of a read round into the write batch and hand
larger ones over after it. A Close frame that the outbound limit refuses is deferred and
retried without the lock by whoever sees room. Every operation on shared data is one
section; sizes, refusals, failures and receipts are the transport's choice. `tracked` is
a transport that hands out receipts, which are compared by value and may be equal.
-/
namespace UwsWrites
open Interleaving

inductive Kind where
  | data
  | ping
  | pong
  | close
deriving DecidableEq

structure Frame where
  kind : Kind
  size : Nat
  seq : Nat
deriving DecidableEq

/-- A place on the wire; the zero value is `none` where a receipt may be missing. -/
structure SendReceipt where
  wire : Nat
  inexact : Bool
deriving DecidableEq

inductive Phase where
  | idle
  | pending
  | claimed
deriving DecidableEq

/-- `payload` is a stored deferred Close, `receipt` and `earlySend` are zero when `none`.
    Below `pendingBytes` stands what the transport has seen; `receipts` has the receipts it
    handed out, the first one first, `fired` those it reported, the last one first. -/
structure State where
  closing : Bool := false
  closed : Bool := false
  batching : Bool := false
  mu : Bool := false
  batch : List Frame := []
  closeFrameSent : Bool := false
  closeFrameDeferred : Bool := false
  phase : Phase := .idle
  payload : Bool := false
  receipt : Option SendReceipt := none
  earlySend : Option SendReceipt := none
  done : Bool := false
  pendingBytes : Nat := 0
  rawClosed : Bool := false
  handed : List Frame := []
  accepted : Nat := 0
  acceptedBytes : Nat := 0
  reportedBytes : Nat := 0
  receipts : List SendReceipt := []
  closeReceipts : List (Option SendReceipt) := []
  fired : List SendReceipt := []
  -- A retry has the deferred Close out.
  taken : Bool := false
  claims : Nat := 0

/-- What the transport says to a write: `fails` leaves it closing, after some bytes. -/
inductive Answer where
  | accepts
  | overflow
  | unsupported
  | fails (closed : Bool) (n : Nat)

structure Choice where
  answer : Answer := .accepts
  size : Nat := 0
  small : Bool := false
  room : Bool := false
  full : Bool := false
  declines : Bool := false
  receipt : Option SendReceipt := none

inductive Closer where
  | app
  | peer
  | protocol
deriving DecidableEq

/-- The calls that take the write lock. `fast` and `short` are `batchMessageLocked` and
    `sendShortLocked`; a message has fragments left, `hand` only unlocks. -/
inductive Job where
  | fast (left : Nat)
  | short (left : Nat)
  | message (left : Nat) (begun : Bool)
  | control (pong : Bool)
  | heartbeatPing
  | heartbeatClose
  | close (by_ : Closer)
  | hand
deriving DecidableEq

def Job.kind : Job → Kind
  | .control pong => if pong then .pong else .ping
  | .heartbeatPing => .ping
  | .heartbeatClose | .close _ => .close
  | _ => .data

def Job.isClose : Job → Bool
  | .heartbeatClose | .close _ => true
  | _ => false

inductive Result where
  | ok
  | backpressure
  | unsupported
  | closed
  | failed
deriving DecidableEq

inductive Next where
  | append
  | track
  | tail (deferred : Bool)
  | unlock (r : Result) (deferred : Bool)

inductive Section where
  | call (job : Job)
  | beginWriteBatch
  | endRound
  | onOutbound
  | onSent (r : SendReceipt)
  | failStream
  | closeTimer
  | rawCloses
  | onClose
  | lock (job : Job)
  -- Under the write lock.
  | enter (job : Job)
  | quickFlags (fast : Bool) (left : Nat)
  | quickClosing (fast : Bool) (left : Nat)
  | sendChecks (left : Nat)
  | queue (job : Job)
  | closeQueued (job : Job)
  | route (job : Job)
  | append (job : Job)
  | flushTake (next : Next) (job : Job)
  | flushCount (next : Next) (job : Job) (frames : List Frame)
  | flushWrite (next : Next) (job : Job) (frames : List Frame)
  | flushRollback (next : Next) (job : Job) (n : Nat) (closed : Bool)
  | flushed (next : Next) (job : Job) (r : Result)
  | track (job : Job)
  | write (job : Job) (size : Nat)
  | rollback (job : Job) (n : Nat) (r : Result)
  | writeTracked (job : Job)
  | setReceipt (job : Job) (r : Option SendReceipt)
  | setDone (job : Job)
  | markSent (job : Job)
  | result (job : Job) (r : Result)
  | deferClose (closer : Closer)
  | closingMark (job : Job) (r : Result) (deferred : Bool)
  | rawFlush (job : Job) (deferred : Bool)
  | unlockCheck (job : Job) (r : Result) (deferred : Bool)
  | unlock (job : Job) (r : Result) (deferred : Bool)
  | unlockFast
  -- Without it.
  | post (job : Job) (r : Result) (deferred : Bool)
  | markClosing
  | claimAbort
  | rawClose
  | heartbeatFailed
  | heartbeatClosing
  | requestTransportClose (job : Job)
  | closeFlush (job : Job)
  | tryClose
  | claimLook
  | claim
  | storeDone
  | sentDeferred
  | takeDeferred
  | retry
  | retryTrack
  | retryWrite (size : Nat)
  | retryRollback (n : Nat) (r : Result)
  | retryTracked
  | retryReceipt (r : Option SendReceipt)
  | retryDone
  | retryMark
  | restore
  | retryRoom

def bytes (frames : List Frame) : Nat := (frames.map Frame.size).sum

variable (tracked : Bool)

def counted (n : Nat) : Nat := if tracked then 0 else n

def answer (c : Choice) (s : State) : Answer := if s.rawClosed then .fails true 0 else c.answer

def failure (closed : Bool) : Result := if closed then .closed else .failed

def hand (f : Kind) (size : Nat) (s : State) : State :=
  { s with
    handed := s.handed ++ [⟨f, size, s.accepted⟩]
    accepted := s.accepted + 1
    acceptedBytes := s.acceptedBytes + size }

def breaks (n : Nat) (s : State) : State :=
  { s with rawClosed := true, acceptedBytes := s.acceptedBytes + n }

def claimable (s : State) : Bool :=
  s.phase == .pending && !s.closeFrameDeferred &&
    (if tracked then s.done else s.pendingBytes == 0)

/-- What a call does with the result of its frame, still under the lock. -/
def resultOf : Job → Result → List Section
  | .fast _, _ => [.unlockFast]
  | .short left, .unsupported => [.sendChecks left]
  | .short _, r => [.unlockCheck .hand r false]
  | .message 0 _, .ok => [.unlockCheck .hand .ok false]
  | .message (left + 1) _, .ok => [.queue (.message left true)]
  | .message _ _, .closed => [.unlockCheck .hand .closed false]
  -- A message cut short leaves a stream nobody can trust.
  | .message _ true, r => [.markClosing, .claimAbort, .unlockCheck .hand r false]
  | .message _ false, r => [.unlockCheck .hand r false]
  | .control pong, .ok => [.flushTake (.tail false) (.control pong)]
  | .control _, r => [.unlockCheck .hand r false]
  | .heartbeatPing, .ok => [.flushTake (.tail false) .heartbeatPing]
  | .heartbeatPing, r => [.unlockCheck .heartbeatPing r false]
  | .heartbeatClose, .ok => [.flushTake (.tail false) .heartbeatClose]
  | .heartbeatClose, r => [.closingMark .heartbeatClose r false]
  | .close closer, .backpressure => [.deferClose closer]
  | .close closer, r => [.closingMark (.close closer) r false]
  | .hand, r => [.unlockCheck .hand r false]

/-- `flushLocked` is done: only the heartbeat's Close marks the connection after it. -/
def tailed : Job → Result → Bool → Section
  | .heartbeatClose, r, deferred => .closingMark .heartbeatClose r deferred
  | job, r, deferred => .unlockCheck job r deferred

def marked : Job → Result → Bool → Section
  | .close closer, .ok, deferred => .flushTake (.tail deferred) (.close closer)
  | job, r, deferred => .unlockCheck job r deferred

def flushedTo : Next → Job → Result → List Section
  | .append, job, .ok => [.append job]
  | .track, job, .ok => [.track job]
  | .tail deferred, job, .ok => [.rawFlush job deferred]
  | .tail deferred, job, r => [tailed job r deferred]
  | .unlock r deferred, job, _ => [.unlock job r deferred]
  | _, job, r => [.result job r]

def closeTransport (job : Job) : List Section := [.markClosing, .requestTransportClose job]

def postOf : Job → Result → Bool → List Section
  | .heartbeatPing, .closed, _ | .heartbeatPing, .failed, _ => [.heartbeatFailed]
  | .heartbeatClose, .ok, _ => closeTransport .heartbeatClose
  | .heartbeatClose, _, _ => [.claimAbort]
  | .close .app, .ok, deferred => if deferred then [.takeDeferred] else []
  | .close .app, .closed, _ => []
  | .close .app, _, _ => [.claimAbort]
  | .close .peer, r, deferred =>
    (if deferred then [.takeDeferred] else []) ++
      match r with
      | .ok | .closed => closeTransport (.close .peer)
      -- The read round answers any other error with a protocol close.
      | _ => [.lock (.close .protocol)]
  | .close .protocol, r, deferred =>
    (if deferred then [.takeDeferred] else []) ++
      match r with
      | .ok => closeTransport (.close .protocol)
      | _ => [.markClosing, .claimAbort]
  | _, _, _ => []

def closeFailed : Job → List Section
  | .close .peer => [.lock (.close .protocol)]
  | .close .protocol => [.claimAbort]
  | _ => []

def retryEnds : Result → List Section
  | .backpressure => [.restore]
  | .closed => []
  | _ => [.markClosing, .claimAbort]

def callable : Job → State → Bool
  | .heartbeatPing, s => !(s.closed || s.closing)
  | .close .app, s => !s.closing
  | _, _ => true

def entered (c : Choice) (s : State) : Job → Section
  | .message left _ => .quickFlags s.batching left
  | .heartbeatPing =>
    if s.closed || s.closing || c.declines then .unlockCheck .hand .ok false
    else if tracked then .writeTracked .heartbeatPing
    else .queue .heartbeatPing
  | .heartbeatClose =>
    if s.closed || s.closing then .unlockCheck .hand .ok false else .queue .heartbeatClose
  | .close .app =>
    if s.closed || s.closing then .unlockCheck .hand .ok false else .queue (.close .app)
  | .control pong => .queue (.control pong)
  | .close closer => .queue (.close closer)
  | _ => .unlockCheck .hand .ok false

/-- The flags as `batchMessageLocked` and `sendShortLocked` want them: all clear, and for
    the latter no batch to hand over first. -/
def quick (c : Choice) (s : State) (fast : Bool) : Bool :=
  !(c.declines || tracked || s.closeFrameSent || s.closeFrameDeferred || s.phase != .idle) &&
    (fast || s.batch.isEmpty)

def exec (c : Choice) : Section → State → State × List Section
  | .call job, s => if callable job s then (s, [.lock job]) else (s, [])
  | .beginWriteBatch, s => ({ s with batching := true }, [])
  | .endRound, s =>
    if s.batching then ({ s with batching := false }, [.lock .hand]) else (s, [])
  | .onOutbound, s =>
    if tracked then (s, [.sentDeferred, .tryClose])
    else
      ({ s with
          pendingBytes := s.pendingBytes - min c.size (s.acceptedBytes - s.reportedBytes)
          reportedBytes := s.reportedBytes + min c.size (s.acceptedBytes - s.reportedBytes) },
        [.sentDeferred, .tryClose])
  | .onSent r, s =>
    if s.receipt = some r then
      ({ s with receipt := none, fired := r :: s.fired }, [.storeDone, .tryClose])
    else ({ s with earlySend := some r, fired := r :: s.fired }, [])
  | .failStream, s => (s, [.markClosing, .claimAbort])
  | .closeTimer, s => if s.closed then (s, []) else (s, [.claimAbort])
  | .rawCloses, s => ({ s with rawClosed := true }, [])
  | .onClose, s => ({ s with closed := true }, [])
  | .lock job, s => ({ s with mu := true }, [.enter job])
  | .enter job, s => (s, [entered tracked c s job])
  | .quickFlags fast left, s =>
    if quick tracked c s fast then (s, [.quickClosing fast left]) else (s, [.sendChecks left])
  | .quickClosing fast left, s =>
    if s.closed || s.closing then (s, [.sendChecks left])
    else if fast = false then (s, [.track (.short left)])
    else if c.full then (s, [.flushTake .append (.fast left)])
    else (s, [.append (.fast left)])
  | .sendChecks left, s =>
    if s.closed || s.closing || c.declines then (s, [.unlockCheck .hand .closed false])
    else (s, [.queue (.message left false)])
  | .queue job, s =>
    if s.closed || (s.closing && !job.isClose) then (s, [.result job .closed])
    else if c.declines then (s, [.result job .failed])
    else if job.isClose then (s, [.closeQueued job])
    else (s, [.route job])
  | .closeQueued job, s =>
    if s.closeFrameSent || s.closeFrameDeferred then (s, [.result job .ok])
    -- The batch is not handed over before a tracked Close.
    else if tracked then (s, [.writeTracked job])
    else (s, [.route job])
  | .route job, s =>
    if c.declines then (s, [.result job .failed])
    else if c.small && s.batching && c.room then
      if c.full then (s, [.flushTake .append job]) else (s, [.append job])
    else (s, [.flushTake .track job])
  | .append job, s =>
    ({ s with
        batch := s.batch ++ [⟨job.kind, c.size, s.accepted⟩]
        accepted := s.accepted + 1 },
      if job.isClose then [.markSent job] else [.result job .ok])
  | .flushTake next job, s =>
    if s.batch = [] then (s, [.flushed next job .ok])
    else ({ s with batch := [] }, [.flushCount next job s.batch])
  | .flushCount next job frames, s =>
    ({ s with pendingBytes := s.pendingBytes + counted tracked (bytes frames) },
      [.flushWrite next job frames])
  | .flushWrite next job frames, s =>
    match answer c s with
    | .accepts =>
      ({ s with
          handed := s.handed ++ frames
          acceptedBytes := s.acceptedBytes + bytes frames }, [.flushed next job .ok])
    | .overflow => (s, [.flushRollback next job (bytes frames) false])
    | .unsupported => (s, [.flushWrite next job frames])
    | .fails closed n =>
      (breaks (min n (bytes frames)) s,
        [.flushRollback next job (bytes frames - min n (bytes frames)) closed])
  | .flushRollback next job n closed, s =>
    ({ s with pendingBytes := s.pendingBytes - counted tracked n },
      if closed then [.flushed next job .closed]
      else [.markClosing, .claimAbort, .flushed next job .failed])
  | .flushed next job r, s => (s, flushedTo next job r)
  | .track job, s =>
    ({ s with pendingBytes := s.pendingBytes + counted tracked c.size }, [.write job c.size])
  | .write job size, s =>
    match answer c s with
    | .accepts =>
      (hand job.kind size s, if job.isClose then [.markSent job] else [.result job .ok])
    | .overflow => (s, [.rollback job size .backpressure])
    | .unsupported =>
      match job with
      | .short _ => (s, [.rollback job size .unsupported])
      | _ => (s, [.write job size])
    | .fails closed n =>
      (breaks (min n size) s, [.rollback job (size - min n size) (failure closed)])
  | .rollback job n r, s =>
    ({ s with pendingBytes := s.pendingBytes - counted tracked n }, [.result job r])
  | .writeTracked job, s =>
    if c.declines then (s, [.result job .failed])
    else match answer c s with
    | .accepts =>
      if job.isClose then
        ({ hand .close c.size s with
            receipts := s.receipts ++ c.receipt.toList
            closeReceipts := c.receipt :: s.closeReceipts }, [.setReceipt job c.receipt])
      else
        ({ hand job.kind c.size s with receipts := s.receipts ++ c.receipt.toList },
          [.result job .ok])
    | .overflow => (s, [.result job .backpressure])
    | .unsupported => (s, [.writeTracked job])
    | .fails closed n => (breaks n s, [.result job (failure closed)])
  | .setReceipt job none, s => ({ s with receipt := none }, [.setDone job])
  | .setReceipt job (some r), s =>
    if s.earlySend = some r then ({ s with earlySend := none }, [.setDone job])
    else ({ s with receipt := some r }, [.markSent job])
  | .setDone job, s => ({ s with done := true }, [.markSent job])
  | .markSent job, s =>
    ({ s with payload := false, closeFrameSent := true, closeFrameDeferred := false },
      [.result job .ok])
  | .result job r, s => (s, resultOf job r)
  | .deferClose closer, s =>
    if s.closeFrameSent || s.closeFrameDeferred || s.phase == .claimed then
      (s, [.closingMark (.close closer) .ok false])
    else
      ({ s with payload := true, closeFrameDeferred := true },
        [.closingMark (.close closer) .ok true])
  | .closingMark job r deferred, s => ({ s with closing := true }, [marked job r deferred])
  | .rawFlush job deferred, s =>
    match c.answer with
    | .fails closed _ => (breaks 0 s, [tailed job (failure closed) deferred])
    | _ => (s, [tailed job .ok deferred])
  | .unlockCheck job r deferred, s =>
    if s.batch = [] ∨ s.batching = true then (s, [.unlock job r deferred])
    else (s, [.flushTake (.unlock r deferred) job])
  | .unlock job r deferred, s => ({ s with mu := false }, [.tryClose, .post job r deferred])
  | .unlockFast, s => ({ s with mu := false }, [])
  | .post job r deferred, s => (s, postOf job r deferred)
  | .markClosing, s => ({ s with closing := true }, [])
  | .claimAbort, s =>
    if s.phase = .claimed then (s, [])
    else
      ({ s with
          payload := false
          closeFrameDeferred := false
          phase := .claimed
          claims := s.claims + 1 }, [.rawClose])
  | .rawClose, s => ({ s with rawClosed := true }, [])
  | .heartbeatFailed, s => if s.closed || s.closing then (s, []) else (s, [.heartbeatClosing])
  | .heartbeatClosing, s => ({ s with closing := true }, [.claimAbort])
  | .requestTransportClose job, s =>
    if s.phase = .claimed then (s, []) else ({ s with phase := .pending }, [.closeFlush job])
  | .closeFlush job, s =>
    match c.answer with
    | .fails false _ => (breaks 0 s, closeFailed job)
    | .fails true _ => (breaks 0 s, [.tryClose, .tryClose])
    | _ => (s, [.tryClose, .tryClose])
  | .tryClose, s => if s.phase = .pending then (s, [.claimLook]) else (s, [])
  | .claimLook, s =>
    if s.closeFrameDeferred || (!tracked && s.pendingBytes != 0) then (s, []) else (s, [.claim])
  | .claim, s =>
    if claimable tracked s then
      ({ s with phase := .claimed, claims := s.claims + 1 }, [.rawClose])
    else (s, [])
  | .storeDone, s => ({ s with done := true }, [])
  | .sentDeferred, s => if s.closeFrameDeferred then (s, [.takeDeferred]) else (s, [])
  | .takeDeferred, s =>
    if s.payload then ({ s with payload := false, taken := true }, [.retry]) else (s, [])
  | .retry, s =>
    if c.declines then ({ s with taken := false }, [.markClosing, .claimAbort])
    else if tracked then (s, [.retryTracked])
    else (s, [.retryTrack])
  | .retryTrack, s => ({ s with pendingBytes := s.pendingBytes + c.size }, [.retryWrite c.size])
  | .retryWrite size, s =>
    match answer c s with
    | .accepts => (hand .close size s, [.retryMark])
    | .overflow => (s, [.retryRollback size .backpressure])
    | .unsupported => (s, [.retryWrite size])
    | .fails closed n =>
      (breaks (min n size) s, [.retryRollback (size - min n size) (failure closed)])
  | .retryRollback n r, s =>
    ({ s with
        pendingBytes := s.pendingBytes - counted tracked n
        taken := if r = .backpressure then s.taken else false }, retryEnds r)
  | .retryTracked, s =>
    match answer c s with
    | .accepts =>
      ({ hand .close c.size s with
          receipts := s.receipts ++ c.receipt.toList
          closeReceipts := c.receipt :: s.closeReceipts }, [.retryReceipt c.receipt])
    | .overflow => (s, [.retryRollback 0 .backpressure])
    | .unsupported => (s, [.retryTracked])
    | .fails closed n => (breaks n s, [.retryRollback 0 (failure closed)])
  | .retryReceipt none, s => ({ s with receipt := none }, [.retryDone])
  | .retryReceipt (some r), s =>
    if s.earlySend = some r then ({ s with earlySend := none }, [.retryDone])
    else ({ s with receipt := some r }, [.retryMark])
  | .retryDone, s => ({ s with done := true }, [.retryMark])
  | .retryMark, s =>
    ({ s with
        payload := false
        closeFrameSent := true
        closeFrameDeferred := false
        taken := false }, [.tryClose])
  | .restore, s =>
    ({ s with payload := s.payload || s.closeFrameDeferred, taken := false }, [.retryRoom])
  | .retryRoom, s => if c.room then (s, [.takeDeferred]) else (s, [])

def entry : Section → Bool
  | .call (.message _ begun) => !begun
  | .call (.control _) | .call .heartbeatPing | .call .heartbeatClose | .call (.close _) => true
  | .beginWriteBatch | .endRound | .onOutbound | .onSent _ | .failStream | .closeTimer
  | .rawCloses | .onClose => true
  | _ => false

/-- The transport reports a receipt it handed out, and `OnClose` after it has closed. -/
def ready : Section → State → Bool
  | .lock _, s => !s.mu
  | .onSent r, s => decide (r ∈ s.receipts)
  | .onClose, s => s.rawClosed
  | _, _ => true

def program : Program State Section Choice := ⟨entry, ready, exec tracked⟩

def start (handshake : Nat) : Pool State Section :=
  ⟨{ pendingBytes := counted tracked handshake, acceptedBytes := handshake }, []⟩

end UwsWrites
