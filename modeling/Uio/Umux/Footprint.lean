import Uio.Umux.Steps

/-!
What each section may change, stated once. `touches` marks the parts of the state
a section works on; `exec_restore` says that putting those parts back gives the
state before, so that every other part is what it was.
-/
namespace UmuxFootprint
open UmuxFrame (rstFrame)
open UmuxOutbox UmuxSession UmuxMachine UmuxLifecycle UmuxTimers UmuxTurn UmuxOutbound UmuxInbound
open UmuxSteps

inductive Part where
  | reg
  | queues
  | conn
  | rx
  | budget
  | credit
  | life
  | time
  | mail
  | status
  | agenda
  | turn
  | rcvd
  | log

def touches : Section → Part → Bool
  | .tick _, .time | .transportSent _, .conn | .acceptReceive, .agenda
  | .turnRead, .conn | .turnRead, .turn | .turnTimer, .time | .turnTimer, .turn
  | .turnClose _, .turn => true
  | .openStream _, .reg | .openStream _, .queues | .openStream _, .conn | .openStream _, .rx
  | .openStream _, .credit | .openStream _, .life | .openStream _, .time
  | .openStream _, .mail => true
  | .close _, .queues | .close _, .conn | .close _, .status => true
  | .shutdown, .queues | .shutdown, .conn | .shutdown, .status => true
  | .write _ _, .credit | .writeOwned _ _, .credit | .writeDone _ _, .credit => true
  | .frameData _ _, .queues | .enqueueFin _, .queues | .emitDrained, .queues => true
  | .read _ _, .rx | .discard _ _, .rx => true
  | .closeWrite _, .life | .closeWrite _, .time | .closeWrite _, .credit => true
  | .closeWriteDone _, .credit | .closeLocal _ _, .life => true
  | .abortStream _ _, .reg | .abortStream _ _, .queues | .abortStream _ _, .conn => true
  | .setWakeDeadline _ _, .time | .setWakeInterval _ _, .time
  | .setDeadlines _ _ _ _ _, .time => true
  | .wake _, .life | .wake _, .agenda | .yieldRead _, .life => true
  | .pauseHold _ _, .life | .resumeRelease _ _, .life => true
  | .waitOpen _, .mail | .forceDrain _, .status | .maybeFinishDrain, .status => true
  | .requestFlush, .conn | .connWake, .conn | .closeConn _, .conn => true
  | .flush, .queues | .flush, .conn => true
  | .sendWindowUpdate _ _, .queues | .sendWindowUpdate _ _, .conn => true
  | .releaseInbound _, .budget | .heldReads, .budget | .exhaustedBudget, .budget
  | .reserveInbound _ _ _ _, .budget => true
  | .tryFinish _, .reg | .tryFinish _, .queues | .tryFinish _, .life | .tryFinish _, .time => true
  | .removeStream _ _, .reg | .removeStream _ _, .queues => true
  | .abortRemote _ _, .reg | .abortRemote _ _, .queues => true
  | .resetStream _ _, .life | .resetStream _ _, .rx => true
  | .answer _ _, .mail | .deliverClose _ _, .life | .queueClose _ _, .agenda
  | .drainCloses, .agenda => true
  | .onRead, .conn | .failTurn _, .conn | .turnEnd, .turn => true
  | .readFrame, .reg | .readFrame, .queues | .readFrame, .conn | .readFrame, .time
  | .readFrame, .status | .readFrame, .turn | .readFrame, .rcvd => true
  | .pushData _ _ _ _, .rx | .pushData _ _ _ _, .life | .pushData _ _ _ _, .time
  | .pushData _ _ _ _, .turn => true
  | .establish _ _ _, .life | .establish _ _ _, .rx | .establish _ _ _, .credit => true
  | .acceptVet _ _ _, .reg | .acceptVet _ _ _, .queues | .acceptVet _ _ _, .conn
  | .acceptVet _ _ _, .rx | .acceptVet _ _ _, .credit | .acceptVet _ _ _, .life
  | .acceptVet _ _ _, .time | .acceptVet _ _ _, .mail | .acceptVet _ _ _, .turn => true
  | .grantWindow _ _, .credit | .acceptDeliver _, .agenda => true
  | .runWakes, .life | .runWakes, .agenda => true
  | .invokeRead _, .life | .invokeTimer _, .life | .callbackRelease _, .life
  | .callback _, .life | .callback _, .log => true
  | .rearmTimer, .time | .rearmSubmit _, .time | .armNotLaterThan _, .time
  | .onTimer, .time => true
  | .timerRound _, .reg | .timerRound _, .queues | .timerRound _, .conn
  | .timerRound _, .time => true
  | .onTransportClose _, .reg | .onTransportClose _, .queues | .onTransportClose _, .conn
  | .onTransportClose _, .budget | .onTransportClose _, .status
  | .onTransportClose _, .agenda => true
  | _, _ => false

def restore (t : Part → Bool) (s s' : Session) : Session where
  reg := cond (t .reg) s.reg s'.reg
  box := ⟨cond (t .queues) s.box.toQueues s'.box.toQueues, cond (t .conn) s.box.conn s'.box.conn⟩
  inbox := ⟨cond (t .rx) s.inbox.rx s'.inbox.rx,
    cond (t .budget) s.inbox.pendingBytes s'.inbox.pendingBytes,
    cond (t .budget) s.inbox.readHeld s'.inbox.readHeld⟩
  win := cond (t .credit) s.win s'.win
  wmu := cond (t .credit) s.wmu s'.wmu
  life := cond (t .life) s.life s'.life
  time := cond (t .time) s.time s'.time
  mail := cond (t .mail) s.mail s'.mail
  status := cond (t .status) s.status s'.status
  closeQ := cond (t .agenda) s.closeQ s'.closeQ
  wakeQ := cond (t .agenda) s.wakeQ s'.wakeQ
  acceptQ := cond (t .agenda) s.acceptQ s'.acceptQ
  busy := cond (t .turn) s.busy s'.busy
  ended := cond (t .turn) s.ended s'.ended
  turnErr := cond (t .turn) s.turnErr s'.turnErr
  rcvd := cond (t .rcvd) s.rcvd s'.rcvd
  accepted := cond (t .credit) s.accepted s'.accepted
  log := cond (t .log) s.log s'.log

theorem foldl_clearWake (s : Session) (refs : List Ref) :
    refs.foldl clearWake s = { s with life := (refs.foldl clearWake s).life } := by
  induction refs generalizing s with
  | nil => rfl
  | cons r rest ih =>
    simp only [List.foldl_cons]
    rw [ih]
    rfl

theorem sayGoAway_queues (s : Session) : sayGoAway s = s.setQueues (sayGoAway s).box.toQueues := by
  unfold sayGoAway
  split <;> rfl

theorem finishDrain_status (err : Option Cause) (s : Session) :
    finishDrain err s = { s with status := (finishDrain err s).status } := by
  unfold finishDrain
  split <;> rfl

def timed (s s' : Session) : Session :=
  { s with reg := s'.reg, box := s'.box, time := s'.time }

theorem visitStream_timed (cfg : Endpoint) (now : Nat) (round : Round) (id : Nat) (r : Ref) :
    (Round.visitStream cfg now round id r).state =
      timed round.state (Round.visitStream cfg now round id r).state := by
  have visited := visitStream_visited cfg now round id r
  generalize Round.visitStream cfg now round id r = next at visited ⊢
  cases visited with
  | expired cause deadline => rfl
  | unanswered due opening late | halfClosed due half late | stays due running =>
    rw [fired_time]
    rfl

theorem visitIds_timed (cfg : Endpoint) (now : Nat) (ids : List Nat) (round : Round) :
    (ids.foldl (Round.visitId cfg now) round).state =
      timed round.state (ids.foldl (Round.visitId cfg now) round).state := by
  induction ids generalizing round with
  | nil => rfl
  | cons id rest ih =>
    simp only [List.foldl_cons]
    have visited : (Round.visitId cfg now round id).state =
        timed round.state (Round.visitId cfg now round id).state := by
      unfold Round.visitId
      split
      · rfl
      · exact visitStream_timed cfg now round id _
    rw [ih]
    generalize Round.visitId cfg now round id = next at visited ⊢
    rw [visited]
    rfl

theorem keepAlive_timed (cfg : Endpoint) (now : Nat) (s : Session) :
    (keepAlive cfg now s).1 = timed s (keepAlive cfg now s).1 := by
  unfold keepAlive
  repeat' split
  all_goals rfl

theorem readFrame_restore (cfg : Endpoint) (c : Oracle) (s : Session) :
    restore (touches .readFrame) s (readFrame cfg c s).1 = s := by
  have taken := readFrame_taken cfg c s
  generalize readFrame cfg c s = step at taken ⊢
  cases taken with
  | ended => rfl
  | failed e => rfl
  | frame f arrived formed valid handled => cases handled <;> rfl

theorem openStream_restore (cfg : Endpoint) (c : Oracle) (s : Session) (metadata : List UInt8) :
    restore (touches (.openStream metadata)) s (openStream cfg c s metadata).1 = s := by
  unfold openStream
  split
  · rfl
  · simp only
    split <;> rfl

theorem timerRound_restore (cfg : Endpoint) (c : Oracle) (s : Session) (now : Nat) :
    restore (touches (.timerRound now)) s (timerRound cfg c s now).1 = s := by
  unfold timerRound
  simp only
  rw [keepAlive_timed, visitIds_timed]
  split <;> rfl

theorem onTransportClose_restore (c : Oracle) (s : Session) (cause : Cause) :
    restore (touches (.onTransportClose cause)) s (onTransportClose c s cause).1 = s := by
  unfold onTransportClose
  split
  · rfl
  · simp only
    rw [finishDrain_status]
    rfl

theorem exec_restore (cfg : Endpoint) (c : Oracle) (a : Section) (s : Session) :
    restore (touches a) s (exec cfg c a s).1 = s := by
  cases a
  case openStream metadata => exact openStream_restore cfg c s metadata
  case readFrame => exact readFrame_restore cfg c s
  case timerRound now => exact timerRound_restore cfg c s now
  case onTransportClose cause => exact onTransportClose_restore c s cause
  case close cause =>
    simp only [exec, close]
    split
    · rfl
    · rw [finishDrain_status, sayGoAway_queues]
      rfl
  case shutdown =>
    simp only [exec, shutdown]
    split
    · rfl
    · split
      · rfl
      · rw [sayGoAway_queues]
        rfl
  case forceDrain cause =>
    simp only [exec, forceDrain]
    split
    · rfl
    · rw [finishDrain_status]
      rfl
  case maybeFinishDrain =>
    simp only [exec, maybeFinishDrain]
    split
    · rw [finishDrain_status]
      rfl
    · rfl
  case runWakes =>
    simp only [exec, runWakes]
    rw [foldl_clearWake]
    split <;> rfl
  all_goals
    first
    | rfl
    | simp only [exec, transportSent, write, writeOwned, closeWrite, closeLocal, frameData,
        enqueueFin, requestFlush, emitDrained, UmuxInbound.read, wake, pauseReads, resumeReads,
        releaseInbound, pauseHold, resumeRelease, heldReads, exhaustedBudget, pushData, grantWindow,
        waitOpen, waitDrain, answer, abortStream, resetStream, tryFinish, deliverClose, drainCloses,
        dispatchRead, invokeRead, invokeTimer, callbackReturn, acceptVet, acceptDeliver, afterFrame,
        setDeadlines, armNotLaterThan, UmuxMachine.callback]
      (repeat' split) <;> rfl

section
variable (cfg : Endpoint) (c : Oracle) {a : Section} (s : Session)

theorem exec_reg (off : touches a .reg = false) : (exec cfg c a s).1.reg = s.reg := by
  have kept := congrArg Session.reg (exec_restore cfg c a s)
  simpa only [restore, off, cond_false] using kept

theorem exec_queues (off : touches a .queues = false) :
    (exec cfg c a s).1.box.toQueues = s.box.toQueues := by
  have kept := congrArg (fun s => s.box.toQueues) (exec_restore cfg c a s)
  simpa only [restore, off, cond_false] using kept

theorem exec_conn (off : touches a .conn = false) : (exec cfg c a s).1.box.conn = s.box.conn := by
  have kept := congrArg (fun s => s.box.conn) (exec_restore cfg c a s)
  simpa only [restore, off, cond_false] using kept

theorem exec_rx (off : touches a .rx = false) : (exec cfg c a s).1.inbox.rx = s.inbox.rx := by
  have kept := congrArg (fun s => s.inbox.rx) (exec_restore cfg c a s)
  simpa only [restore, off, cond_false] using kept

theorem exec_budget (off : touches a .budget = false) :
    (exec cfg c a s).1.inbox.pendingBytes = s.inbox.pendingBytes ∧
      (exec cfg c a s).1.inbox.readHeld = s.inbox.readHeld := by
  have bytes := congrArg (fun s => s.inbox.pendingBytes) (exec_restore cfg c a s)
  have hold := congrArg (fun s => s.inbox.readHeld) (exec_restore cfg c a s)
  simp only [restore, off, cond_false] at bytes hold
  exact ⟨bytes, hold⟩

theorem exec_wmu (off : touches a .credit = false) : (exec cfg c a s).1.wmu = s.wmu := by
  have kept := congrArg Session.wmu (exec_restore cfg c a s)
  simpa only [restore, off, cond_false] using kept

theorem exec_accepted (off : touches a .credit = false) :
    (exec cfg c a s).1.accepted = s.accepted := by
  have kept := congrArg Session.accepted (exec_restore cfg c a s)
  simpa only [restore, off, cond_false] using kept

theorem exec_life (off : touches a .life = false) : (exec cfg c a s).1.life = s.life := by
  have kept := congrArg Session.life (exec_restore cfg c a s)
  simpa only [restore, off, cond_false] using kept

theorem exec_time (off : touches a .time = false) : (exec cfg c a s).1.time = s.time := by
  have kept := congrArg Session.time (exec_restore cfg c a s)
  simpa only [restore, off, cond_false] using kept

theorem exec_status (off : touches a .status = false) : (exec cfg c a s).1.status = s.status := by
  have kept := congrArg Session.status (exec_restore cfg c a s)
  simpa only [restore, off, cond_false] using kept

theorem exec_turn (off : touches a .turn = false) :
    (exec cfg c a s).1.busy = s.busy ∧ (exec cfg c a s).1.ended = s.ended ∧
      (exec cfg c a s).1.turnErr = s.turnErr := by
  have busy := congrArg Session.busy (exec_restore cfg c a s)
  have ended := congrArg Session.ended (exec_restore cfg c a s)
  have err := congrArg Session.turnErr (exec_restore cfg c a s)
  simp only [restore, off, cond_false] at busy ended err
  exact ⟨busy, ended, err⟩

end

theorem finishDrain_closed (err : Option Cause) (s : Session) :
    (finishDrain err s).status.closed = s.status.closed := by
  unfold finishDrain
  split <;> rfl

theorem exec_closed (cfg : Endpoint) (c : Oracle) {a : Section} (s : Session)
    (other : ∀ cause, a ≠ .onTransportClose cause) :
    (exec cfg c a s).1.status.closed = s.status.closed := by
  by_cases untouched : touches a .status = false
  · rw [exec_status cfg c s untouched]
  · cases a
    case onTransportClose cause => exact absurd rfl (other cause)
    case close cause =>
      simp only [exec, close]
      split
      · rfl
      · rw [finishDrain_closed, sayGoAway_queues]
        rfl
    case shutdown =>
      simp only [exec, shutdown]
      split
      · rfl
      · split
        · rfl
        · rw [sayGoAway_queues]
          rfl
    case forceDrain cause =>
      simp only [exec, forceDrain]
      split
      · rfl
      · rw [finishDrain_closed]
    case maybeFinishDrain =>
      simp only [exec, maybeFinishDrain]
      split
      · rw [finishDrain_closed]
      · rfl
    case readFrame =>
      have taken := readFrame_taken cfg c s
      simp only [exec]
      generalize readFrame cfg c s = step at taken ⊢
      cases taken with
      | ended => rfl
      | failed e => rfl
      | frame f arrived formed valid handled => cases handled <;> rfl
    all_goals exact absurd rfl untouched

end UmuxFootprint
