import Uio.Interleaving
import Uio.Umux.Outbound
import Uio.Umux.Turn

/- A session as a program of interleaved sections. Threads begin with a call of the
   application or with something the transport does. The transport runs its turns
   one at a time, and none but the last once it was told to close. -/
namespace UmuxMachine
open Interleaving UmuxOutbox UmuxSession UmuxSettings
variable (cfg : Endpoint)

/-- The calls the application can make, from a goroutine or from a callback. -/
def isCall : Section → Bool
  | .openStream _ | .close _ | .shutdown | .write _ _ | .writeOwned _ _ | .flush | .read _ _
  | .discard _ _ | .closeWrite _ | .closeLocal _ _ | .abortStream _ _ | .setWakeDeadline _ _
  | .setWakeInterval _ _ | .setDeadlines _ _ _ _ _ | .wake _ | .yieldRead _ | .pauseReads _ _
  | .resumeReads _ _ => true
  | _ => false

def isEvent : Section → Bool
  | .tick _ | .transportSent _ | .acceptReceive | .turnRead | .turnTimer | .turnClose _ => true
  | _ => false

def callback (c : Oracle) (event : Option Event) (s : Session) : Step :=
  let calls := if c.calls.all isCall then c.calls else []
  match event with
  | some (.onRead r) =>
    ({ s.setLife r { s.life r with resumeOwed := false } with log := s.log ++ [.onRead r] }, calls)
  | some e => ({ s with log := s.log ++ [e] }, calls)
  | none => (s, calls)

def tick (elapsed : Nat) (s : Session) : Step :=
  ({ s with time := { s.time with clock := s.time.clock + elapsed } }, [])

def exec (c : Oracle) (a : Section) (s : Session) : Step :=
  match a with
  | .tick elapsed => tick elapsed s
  | .transportSent n => UmuxOutbound.transportSent s n
  | .acceptReceive => UmuxTurn.acceptReceive s
  | .turnRead => UmuxTurn.turnRead s
  | .turnTimer => UmuxTurn.turnTimer s
  | .turnClose cause => UmuxTurn.turnClose s cause
  | .openStream metadata => UmuxLifecycle.openStream cfg c s metadata
  | .close cause => UmuxLifecycle.close cfg c s cause
  | .shutdown => UmuxLifecycle.shutdown cfg c s
  | .write r p => UmuxOutbound.write s r p
  | .writeOwned r p => UmuxOutbound.writeOwned s r p
  | .read r n => UmuxInbound.read cfg s r n
  | .discard r n => UmuxInbound.discard s r n
  | .closeWrite r => UmuxOutbound.closeWrite s r
  | .closeLocal r cause => UmuxOutbound.closeLocal s r cause
  | .abortStream r cause => UmuxLifecycle.abortStream cfg c s r cause
  | .setWakeDeadline r moment => UmuxTimers.setWakeDeadline s r moment
  | .setWakeInterval r interval => UmuxTimers.setWakeInterval s r interval
  | .setDeadlines r read write setRead setWrite =>
    UmuxTimers.setDeadlines s r read write setRead setWrite
  | .wake r => UmuxInbound.wake cfg s r
  | .yieldRead r => UmuxInbound.yieldRead s r
  | .pauseReads r owner => UmuxInbound.pauseReads s r owner
  | .resumeReads r owner => UmuxInbound.resumeReads s r owner
  | .waitOpen r => UmuxLifecycle.waitOpen c s r
  | .waitDrain => UmuxLifecycle.waitDrain c s
  | .forceDrain cause => UmuxLifecycle.forceDrain c s cause
  | .maybeFinishDrain => UmuxLifecycle.maybeFinishDrain s
  | .frameData r p => UmuxOutbound.frameData cfg s r p
  | .writeDone r framed => UmuxOutbound.writeDone cfg s r framed
  | .enqueueFin r => UmuxOutbound.enqueueFin s r
  | .closeWriteDone r => UmuxOutbound.closeWriteDone s r
  | .requestFlush => UmuxOutbound.requestFlush s
  | .connWake => UmuxOutbound.connWake s
  | .flush => UmuxOutbound.flush cfg c s
  | .emitDrained => UmuxOutbound.emitDrained cfg s
  | .closeConn cause => UmuxOutbound.closeConn s cause
  | .releaseInbound n => UmuxInbound.releaseInbound cfg s n
  | .sendWindowUpdate id delta => UmuxOutbound.sendWindowUpdate cfg c s id delta
  | .pauseHold r owner => UmuxInbound.pauseHold s r owner
  | .resumeRelease r owner => UmuxInbound.resumeRelease s r owner
  | .tryFinish r => UmuxLifecycle.tryFinish cfg s r
  | .removeStream r reset => UmuxLifecycle.removeStream s r reset
  | .abortRemote r cause => UmuxLifecycle.abortRemote s r cause
  | .resetStream r cause => UmuxLifecycle.resetStream s r cause
  | .answer r result => UmuxLifecycle.answer s r result
  | .deliverClose r cause => UmuxLifecycle.deliverClose cfg s r cause
  | .queueClose r cause => UmuxLifecycle.queueClose s r cause
  | .drainCloses => UmuxLifecycle.drainCloses cfg s
  | .onRead => UmuxTurn.onRead s
  | .heldReads => UmuxInbound.heldReads cfg s
  | .readFrame => UmuxTurn.readFrame cfg c s
  | .reserveInbound r payload fin next => UmuxInbound.reserveInbound s r payload fin next
  | .pushData r payload fin next => UmuxInbound.pushData s r payload fin next
  | .establish r w delta => UmuxTurn.establish cfg s r w delta
  | .acceptVet id delta metadata => UmuxTurn.acceptVet cfg c s id delta metadata
  | .afterFrame => UmuxTurn.afterFrame s
  | .exhaustedBudget => UmuxInbound.exhaustedBudget cfg s
  | .failTurn cause => UmuxTurn.failTurn s cause
  | .turnEnd => UmuxTurn.turnEnd s
  | .grantWindow r delta => UmuxInbound.grantWindow cfg s r delta
  | .acceptDeliver r => UmuxTurn.acceptDeliver cfg s r
  | .runWakes => UmuxLifecycle.runWakes cfg s
  | .dispatchRead r => UmuxLifecycle.dispatchRead cfg s r
  | .invokeRead r => UmuxLifecycle.invokeRead s r
  | .invokeTimer r => UmuxLifecycle.invokeTimer s r
  | .callbackReturn r => UmuxLifecycle.callbackReturn c s r
  | .callbackRelease r => UmuxLifecycle.callbackRelease s r
  | .callback event => callback c event s
  | .rearmTimer => UmuxTimers.rearmTimer s
  | .rearmScan now => UmuxTimers.rearmScan cfg s now
  | .rearmSubmit next => UmuxTimers.rearmSubmit s next
  | .armNotLaterThan moment => UmuxTimers.armNotLaterThan s moment
  | .onTimer => UmuxTimers.onTimer s
  | .timerStart => UmuxTimers.timerStart s
  | .timerRound now => UmuxTimers.timerRound cfg c s now
  | .onTransportClose cause => UmuxTimers.onTransportClose c s cause

def subject : Section → Option Ref
  | .write r _ | .writeOwned r _ | .read r _ | .discard r _ | .closeWrite r | .closeLocal r _
  | .abortStream r _ | .setWakeDeadline r _ | .setWakeInterval r _ | .setDeadlines r _ _ _ _
  | .wake r | .yieldRead r | .pauseReads r _ | .resumeReads r _ => some r
  | _ => none

/-- The locks a section waits for, and what the transport guarantees of its turns.
    A call is made on a stream that exists. -/
def ready (a : Section) (s : Session) : Bool :=
  (subject a).all (· < s.reg.fresh) &&
    match a with
    | .write r _ | .writeOwned r _ | .closeWrite r => !s.wmu r
    | .rearmTimer | .armNotLaterThan _ | .onTimer => !s.time.timerMu
    | .turnRead => !s.busy && !s.ended && s.box.conn.closing.isNone
    | .turnTimer =>
      !s.busy && !s.ended && s.box.conn.closing.isNone && s.time.armed.any (· ≤ s.time.clock)
    | .turnClose _ => !s.busy && !s.ended
    | _ => true

def program : Program Session Section Oracle where
  entry a := isCall a || isEvent a
  ready := ready
  exec := exec cfg

def endpoint (config : Config) (client : Bool) : Endpoint :=
  { resolve config with client := client }

/-- `newSession`, within the turn that opened the transport at time `now`. -/
def newSession (now : Nat) : Pool Session Section where
  state :=
    { reg := { nextID := if cfg.client then 1 else 2 }
      inbox := { rx := fun _ => ⟨[], UmuxWindow.newRecvWindow cfg.windowSize⟩ }
      win := fun _ => UmuxWindow.newSendWindow minWindow
      time := { clock := now, lastPing := if 0 < cfg.keepAlive then now else 0 }
      busy := true }
  threads := [[.rearmTimer, .turnEnd]]

/-- A thread that only waits, for the answer of an Open or the end of a drain. -/
def isParked : Section → Bool
  | .waitOpen _ | .waitDrain => true
  | _ => false

def Quiet (p : Pool Session Section) : Prop := ∀ a ∈ owed p, isParked a = true

end UmuxMachine
