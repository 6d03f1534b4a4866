import Uio.Umux.Footprint

/-!
What each section may leave its thread to do, stated once and by groups of
sections. A section outside a group's few sources pushes none of its members, so
the invariants that count owed sections only look at those sources.
-/
namespace UmuxSuccessors
open UmuxOutbox UmuxSession UmuxMachine UmuxLifecycle UmuxTimers UmuxTurn UmuxInbound
open UmuxOutbound UmuxSteps

/-- `holder` sections hold a stream's write lock, and one `spine` section is owed
    while a turn runs. -/
inductive Group where
  | event
  | call
  | holder
  | spine
  | waiting
  | answer
  | budget
  | grant
  | flushing
  | arming
  | removal
  | closing
  | callback
  deriving DecidableEq

def group : Section → Group
  | .tick _ | .transportSent _ | .acceptReceive | .turnRead | .turnTimer | .turnClose _ => .event
  | .openStream _ | .close _ | .shutdown | .write _ _ | .writeOwned _ _ | .flush | .read _ _
  | .discard _ _ | .closeWrite _ | .closeLocal _ _ | .abortStream _ _ | .setWakeDeadline _ _
  | .setWakeInterval _ _ | .setDeadlines _ _ _ _ _ | .wake _ | .yieldRead _ | .pauseReads _ _
  | .resumeReads _ _ => .call
  | .frameData _ _ | .writeDone _ _ | .enqueueFin _ | .closeWriteDone _ => .holder
  | .onRead | .heldReads | .readFrame | .reserveInbound _ _ _ _ | .pushData _ _ _ _
  | .establish _ _ _ | .acceptVet _ _ _ | .afterFrame | .exhaustedBudget | .failTurn _ | .turnEnd
  | .onTimer | .timerStart | .timerRound _ | .onTransportClose _ => .spine
  | .waitOpen _ | .waitDrain => .waiting
  | .answer _ _ => .answer
  | .releaseInbound _ => .budget
  | .sendWindowUpdate _ _ | .grantWindow _ _ => .grant
  | .requestFlush | .connWake | .closeConn _ => .flushing
  | .rearmTimer | .rearmScan _ | .rearmSubmit _ | .armNotLaterThan _ => .arming
  | .removeStream _ _ | .abortRemote _ _ | .resetStream _ _ => .removal
  | .tryFinish _ | .deliverClose _ _ | .queueClose _ _ | .drainCloses | .emitDrained
  | .maybeFinishDrain | .forceDrain _ => .closing
  | .pauseHold _ _ | .resumeRelease _ _ | .acceptDeliver _ | .runWakes | .dispatchRead _
  | .invokeRead _ | .invokeTimer _ | .callbackReturn _ | .callbackRelease _ | .callback _ =>
    .callback

def pushes : Section → List Group
  | .transportSent _ => [.flushing]
  | .turnRead | .turnTimer | .turnClose _ | .onRead | .reserveInbound _ _ _ _ | .afterFrame
  | .failTurn _ | .onTimer | .timerStart => [.spine]
  | .openStream _ => [.arming, .closing, .waiting, .removal, .flushing]
  | .close _ => [.closing, .flushing]
  | .shutdown => [.closing, .flushing, .waiting]
  | .write _ _ | .writeOwned _ _ | .frameData _ _ | .closeWrite _ | .enqueueFin _ => [.holder]
  | .writeDone _ _ => [.flushing, .callback]
  | .closeWriteDone _ => [.flushing, .closing, .arming]
  | .flush | .sendWindowUpdate _ _ => [.closing, .flushing]
  | .read _ _ => [.budget, .callback, .grant, .closing]
  | .discard _ _ => [.budget, .grant, .closing]
  | .closeLocal _ _ | .yieldRead _ | .resumeRelease _ _ | .acceptDeliver _ | .callback _ => [.call]
  | .abortStream _ _ => [.closing, .answer, .removal, .flushing]
  | .setWakeDeadline _ _ | .setWakeInterval _ _ | .setDeadlines _ _ _ _ _ | .rearmTimer
  | .rearmScan _ => [.arming]
  | .wake _ | .requestFlush | .releaseInbound _ | .maybeFinishDrain => [.flushing]
  | .pauseReads _ _ | .resumeReads _ _ | .emitDrained | .runWakes => [.callback]
  | .waitOpen _ => [.call, .waiting, .removal]
  | .waitDrain => [.closing, .waiting]
  | .forceDrain _ => [.call, .flushing]
  | .tryFinish _ => [.closing]
  | .removeStream _ _ => [.closing, .removal]
  | .abortRemote _ _ => [.answer, .removal, .closing]
  | .resetStream _ _ => [.budget, .closing]
  | .deliverClose _ _ => [.closing]
  | .queueClose _ _ => [.closing, .flushing]
  | .drainCloses => [.callback, .closing]
  | .heldReads | .exhaustedBudget => [.spine, .call, .callback, .closing]
  | .readFrame => [.spine, .call, .callback, .closing, .removal, .grant]
  | .pushData _ _ _ _ => [.spine, .budget, .arming, .removal, .callback, .grant]
  | .establish _ _ _ => [.answer, .spine]
  | .acceptVet _ _ _ => [.closing, .spine, .removal, .callback]
  | .grantWindow _ _ => [.callback]
  | .dispatchRead _ => [.callback, .closing]
  | .invokeRead _ | .invokeTimer _ => [.callback]
  | .callbackReturn _ => [.call, .callback]
  | .timerRound _ => [.answer, .removal, .callback, .closing, .arming, .spine]
  | .onTransportClose _ => [.answer, .removal, .closing, .spine]
  | _ => []

def follows (a b : Section) : Bool := (pushes a).contains (group b)

theorem group_of_isCall {b : Section} (call : isCall b = true) : group b = .call := by
  cases b <;> first | rfl | cases call

theorem closeOn_follows {a : Section} (allowed : (pushes a).contains .flushing = true)
    (e : Option Cause) : (closeOn e).all (follows a) = true := by
  cases e with
  | none => rfl
  | some e => simpa [closeOn, follows, group] using allowed

theorem answerAll_follows {a : Section} (allowed : (pushes a).contains .answer = true)
    (w : Option Ref) (result : Option Cause) : (answerAll w result).all (follows a) = true := by
  cases w with
  | none => rfl
  | some w => simpa [answerAll, follows, group] using allowed

theorem afterPush_follows (r : Ref) (payload : List UInt8) (fin : Bool) (next : AfterPush) :
    (afterPush r next).all (follows (.pushData r payload fin next)) = true := by
  cases next with
  | reset => rfl
  | dispatch => rfl
  | dispatchGrant delta =>
    simp only [afterPush]
    split <;> rfl

theorem grantOf_follows {a : Section} (allowed : (pushes a).contains .grant = true)
    (id grant : Nat) : (grantOf id grant).all (follows a) = true := by
  unfold grantOf
  split
  · rfl
  · simpa [follows, group] using allowed

theorem readFrame_follows (cfg : Endpoint) (c : Oracle) (s : Session) :
    (readFrame cfg c s).2.all (follows .readFrame) = true := by
  have taken := readFrame_taken cfg c s
  generalize readFrame cfg c s = step at taken ⊢
  cases taken with
  | ended => rfl
  | failed e => rfl
  | frame f arrived formed valid handled =>
    cases handled with
    | vetted delta metadata peer free => cases cfg.accept <;> rfl
    | _ => rfl

def gathered : Section → Bool
  | .answer _ _ | .resetStream _ _ => true
  | _ => false

def Round.Plain (round : Round) : Prop :=
  round.openFails.all gathered = true ∧ round.resets.all gathered = true ∧
    round.deadlineResets.all gathered = true

theorem answerAll_gathered (w : Option Ref) (result : Option Cause) :
    (answerAll w result).all gathered = true := by
  cases w <;> rfl

theorem visitId_plain (cfg : Endpoint) (now : Nat) {round : Round} (plain : Round.Plain round)
    (id : Nat) : Round.Plain (Round.visitId cfg now round id) := by
  obtain ⟨fails, resets, deadlines⟩ := plain
  unfold Round.visitId
  split
  · exact ⟨fails, resets, deadlines⟩
  · rename_i r here
    have visited := visitStream_visited cfg now round id r
    generalize Round.visitStream cfg now round id r = next at visited ⊢
    cases visited <;>
      simp [Round.Plain, List.all_append, fails, resets, deadlines, answerAll_gathered, gathered]

theorem visitIds_plain (cfg : Endpoint) (now : Nat) (ids : List Nat) (round : Round)
    (plain : Round.Plain round) : Round.Plain (ids.foldl (Round.visitId cfg now) round) := by
  induction ids generalizing round with
  | nil => exact plain
  | cons id rest ih => exact ih _ (visitId_plain cfg now plain id)

theorem timerRound_pushes (cfg : Endpoint) (c : Oracle) (s : Session) (now : Nat) :
    ∃ ending : List Section, ending.all gathered = true ∧
      ((∃ e, (timerRound cfg c s now).2 = ending ++ [Section.drainCloses, .failTurn e]) ∨
        ∃ due : List Ref, (timerRound cfg c s now).2 =
          ending ++ due.flatMap (fun r => [Section.invokeTimer r, .tryFinish r]) ++
            [Section.rearmTimer, .drainCloses, .maybeFinishDrain, .turnEnd]) := by
  obtain ⟨fails, resets, deadlines⟩ := visitIds_plain cfg now (visit c.order s.reg.streams)
    ⟨s, [], [], [], []⟩ ⟨rfl, rfl, rfl⟩
  unfold timerRound
  simp only
  generalize (visit c.order s.reg.streams).foldl (Round.visitId cfg now) ⟨s, [], [], [], []⟩ = round
    at fails resets deadlines
  refine ⟨round.openFails ++ round.resets ++ round.deadlineResets, ?_, ?_⟩
  · rw [List.all_append, List.all_append, fails, resets, deadlines]
    rfl
  split
  · exact .inl ⟨_, rfl⟩
  · split
    · exact .inr ⟨_, rfl⟩
    · exact .inr ⟨[], rfl⟩

theorem timerRound_follows (cfg : Endpoint) (c : Oracle) (s : Session) (now : Nat) :
    (timerRound cfg c s now).2.all (follows (.timerRound now)) = true := by
  obtain ⟨ending, plain, ⟨e, pushed⟩ | ⟨due, pushed⟩⟩ := timerRound_pushes cfg c s now
  all_goals
    have gathers : ending.all (follows (.timerRound now)) = true := by
      rw [List.all_eq_true] at plain ⊢
      intro b member
      have one := plain b member
      cases b <;> first | rfl | cases one
    rw [pushed]
    simp only [List.all_append, gathers, List.all_flatMap, Bool.true_and, Bool.and_eq_true]
  · rfl
  · exact ⟨List.all_eq_true.mpr fun _ _ => rfl, rfl⟩

theorem exec_follows (cfg : Endpoint) (c : Oracle) (a : Section) (s : Session) :
    (exec cfg c a s).2.all (follows a) = true := by
  cases a
  case readFrame => exact readFrame_follows cfg c s
  case timerRound now => exact timerRound_follows cfg c s now
  case callback event =>
    have calls : (if c.calls.all isCall then c.calls else []).all (follows (.callback event)) = true := by
      split
      · rename_i allowed
        rw [List.all_eq_true] at allowed ⊢
        intro b member
        rw [follows, group_of_isCall (allowed b member)]
        rfl
      · rfl
    simp only [exec, UmuxMachine.callback]
    split <;> exact calls
  case removeStream r reset => cases reset <;> rfl
  all_goals
    first
    | rfl
    | simp only [exec, transportSent, write, writeOwned, writeDone, closeWrite, closeLocal,
        frameData, enqueueFin, requestFlush, emitDrained, sendWindowUpdate, flush, UmuxInbound.read,
        UmuxInbound.discard, wake, pauseReads, resumeReads, releaseInbound, pauseHold,
        resumeRelease, heldReads, exhaustedBudget, grantWindow, waitOpen, waitDrain, openStream,
        close, shutdown, answer, abortStream, abortRemote, resetStream, tryFinish, deliverClose,
        queueClose, drainCloses, maybeFinishDrain, dispatchRead, invokeRead, invokeTimer, runWakes,
        callbackReturn, acceptVet, acceptDeliver, afterFrame, setDeadlines, armNotLaterThan,
        onTransportClose, forceDrain, pushData]
      repeat' split
      all_goals first
        | rfl
        | (simp only [List.all_append, List.all_cons, List.all_map, Bool.and_eq_true]
           (repeat' apply And.intro) <;> first
             | rfl
             | exact closeOn_follows rfl _
             | exact answerAll_follows rfl _ _
             | exact grantOf_follows rfl _ _
             | exact afterPush_follows _ _ _ _
             | exact List.all_eq_true.mpr fun _ _ => rfl)

theorem pushed_group (cfg : Endpoint) (c : Oracle) {a b : Section} {s : Session}
    (pushed : b ∈ (exec cfg c a s).2) : (pushes a).contains (group b) = true :=
  List.all_eq_true.mp (exec_follows cfg c a s) b pushed

end UmuxSuccessors
