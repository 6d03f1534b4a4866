import Uio.Interleaving

/-!
The turns of a socket connection. Producers fold their events into one word, and whoever
sets its scheduled bit submits the connection's one task; the task takes the events, runs
the turn and gives the bit up again. The executor may refuse a task, whose handler then
closes the connection in the turn's place. Events that are neither the request to release
the connection nor its close callback take the same way and are one bit here.
-/
namespace ConnTask
open Interleaving

inductive Phase where
  | closeOpen
  | closeDraining
  | closeRequested
  | closeResourcesReleased
  | closeCallbackDelivered
  deriving DecidableEq

def Phase.isClosing : Phase → Bool
  | .closeOpen | .closeDraining => false
  | _ => true

def Phase.isReleased : Phase → Bool
  | .closeResourcesReleased | .closeCallbackDelivered => true
  | _ => false

def Phase.request : Phase → Phase
  | .closeOpen | .closeDraining => .closeRequested
  | p => p

def Phase.release (p : Phase) : Phase := if p.isReleased then p else .closeResourcesReleased

def Phase.abandon (p : Phase) : Phase := if p.isReleased then p else .closeCallbackDelivered

def Phase.deliver (p : Phase) : Phase :=
  if p = .closeResourcesReleased then .closeCallbackDelivered else p

inductive Event where
  | other
  | teardown
  | close
  deriving DecidableEq

structure Task where
  other : Bool
  teardown : Bool
  close : Bool
  scheduled : Bool
  phase : Phase
  stopping : Bool
  /-- the loop refuses new turns -/
  stopped : Bool
  /-- the loop's count of this connection's turns -/
  turns : Int
  /-- tasks with the executor -/
  queued : Nat

def Task.events (s : Task) : Bool := s.other || s.teardown || s.close

def Task.put (s : Task) (b : Bool) : Event → Task
  | .other => { s with other := b }
  | .teardown => { s with teardown := b }
  | .close => { s with close := b }

/-- The first turn's event is stored, and its claim is still to be taken. -/
def Task.fresh : Task :=
  { other := true, teardown := false, close := false, scheduled := false, phase := .closeOpen,
    stopping := false, stopped := false, turns := 0, queued := 0 }

/-- `first` marks the claim of a new connection's first turn, which folds nothing. -/
inductive Section where
  | noteTurn (events : Option Event)
  | noteClosing (events : Option Event)
  | noteFold (events : Option Event)
  | noteLook (first : Bool)
  | acquireTurn (first : Bool)
  | acquireLook (first : Bool)
  | claim (first : Bool)
  | watch
  | declined (first : Bool)
  | abandonClaim
  | submit
  | run
  | takeIOEvents
  | turn
  | finishIOTask
  | finishDrop
  | finishLook (left : Bool)
  | finishRetake
  | releaseTurn
  | refused
  | refusedClose
  | refusedStopping
  | refusedTeardown
  | refusedDeliver
  | refusedDrop
  | refusedLook (teardown close : Bool)
  | closeCallback
  | closeClaim
  | closeSubmit
  | requestClose
  | stopLoop
  | stopTurns

inductive Act where
  | finish
  | fold (e : Event)
  | clear (e : Event)
  | schedule (e : Event)
  | request
  | release
  | deliver

structure Choice where
  act : Act := .finish
  /-- the registration fails, the executor refuses the task -/
  fails : Bool := false
  /-- the failed registration was in the table already -/
  published : Bool := false
  /-- the write claim is free for the release -/
  released : Bool := false

def entry : Section → Bool
  | .noteTurn (some .other) | .noteTurn (some .teardown) | .run | .closeCallback | .requestClose
  | .stopLoop | .stopTurns => true
  | _ => false

def ready (a : Section) (s : Task) : Bool :=
  match a with
  | .run => decide (0 < s.queued)
  | .closeCallback => s.phase = .closeResourcesReleased
  | .stopTurns => s.stopping
  | _ => true

def execNote (c : Choice) (s : Task) : Section → Task × List Section
  | .noteTurn events => if s.stopping then (s, [.declined events.isNone]) else (s, [.noteClosing events])
  | .noteClosing events =>
    if s.phase.isClosing && (events ≠ some .teardown || s.phase.isReleased) then
      (s, [.declined events.isNone])
    else (s, [.noteFold events])
  | .noteFold events =>
    match events with
    | none => (s, [.noteLook true])
    | some e => (s.put true e, [.noteLook false])
  | .noteLook first => if s.scheduled then (s, [.declined first]) else (s, [.acquireTurn first])
  | .acquireTurn first => ({ s with turns := s.turns + 1 }, [.acquireLook first])
  | .acquireLook first =>
    if s.stopped then ({ s with turns := s.turns - 1 }, [.declined first]) else (s, [.claim first])
  | .claim first =>
    if s.scheduled then ({ s with turns := s.turns - 1 }, [.declined first])
    else ({ s with scheduled := true }, if first then [.watch] else [.submit])
  | .watch =>
    if c.fails then
      (s, if c.published then [.declined true, .abandonClaim]
        else [.abandonClaim, .declined true])
    else (s, [.submit])
  -- a connection whose first turn was not claimed is closed unregistered
  | .declined first => (if first then { s with phase := s.phase.abandon } else s, [])
  | .abandonClaim =>
    ({ s with
        other := false, teardown := false, close := false, scheduled := false,
        turns := s.turns - 1 }, [])
  | .submit => if c.fails then (s, [.refused]) else ({ s with queued := s.queued + 1 }, [])
  | .requestClose =>
    if s.phase.isClosing then (s, [])
    else ({ s with phase := s.phase.request }, [.noteTurn (some .teardown)])
  | .stopLoop => ({ s with stopping := true }, [])
  | .stopTurns => ({ s with stopped := true }, [])
  | _ => (s, [])

def execTurn (c : Choice) (s : Task) : Section → Task × List Section
  | .run => ({ s with queued := s.queued - 1 }, [.takeIOEvents])
  | .takeIOEvents =>
    ({ s with other := false, teardown := false, close := false, scheduled := true }, [.turn])
  | .turn =>
    match c.act with
    | .finish => (s, [.finishIOTask])
    | .fold e => (s.put true e, [.turn])
    | .clear e => (s.put false e, [.turn])
    | .schedule e => (s, [.noteTurn (some e), .turn])
    | .request => ({ s with phase := s.phase.request }, [.turn])
    | .release => ({ s with phase := s.phase.release }, [.turn])
    | .deliver => ({ s with phase := s.phase.deliver }, [.turn])
  | .finishIOTask =>
    if s.events && !s.stopped && s.phase ≠ .closeCallbackDelivered then (s, [.submit])
    else (s, [.finishDrop])
  | .finishDrop => ({ s with scheduled := false }, [.finishLook s.events])
  | .finishLook left =>
    if left && !s.stopped && s.phase ≠ .closeCallbackDelivered then (s, [.finishRetake])
    else (s, [.releaseTurn])
  | .finishRetake =>
    if s.scheduled then (s, [.releaseTurn]) else ({ s with scheduled := true }, [.submit])
  | .releaseTurn => ({ s with turns := s.turns - 1 }, [])
  | _ => (s, [])

/-- The handler of a refused task, and the close callback published outside a turn. -/
def execRefused (c : Choice) (s : Task) : Section → Task × List Section
  | .refused =>
    if !s.phase.isReleased then (s, [.refusedClose])
    else if s.phase = .closeResourcesReleased && s.close then (s, [.refusedDeliver])
    else (s, [.refusedDrop])
  | .refusedClose => ({ s with phase := s.phase.request }, [.refusedStopping])
  | .refusedStopping => if s.stopping then (s, [.refusedDrop]) else (s, [.refusedTeardown])
  | .refusedTeardown =>
    if c.released then ({ s with phase := s.phase.release }, [.refusedDeliver])
    else (s, [.refusedDrop])
  | .refusedDeliver => ({ s with phase := s.phase.deliver }, [.refusedDrop])
  | .refusedDrop => ({ s with scheduled := false }, [.refusedLook s.teardown s.close])
  | .refusedLook teardown close =>
    if teardown && s.phase.isClosing && !s.phase.isReleased then
      (s, [.noteTurn (some .teardown), .releaseTurn])
    else if close && s.phase = .closeResourcesReleased then (s, [.closeClaim, .releaseTurn])
    else (s, [.releaseTurn])
  | .closeCallback => ({ s with close := true }, [.closeClaim])
  | .closeClaim =>
    if s.scheduled then (s, [])
    else ({ s with scheduled := true, turns := s.turns + 1 }, [.closeSubmit])
  | .closeSubmit =>
    if c.fails then
      ({ s with scheduled := false, phase := s.phase.deliver }, [.releaseTurn])
    else ({ s with queued := s.queued + 1 }, [])
  | _ => (s, [])

def exec (c : Choice) (a : Section) (s : Task) : Task × List Section :=
  match a with
  | .noteTurn _ | .noteClosing _ | .noteFold _ | .noteLook _ | .acquireTurn _ | .acquireLook _ | .claim _
  | .watch | .declined _ | .abandonClaim | .submit | .requestClose | .stopLoop | .stopTurns =>
    execNote c s a
  | .run | .takeIOEvents | .turn | .finishIOTask | .finishDrop | .finishLook _ | .finishRetake
  | .releaseTurn => execTurn c s a
  | .refused | .refusedClose | .refusedStopping | .refusedTeardown | .refusedDeliver | .refusedDrop
  | .refusedLook _ _ | .closeCallback | .closeClaim | .closeSubmit => execRefused c s a

def program : Program Task Section Choice := ⟨entry, ready, exec⟩

def start : Pool Task Section := ⟨.fresh, [[.noteTurn none]]⟩

inductive Step (s : Task) : Section → Task → List Section → Prop where
  | stopping (events : Option Event) (stop : s.stopping = true) :
    Step s (.noteTurn events) s [.declined events.isNone]
  | noteTurn (events : Option Event) : Step s (.noteTurn events) s [.noteClosing events]
  | closing (events : Option Event) (beyond : s.phase.isClosing = true)
    (gone : events = some .teardown → s.phase.isReleased = true) :
    Step s (.noteClosing events) s [.declined events.isNone]
  | noteClosing (events : Option Event) : Step s (.noteClosing events) s [.noteFold events]
  | noteFirst : Step s (.noteFold none) s [.noteLook true]
  | noteFold (e : Event) : Step s (.noteFold (some e)) (s.put true e) [.noteLook false]
  | noteTaken (first : Bool) (taken : s.scheduled = true) :
    Step s (.noteLook first) s [.declined first]
  | noteLook (first : Bool) : Step s (.noteLook first) s [.acquireTurn first]
  | acquireTurn (first : Bool) :
    Step s (.acquireTurn first) { s with turns := s.turns + 1 } [.acquireLook first]
  | acquireStopped (first : Bool) (stop : s.stopped = true) :
    Step s (.acquireLook first) { s with turns := s.turns - 1 } [.declined first]
  | acquireLook (first : Bool) : Step s (.acquireLook first) s [.claim first]
  | claimTaken (first : Bool) (taken : s.scheduled = true) :
    Step s (.claim first) { s with turns := s.turns - 1 } [.declined first]
  | claimFirst (free : s.scheduled = false) :
    Step s (.claim true) { s with scheduled := true } [.watch]
  | claim (free : s.scheduled = false) :
    Step s (.claim false) { s with scheduled := true } [.submit]
  | watch : Step s .watch s [.submit]
  | watchFails : Step s .watch s [.declined true, .abandonClaim]
  | putFails : Step s .watch s [.abandonClaim, .declined true]
  | closeUnregistered : Step s (.declined true) { s with phase := s.phase.abandon } []
  | declined : Step s (.declined false) s []
  | abandonClaim :
    Step s .abandonClaim
      { s with
        other := false, teardown := false, close := false, scheduled := false,
        turns := s.turns - 1 } []
  | submit : Step s .submit { s with queued := s.queued + 1 } []
  | submitFails : Step s .submit s [.refused]
  | run (some : 0 < s.queued) : Step s .run { s with queued := s.queued - 1 } [.takeIOEvents]
  | takeIOEvents :
    Step s .takeIOEvents
      { s with other := false, teardown := false, close := false, scheduled := true } [.turn]
  | turnEnds : Step s .turn s [.finishIOTask]
  | turnPuts (b : Bool) (e : Event) : Step s .turn (s.put b e) [.turn]
  | turnSchedules (e : Event) : Step s .turn s [.noteTurn (some e), .turn]
  | turnRequests : Step s .turn { s with phase := s.phase.request } [.turn]
  | turnReleases : Step s .turn { s with phase := s.phase.release } [.turn]
  | turnDelivers : Step s .turn { s with phase := s.phase.deliver } [.turn]
  | finishAgain : Step s .finishIOTask s [.submit]
  | finishIOTask : Step s .finishIOTask s [.finishDrop]
  | finishDrop : Step s .finishDrop { s with scheduled := false } [.finishLook s.events]
  | finishLook : Step s (.finishLook true) s [.finishRetake]
  | finished (left : Bool)
    (none : left = false ∨ s.stopped = true ∨ s.phase.isReleased = true) :
    Step s (.finishLook left) s [.releaseTurn]
  | finishTaken (taken : s.scheduled = true) : Step s .finishRetake s [.releaseTurn]
  | finishRetake (free : s.scheduled = false) :
    Step s .finishRetake { s with scheduled := true } [.submit]
  | releaseTurn : Step s .releaseTurn { s with turns := s.turns - 1 } []
  | refused : Step s .refused s [.refusedClose]
  | refusedDelivers (released : s.phase.isReleased = true) : Step s .refused s [.refusedDeliver]
  | refusedReleased (released : s.phase.isReleased = true) : Step s .refused s [.refusedDrop]
  | refusedClose : Step s .refusedClose { s with phase := s.phase.request } [.refusedStopping]
  | refusedStopping : Step s .refusedStopping s [.refusedDrop]
  | refusedOwns : Step s .refusedStopping s [.refusedTeardown]
  | refusedTeardown :
    Step s .refusedTeardown { s with phase := s.phase.release } [.refusedDeliver]
  | refusedWaits : Step s .refusedTeardown s [.refusedDrop]
  | refusedDeliver : Step s .refusedDeliver { s with phase := s.phase.deliver } [.refusedDrop]
  | refusedDrop :
    Step s .refusedDrop { s with scheduled := false } [.refusedLook s.teardown s.close]
  | refusedHandsOn (close : Bool) :
    Step s (.refusedLook true close) s [.noteTurn (some .teardown), .releaseTurn]
  | refusedPublishes (teardown : Bool) (released : s.phase.isReleased = true) :
    Step s (.refusedLook teardown true) s [.closeClaim, .releaseTurn]
  | refusedLook (teardown close : Bool)
    (none : teardown = false ∨ s.phase.isClosing = false ∨ s.phase.isReleased = true) :
    Step s (.refusedLook teardown close) s [.releaseTurn]
  | closeCallback (released : s.phase.isReleased = true) :
    Step s .closeCallback { s with close := true } [.closeClaim]
  | closeTaken (taken : s.scheduled = true) : Step s .closeClaim s []
  | closeClaim (free : s.scheduled = false) :
    Step s .closeClaim { s with scheduled := true, turns := s.turns + 1 } [.closeSubmit]
  | closeSubmit : Step s .closeSubmit { s with queued := s.queued + 1 } []
  | closeHere :
    Step s .closeSubmit { s with scheduled := false, phase := s.phase.deliver } [.releaseTurn]
  | requestClose :
    Step s .requestClose { s with phase := s.phase.request } [.noteTurn (some .teardown)]
  | closingAlready : Step s .requestClose s []
  | stopLoop : Step s .stopLoop { s with stopping := true } []
  | stopTurns (stop : s.stopping = true) : Step s .stopTurns { s with stopped := true } []

theorem exec_step (c : Choice) (a : Section) (s : Task) (able : ready a s = true) :
    Step s a (exec c a s).1 (exec c a s).2 := by
  cases a with
  | noteTurn events =>
    simp only [exec, execNote]
    split
    · exact .stopping events (by assumption)
    · exact .noteTurn events
  | noteClosing events =>
    simp only [exec, execNote]
    split
    · rename_i late
      simp only [Bool.and_eq_true, Bool.or_eq_true, decide_eq_true_eq] at late
      exact .closing events late.1 (fun same => late.2.resolve_left (fun other => other same))
    · exact .noteClosing events
  | noteFold events =>
    cases events with
    | none => exact .noteFirst
    | some e => exact .noteFold e
  | claim first =>
    simp only [exec, execNote]
    split
    · exact .claimTaken first (by assumption)
    · rename_i free
      cases first with
      | false => exact .claim (by simpa using free)
      | true => exact .claimFirst (by simpa using free)
  | watch =>
    simp only [exec, execNote]
    split
    · split
      · exact .watchFails
      · exact .putFails
    · exact .watch
  | declined first =>
    cases first with
    | false => exact .declined
    | true => exact .closeUnregistered
  | turn =>
    simp only [exec, execTurn]
    split <;> constructor
  | finishLook left =>
    simp only [exec, execTurn]
    split
    · rename_i again
      simp only [Bool.and_eq_true] at again
      rw [again.1.1]
      exact .finishLook
    · rename_i done
      exact .finished left (by
        simp only [Bool.and_eq_true, decide_eq_true_eq, Bool.not_eq_true'] at done
        grind -ring -linarith [Phase.isReleased])
  | refused =>
    simp only [exec, execRefused]
    split
    · exact .refused
    · rename_i released
      have released : s.phase.isReleased = true := by simpa using released
      split
      · exact .refusedDelivers released
      · exact .refusedReleased released
  | refusedLook teardown close =>
    simp only [exec, execRefused]
    split
    · rename_i owed
      simp only [Bool.and_eq_true] at owed
      rw [owed.1.1]
      exact .refusedHandsOn close
    · rename_i other
      split
      · rename_i publish
        simp only [Bool.and_eq_true, decide_eq_true_eq] at publish
        rw [publish.1]
        exact .refusedPublishes teardown (by rw [publish.2]; rfl)
      · exact .refusedLook teardown close (by
          simp only [Bool.and_eq_true, Bool.not_eq_true'] at other
          grind -ring -linarith)
  | run => exact .run (of_decide_eq_true able)
  | closeCallback =>
    have released : s.phase = .closeResourcesReleased := of_decide_eq_true able
    exact .closeCallback (by rw [released]; rfl)
  | stopTurns => exact .stopTurns able
  | requestClose =>
    simp only [exec, execNote]
    split
    · exact .closingAlready
    · exact .requestClose
  | _ =>
    simp only [exec, execNote, execTurn, execRefused]
    repeat' split
    all_goals constructor
    all_goals first | assumption | simp_all

end ConnTask
