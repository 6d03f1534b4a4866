import Uio.Interleaving

/-!
The half close of a layer. A write into a layer is counted before it looks at the
gate again; `CloseWrite` shuts the gate, publishes the end it owes and tries to pass
it down: with no writer inside, the output flushed and nothing held. Whoever finds
that not so leaves the end to a turn, which the last writer out or a flush asks for.
What a layer holds splits into bytes written to it and bytes of its own.
-/
namespace LayerHalfClose
open Interleaving

structure Layer where
  opened : Bool
  shut : Bool
  writers : Nat
  shutPending : Bool
  shutFlushed : Bool
  written : Nat
  own : Nat
  /-- the flush of the shut-down returned -/
  flushDone : Bool
  /-- the end was passed down, or given up -/
  finished : Bool
  /-- how often the layer's own CloseWrite ran -/
  ended : Nat
  /-- what the last look of a shut-down found held, and what was taken in since -/
  found : Nat
  since : Nat

def Layer.held (l : Layer) : Nat := l.written + l.own

def Layer.hold (l : Layer) (written own : Nat) : Layer :=
  { l with written := written, own := own, since := l.since + (written + own - l.held) }

def Layer.look (l : Layer) : Layer := { l with found := l.held, since := 0 }

structure Stack where
  layers : Nat → Layer
  shutsPending : Int
  /-- the stack or its socket is closing -/
  isOver : Bool
  inTurn : Bool
  turnAsked : Bool
  woken : Bool
  busy : Bool
  /-- the layers that `shutsPending` counts -/
  counted : List Nat
  /-- a write that began behind a shut gate was let in -/
  lateEntry : Bool

def Layer.fresh : Layer := ⟨false, false, 0, false, false, 0, 0, false, false, 0, 0, 0⟩

def Stack.fresh : Stack :=
  { layers := fun _ => .fresh, shutsPending := 0, isOver := false, inTurn := false,
    turnAsked := false, woken := false, busy := false, counted := [], lateEntry := false }

def Stack.set (s : Stack) (i : Nat) (l : Layer) : Stack :=
  { s with layers := Function.update s.layers i l }

inductive Section where
  | openUp (i : Nat)
  | write (i : Nat)
  | enterCount (i : Nat) (late : Bool)
  | enterAgain (i : Nat) (late : Bool)
  | onWrite (i : Nat)
  | exit (i : Nat) (wrote : Bool)
  | exitLook (i : Nat)
  | flush (i : Nat)
  | flushOp (i : Nat) (shutting : Bool)
  | flushDown (i : Nat)
  | flushLook
  | closeWrite (i : Nat)
  | markShut (i : Nat)
  | shutsAdd (i : Nat)
  | shutPublish (i : Nat)
  | shutTry (i : Nat)
  | shutClaim (i : Nat)
  | shutOver (i : Nat)
  | shutSwap (i : Nat)
  | shutFlushed (i : Nat)
  | shutHeld (i : Nat)
  | shutAgain (i : Nat)
  | shutLook (i : Nat)
  | shutDrop (i : Nat)
  | shutEnd (i : Nat)
  | closeWriter (i : Nat)
  /-- by a section that found an end waiting, or by a caller -/
  | request (inner : Bool)
  | requestClaim
  | wake
  | user
  | turn
  | turnStart
  | turnLook
  | turnIn
  | turnUser (settling : Bool)
  | turnEnd
  | settleGate
  | settle
  | finishShuts
  | shutScan (i : Nat)
  | turnDone
  /-- by a turn that failed, or by a caller -/
  | close (failed : Bool)
  deriving DecidableEq

structure Choice where
  /-- the next call that user code makes -/
  call : Option Section := none
  /-- user code has more to do -/
  more : Bool := false
  layer : Nat := 0
  written : Nat := 0
  own : Nat := 0
  /-- a closing stack still lets this write down: a goodbye -/
  goodbye : Bool := false
  /-- the reservation, the flush or the turn fails -/
  fails : Bool := false
  /-- a closing socket refuses the wake -/
  refused : Bool := false
  /-- the stack has neither senders nor flushers -/
  plain : Bool := false
  /-- receipts or send reports wait for the turn -/
  waiting : Bool := false

def callable : Section → Bool
  | .write _ | .flush _ | .closeWrite _ | .request false | .close false => true
  | _ => false

def entry : Section → Bool
  | .openUp _ | .turn => true
  | a => callable a

def ready (a : Section) (s : Stack) : Bool :=
  match a with
  | .turn => !s.busy
  | _ => true

def refuses (c : Choice) (s : Stack) (i : Nat) : Bool :=
  !(s.layers i).opened || (s.layers i).shut || (s.isOver && !c.goodbye)

def execWrite (c : Choice) (s : Stack) : Section → Stack × List Section
  | .openUp i => (s.set i { s.layers i with opened := true }, [])
  | .write i => if refuses c s i then (s, []) else (s, [.enterCount i (s.layers i).shut])
  | .enterCount i late =>
    (s.set i { s.layers i with writers := (s.layers i).writers + 1 }, [.enterAgain i late])
  | .enterAgain i late =>
    if refuses c s i || c.fails then (s, [.exit i false])
    else ({ s with lateEntry := s.lateEntry || late }, [.onWrite i])
  | .onWrite i =>
    if c.more then (s.set i ((s.layers i).hold c.written c.own), [.user, .onWrite i])
    else (s, [.exit i true])
  | .exit i _ =>
    (s.set i { s.layers i with writers := (s.layers i).writers - 1 },
      if (s.layers i).writers - 1 = 0 then [.exitLook i] else [])
  | .exitLook i => if (s.layers i).shutPending then (s, [.request true]) else (s, [])
  | _ => (s, [])

def execFlush (c : Choice) (s : Stack) : Section → Stack × List Section
  | .flush i => if s.isOver then (s, []) else (s, [.flushOp i false])
  | .flushOp i shutting =>
    (s.set i ((s.layers i).hold (min c.written (s.layers i).written) c.own),
      if shutting then [.user, .shutFlushed i] else [.user, .flushDown i, .flushLook])
  | .flushDown i =>
    match i with
    | 0 => (s, [])
    | below + 1 => if s.isOver || c.fails then (s, []) else (s, [.flush below])
  | .flushLook => if 0 < s.shutsPending then (s, [.request true]) else (s, [])
  | _ => (s, [])

def execShut (flushes : Nat → Bool) (c : Choice) (s : Stack) : Section → Stack × List Section
  | .closeWrite i => if s.isOver then (s, []) else (s, [.markShut i])
  | .markShut i =>
    if (s.layers i).shut then (s, []) else (s.set i { s.layers i with shut := true }, [.shutsAdd i])
  | .shutsAdd i =>
    ({ s with shutsPending := s.shutsPending + 1, counted := i :: s.counted }, [.shutPublish i])
  | .shutPublish i => (s.set i { s.layers i with shutPending := true }, [.shutTry i])
  | .shutTry i => if (s.layers i).writers = 0 then (s, [.shutClaim i]) else (s, [])
  | .shutClaim i =>
    if (s.layers i).shutPending then (s.set i { s.layers i with shutPending := false }, [.shutOver i])
    else (s, [])
  | .shutOver i => if s.isOver then (s, [.shutDrop i]) else (s, [.shutSwap i])
  | .shutSwap i =>
    if flushes i && !(s.layers i).shutFlushed then
      (s.set i { s.layers i with shutFlushed := true }, [.flushOp i true])
    else (s, [.shutHeld i])
  | .shutFlushed i =>
    if c.fails || s.isOver then (s, [.shutDrop i])
    else (s.set i { s.layers i with flushDone := true }, [.shutHeld i])
  | .shutHeld i =>
    (s.set i (s.layers i).look, if 0 < (s.layers i).held then [.shutAgain i] else [.shutEnd i])
  | .shutAgain i => (s.set i { s.layers i with shutPending := true }, [.shutLook i])
  | .shutLook i => if 0 < (s.layers i).held then (s, []) else (s, [.shutTry i])
  | .shutDrop i =>
    ({ s.set i { s.layers i with finished := true } with
        shutsPending := s.shutsPending - 1, counted := s.counted.erase i }, [])
  | .shutEnd i =>
    ({ s.set i { s.layers i with finished := true } with
        shutsPending := s.shutsPending - 1, counted := s.counted.erase i }, [.closeWriter i])
  | .closeWriter i => (s.set i { s.layers i with ended := (s.layers i).ended + 1 }, [.user])
  | _ => (s, [])

def execTurn (top : Nat) (c : Choice) (s : Stack) : Section → Stack × List Section
  | .request _ => if s.inTurn then (s, []) else (s, [.requestClaim])
  | .requestClaim => if s.turnAsked then (s, []) else ({ s with turnAsked := true }, [.wake])
  | .wake =>
    if s.isOver && c.refused then ({ s with turnAsked := false }, []) else ({ s with woken := true }, [])
  | .user =>
    match c.call with
    | some a => if callable a then (s, [a, .user]) else (s, [])
    | none => (s, [])
  | .turn => ({ s with busy := true, woken := false }, [.turnStart, .turnDone])
  | .turnStart => ({ s with turnAsked := false }, [.turnLook])
  | .turnLook => if s.isOver then (s, []) else (s, [.turnIn])
  | .turnIn => ({ s with inTurn := true }, [.turnUser false])
  | .turnUser settling =>
    if c.more then
      (s.set c.layer ((s.layers c.layer).hold (min c.written (s.layers c.layer).written) c.own),
        [.user, .turnUser settling])
    else if settling then (s, if c.waiting then [.request true, .finishShuts] else [.finishShuts])
    else (s, [.turnEnd])
  | .turnEnd =>
    ({ s with inTurn := false },
      if c.fails then [.close true] else if c.plain then [.settleGate] else [.settle])
  | .settleGate => if 0 < s.shutsPending || c.waiting || s.isOver then (s, [.settle]) else (s, [])
  | .settle =>
    if s.isOver then (s, []) else (s, [.turnUser true])
  | .finishShuts => if s.shutsPending = 0 then (s, []) else (s, [.shutScan (top + 1)])
  | .shutScan i =>
    match i with
    | 0 => (s, [])
    | i + 1 =>
      if (s.layers i).shutPending && !s.isOver then (s, [.shutTry i, .shutScan i]) else (s, [.shutScan i])
  | .turnDone => ({ s with busy := false }, [])
  | .close _ => ({ s with isOver := true }, [])
  | _ => (s, [])

def exec (flushes : Nat → Bool) (top : Nat) (c : Choice) (a : Section) (s : Stack) :
    Stack × List Section :=
  match a with
  | .openUp _ | .write _ | .enterCount _ _ | .enterAgain _ _ | .onWrite _ | .exit _ _
  | .exitLook _ =>
    execWrite c s a
  | .flush _ | .flushOp _ _ | .flushDown _ | .flushLook => execFlush c s a
  | .closeWrite _ | .markShut _ | .shutsAdd _ | .shutPublish _ | .shutTry _ | .shutClaim _
  | .shutOver _ | .shutSwap _ | .shutFlushed _ | .shutHeld _ | .shutAgain _ | .shutLook _
  | .shutDrop _ | .shutEnd _ | .closeWriter _ => execShut flushes c s a
  | .request _ | .requestClaim | .wake | .user | .turn | .turnStart | .turnLook | .turnIn | .turnUser _
  | .turnEnd | .settleGate | .settle | .finishShuts | .shutScan _ | .turnDone | .close _ =>
    execTurn top c s a

def program (flushes : Nat → Bool) (top : Nat) : Program Stack Section Choice :=
  ⟨entry, ready, exec flushes top⟩

inductive Step (flushes : Nat → Bool) (top : Nat) (s : Stack) :
    Section → Stack → List Section → Prop where
  | openUp (i : Nat) :
    Step flushes top s (.openUp i) (s.set i { s.layers i with opened := true }) []
  | refused (i : Nat) : Step flushes top s (.write i) s []
  | write (i : Nat) (free : (s.layers i).shut = false) :
    Step flushes top s (.write i) s [.enterCount i false]
  | enterCount (i : Nat) (late : Bool) :
    Step flushes top s (.enterCount i late)
      (s.set i { s.layers i with writers := (s.layers i).writers + 1 }) [.enterAgain i late]
  | turnedBack (i : Nat) (late : Bool) : Step flushes top s (.enterAgain i late) s [.exit i false]
  | enter (i : Nat) (late : Bool) (free : (s.layers i).shut = false) :
    Step flushes top s (.enterAgain i late) { s with lateEntry := s.lateEntry || late } [.onWrite i]
  | onWrite (i written own : Nat) :
    Step flushes top s (.onWrite i) (s.set i ((s.layers i).hold written own)) [.user, .onWrite i]
  | written (i : Nat) : Step flushes top s (.onWrite i) s [.exit i true]
  | exitLast (i : Nat) (wrote : Bool) (last : (s.layers i).writers - 1 = 0) :
    Step flushes top s (.exit i wrote)
      (s.set i { s.layers i with writers := (s.layers i).writers - 1 }) [.exitLook i]
  | exit (i : Nat) (wrote : Bool) (last : (s.layers i).writers - 1 ≠ 0) :
    Step flushes top s (.exit i wrote)
      (s.set i { s.layers i with writers := (s.layers i).writers - 1 }) []
  | exitAsks (i : Nat) : Step flushes top s (.exitLook i) s [.request true]
  | exitDone (i : Nat) (idle : (s.layers i).shutPending = false) :
    Step flushes top s (.exitLook i) s []
  | flush (i : Nat) : Step flushes top s (.flush i) s [.flushOp i false]
  | unflushed (i : Nat) : Step flushes top s (.flush i) s []
  | flushOp (i written own : Nat) (fewer : written ≤ (s.layers i).written) :
    Step flushes top s (.flushOp i false) (s.set i ((s.layers i).hold written own))
      [.user, .flushDown i, .flushLook]
  | shutFlush (i written own : Nat) (fewer : written ≤ (s.layers i).written) :
    Step flushes top s (.flushOp i true) (s.set i ((s.layers i).hold written own))
      [.user, .shutFlushed i]
  | flushDown (i below : Nat) : Step flushes top s (.flushDown i) s [.flush below]
  | flushed (i : Nat) : Step flushes top s (.flushDown i) s []
  | flushAsks : Step flushes top s .flushLook s [.request true]
  | flushIdle (none : s.shutsPending ≤ 0) : Step flushes top s .flushLook s []
  | closeWrite (i : Nat) : Step flushes top s (.closeWrite i) s [.markShut i]
  | unclosed (i : Nat) : Step flushes top s (.closeWrite i) s []
  | markShut (i : Nat) (free : (s.layers i).shut = false) :
    Step flushes top s (.markShut i) (s.set i { s.layers i with shut := true }) [.shutsAdd i]
  | marked (i : Nat) : Step flushes top s (.markShut i) s []
  | shutsAdd (i : Nat) :
    Step flushes top s (.shutsAdd i)
      { s with shutsPending := s.shutsPending + 1, counted := i :: s.counted } [.shutPublish i]
  | shutPublish (i : Nat) :
    Step flushes top s (.shutPublish i) (s.set i { s.layers i with shutPending := true })
      [.shutTry i]
  | shutTry (i : Nat) (none : (s.layers i).writers = 0) :
    Step flushes top s (.shutTry i) s [.shutClaim i]
  | shutWaits (i : Nat) (some : (s.layers i).writers ≠ 0) : Step flushes top s (.shutTry i) s []
  | shutClaim (i : Nat) (owed : (s.layers i).shutPending = true) :
    Step flushes top s (.shutClaim i) (s.set i { s.layers i with shutPending := false }) [.shutOver i]
  | shutTaken (i : Nat) (owed : (s.layers i).shutPending = false) :
    Step flushes top s (.shutClaim i) s []
  | shutOver (i : Nat) : Step flushes top s (.shutOver i) s [.shutSwap i]
  | shutLate (i : Nat) : Step flushes top s (.shutOver i) s [.shutDrop i]
  | shutSwap (i : Nat) (first : (s.layers i).shutFlushed = false) :
    Step flushes top s (.shutSwap i) (s.set i { s.layers i with shutFlushed := true })
      [.flushOp i true]
  | shutUnflushed (i : Nat) (none : flushes i = false ∨ (s.layers i).shutFlushed = true) :
    Step flushes top s (.shutSwap i) s [.shutHeld i]
  | shutFlushed (i : Nat) :
    Step flushes top s (.shutFlushed i) (s.set i { s.layers i with flushDone := true }) [.shutHeld i]
  | shutFails (i : Nat) : Step flushes top s (.shutFlushed i) s [.shutDrop i]
  | shutHolds (i : Nat) :
    Step flushes top s (.shutHeld i) (s.set i (s.layers i).look) [.shutAgain i]
  | shutHeld (i : Nat) (none : (s.layers i).held = 0) :
    Step flushes top s (.shutHeld i) (s.set i (s.layers i).look) [.shutEnd i]
  | shutAgain (i : Nat) :
    Step flushes top s (.shutAgain i) (s.set i { s.layers i with shutPending := true }) [.shutLook i]
  | shutLook (i : Nat) : Step flushes top s (.shutLook i) s [.shutTry i]
  | shutLeft (i : Nat) (some : 0 < (s.layers i).held) : Step flushes top s (.shutLook i) s []
  | shutDrop (i : Nat) :
    Step flushes top s (.shutDrop i)
      { s.set i { s.layers i with finished := true } with
        shutsPending := s.shutsPending - 1, counted := s.counted.erase i } []
  | shutEnd (i : Nat) :
    Step flushes top s (.shutEnd i)
      { s.set i { s.layers i with finished := true } with
        shutsPending := s.shutsPending - 1, counted := s.counted.erase i } [.closeWriter i]
  | closeWriter (i : Nat) :
    Step flushes top s (.closeWriter i)
      (s.set i { s.layers i with ended := (s.layers i).ended + 1 }) [.user]
  | requested (inner : Bool) (inside : s.inTurn = true) : Step flushes top s (.request inner) s []
  | request (inner : Bool) : Step flushes top s (.request inner) s [.requestClaim]
  | requestShared (asked : s.turnAsked = true) : Step flushes top s .requestClaim s []
  | requestClaim : Step flushes top s .requestClaim { s with turnAsked := true } [.wake]
  | wakeFails (isOver : s.isOver = true) : Step flushes top s .wake { s with turnAsked := false } []
  | wake : Step flushes top s .wake { s with woken := true } []
  | userCalls (a : Section) (legal : callable a = true) : Step flushes top s .user s [a, .user]
  | userDone : Step flushes top s .user s []
  | turn : Step flushes top s .turn { s with busy := true, woken := false } [.turnStart, .turnDone]
  | turnStart : Step flushes top s .turnStart { s with turnAsked := false } [.turnLook]
  | turnOver (isOver : s.isOver = true) : Step flushes top s .turnLook s []
  | turnLook : Step flushes top s .turnLook s [.turnIn]
  | turnIn : Step flushes top s .turnIn { s with inTurn := true } [.turnUser false]
  | turnUser (settling : Bool) (i written own : Nat) (fewer : written ≤ (s.layers i).written) :
    Step flushes top s (.turnUser settling) (s.set i ((s.layers i).hold written own))
      [.user, .turnUser settling]
  | turnUsed : Step flushes top s (.turnUser false) s [.turnEnd]
  | settled : Step flushes top s (.turnUser true) s [.finishShuts]
  | settledAgain : Step flushes top s (.turnUser true) s [.request true, .finishShuts]
  | turnFails : Step flushes top s .turnEnd { s with inTurn := false } [.close true]
  | turnPlain : Step flushes top s .turnEnd { s with inTurn := false } [.settleGate]
  | turnEnd : Step flushes top s .turnEnd { s with inTurn := false } [.settle]
  | settleGate : Step flushes top s .settleGate s [.settle]
  | unsettled (none : s.shutsPending ≤ 0) : Step flushes top s .settleGate s []
  | settleOver (isOver : s.isOver = true) : Step flushes top s .settle s []
  | settle : Step flushes top s .settle s [.turnUser true]
  | noShuts (none : s.shutsPending = 0) : Step flushes top s .finishShuts s []
  | finishShuts : Step flushes top s .finishShuts s [.shutScan (top + 1)]
  | scanned : Step flushes top s (.shutScan 0) s []
  | scanTry (i : Nat) (owed : (s.layers i).shutPending = true) :
    Step flushes top s (.shutScan (i + 1)) s [.shutTry i, .shutScan i]
  | scanSkip (i : Nat) (none : (s.layers i).shutPending = false ∨ s.isOver = true) :
    Step flushes top s (.shutScan (i + 1)) s [.shutScan i]
  | turnDone : Step flushes top s .turnDone { s with busy := false } []
  | close (failed : Bool) : Step flushes top s (.close failed) { s with isOver := true } []

theorem exec_step (flushes : Nat → Bool) (top : Nat) (c : Choice) (a : Section) (s : Stack) :
    Step flushes top s a (exec flushes top c a s).1 (exec flushes top c a s).2 := by
  cases a with
  | write i =>
    simp only [exec, execWrite]
    split
    · exact .refused i
    · rename_i passed
      have free : (s.layers i).shut = false := by
        simp only [refuses, Bool.or_eq_true, not_or, Bool.not_eq_true] at passed
        exact passed.1.2
      rw [free]
      exact .write i free
  | enterAgain i late =>
    simp only [exec, execWrite]
    split
    · exact .turnedBack i late
    · rename_i passed
      simp only [refuses, Bool.or_eq_true, not_or, Bool.not_eq_true] at passed
      exact .enter i late passed.1.1.2
  | flushOp i shutting =>
    cases shutting with
    | false => exact .flushOp i _ c.own (Nat.min_le_right _ _)
    | true => exact .shutFlush i _ c.own (Nat.min_le_right _ _)
  | flushDown i =>
    cases i with
    | zero => exact .flushed 0
    | succ below =>
      simp only [exec, execFlush]
      split
      · exact .flushed _
      · exact .flushDown _ below
  | shutSwap i =>
    simp only [exec, execShut]
    split
    · rename_i first
      exact .shutSwap i (by simp_all)
    · rename_i skip
      exact .shutUnflushed i (by cases known : flushes i <;> simp_all)
  | user =>
    simp only [exec, execTurn]
    split
    · rename_i a _
      split
      · rename_i legal
        exact .userCalls a legal
      · exact .userDone
    · exact .userDone
  | turnUser settling =>
    simp only [exec, execTurn]
    split
    · exact .turnUser settling c.layer _ c.own (Nat.min_le_right _ _)
    · cases settling with
      | false => exact .turnUsed
      | true =>
        simp only [if_true]
        split
        · exact .settledAgain
        · exact .settled
  | shutScan i =>
    cases i with
    | zero => exact .scanned
    | succ i =>
      simp only [exec, execTurn]
      split
      · rename_i owed
        exact .scanTry i (by simp_all)
      · rename_i skip
        exact .scanSkip i (by simpa [Bool.and_eq_true, Classical.or_iff_not_imp_left] using skip)
  | _ =>
    simp only [exec, execWrite, execFlush, execShut, execTurn]
    repeat' split
    all_goals constructor
    all_goals simp_all

end LayerHalfClose
