import Uio.Interleaving

/-!
How a layer stack closes. A close claims the stack by moving it to closing, leaves
a plan and asks for a turn; the turn takes the plan and walks the layers down to
the socket, marking each. An abort cuts that short and goes to the socket itself,
and a turn that fails claims the stack and walks in place.
User code (the callbacks of layers and Handler) may call any close.
-/
namespace LayerClose
open Interleaving

inductive Cause where
  | none
  | eof
  | unexpectedEOF
  | other (code : Nat)
  deriving DecidableEq

def gracefulCause : Cause → Bool
  | .other _ => false
  | _ => true

inductive Phase where
  | opening
  | opened
  | closing
  | ending
  | closed
  deriving DecidableEq

def Phase.over : Phase → Bool
  | .opening | .opened => false
  | .closing | .ending | .closed => true

def Phase.noLayerCalls : Phase → Bool
  | .opening | .opened | .closing => false
  | .ending | .closed => true

def Phase.closedStack : Phase → Bool
  | .closed => true
  | _ => false

/-- `start` is the first layer that says its goodbye; one past the top is above the top. -/
structure Plan where
  cause : Cause
  graceful : Bool
  start : Nat
  deriving DecidableEq

/-- The closes that user code can ask for: the top connection's two, and a layer's own two. -/
inductive Call where
  | closeWith (cause : Cause)
  | closeGracefully (cause : Cause)
  | close (layer : Nat) (cause : Cause)
  | abort (layer : Nat) (cause : Cause)
  deriving DecidableEq

namespace Call

def cause : Call → Cause
  | .closeWith cause | .closeGracefully cause | .close _ cause | .abort _ cause => cause

def graceful : Call → Bool
  | .closeWith cause => gracefulCause cause
  | .closeGracefully _ | .close _ _ => true
  | .abort _ _ => false

def layer (top : Nat) : Call → Nat
  | .closeWith _ | .closeGracefully _ => top
  | .close layer _ | .abort layer _ => layer

def fromAbove : Call → Bool
  | .closeWith _ | .closeGracefully _ => true
  | .close _ _ | .abort _ _ => false

def drains : Call → Bool
  | .closeWith _ => false
  | x => x.graceful

def cuts (x : Call) (drainBegun : Bool) : Bool :=
  match x with
  | .closeWith cause => !gracefulCause cause || drainBegun
  | .closeGracefully _ | .close _ _ => false
  | .abort _ _ => true

def plan (top : Nat) (x : Call) : Plan :=
  ⟨x.cause, x.graceful, if x.fromAbove then top + 1 else x.layer top⟩

end Call

structure Stack where
  phase : Phase
  drain : Bool
  plan : Option Plan
  walked : Nat → Bool
  inTurn : Bool
  turnAsked : Bool
  /-- the socket owes the stack a turn -/
  woken : Bool
  /-- a turn of the connection runs -/
  busy : Bool
  built : Bool
  /-- the socket's own close has been called -/
  socketClosing : Bool

def Stack.fresh : Stack :=
  { phase := .opening, drain := false, plan := none, walked := fun _ => false, inTurn := false,
    turnAsked := false, woken := false, busy := false, built := false, socketClosing := false }

structure Choice where
  /-- the next close that a callback calls -/
  call : Option Call := none
  /-- the error that a turn, a layer's flush or a half close ends with -/
  fault : Option Cause := none
  /-- a layer's flush fails -/
  flushFails : Bool := false
  /-- the stack has neither senders nor flushers -/
  plain : Bool := false
  /-- half closes, receipts or send reports wait for the turn -/
  waiting : Bool := false
  /-- a closing socket refuses the wake -/
  refused : Bool := false

def Choice.quiet : Choice := {}

inductive Section where
  | markOpen
  | call (x : Call)
  | endClaim (x : Call)
  | endMark (x : Call)
  | endStore (x : Call)
  | endCut (x : Call)
  | cutPlan
  | request
  | requestClaim
  | wake
  | takePlan
  | planLook (p : Plan)
  | walk (layer : Nat) (p : Plan) (flushSelf : Bool)
  | walkFlush (layer : Nat) (p : Plan) (flushSelf : Bool)
  | walkDown (layer : Nat) (p : Plan)
  | endAtSocket (graceful : Bool)
  | socketClose (graceful : Bool)
  | user
  | onOpen
  | turn
  | turnStart
  | turnLook
  | turnIn
  | turnRan
  | finish (reports : Bool)
  | finishOff (reports : Bool)
  | settleGate
  | settle
  | settleRest
  | finishShuts
  | failLook (cause : Cause) (reports : Bool)
  | failClaim (cause : Cause) (reports : Bool)
  | failStore (cause : Cause) (reports : Bool)
  | failReturn (cause : Cause) (reports : Bool)
  | turnDone
  | socketFails
  | onClose
  deriving DecidableEq

open Section

def entry : Section → Bool
  | .markOpen | .call _ | .request | .onOpen | .turn | .socketFails | .onClose => true
  | _ => false

def ready (a : Section) (s : Stack) : Bool :=
  match a with
  | .onOpen => !s.busy && !s.built
  | .turn => !s.busy && s.built
  | .onClose => !s.busy && s.socketClosing
  | _ => true

def execCall (top : Nat) (s : Stack) : Section → Stack × List Section
  | .call x =>
    if s.phase.closedStack || decide (top < x.layer top) then (s, []) else (s, [.endClaim x])
  | .endClaim x =>
    if s.phase.over then (s, [.endCut x])
    else ({ s with phase := .closing, drain := x.drains }, [.endMark x])
  | .endMark x => ({ s with walked := Function.update s.walked (x.layer top) true }, [.endStore x])
  | .endStore x => ({ s with plan := some (x.plan top) }, [.request])
  | .endCut x => if x.cuts s.drain then (s, [.cutPlan]) else (s, [])
  | .cutPlan => ({ s with plan := none }, [.endAtSocket false])
  | _ => (s, [])

def execRequest (c : Choice) (s : Stack) : Section → Stack × List Section
  | .request => if s.inTurn then (s, []) else (s, [.requestClaim])
  | .requestClaim => if s.turnAsked then (s, []) else ({ s with turnAsked := true }, [.wake])
  | .wake =>
    if s.socketClosing && c.refused then ({ s with turnAsked := false }, [])
    else ({ s with woken := true }, [])
  | _ => (s, [])

def execWalk (top : Nat) (c : Choice) (s : Stack) : Section → Stack × List Section
  | .takePlan =>
    match s.plan with
    | none => (s, [])
    | some p => ({ s with plan := none }, [.planLook p])
  | .planLook p =>
    if s.phase.noLayerCalls then (s, [])
    else if p.start ≤ top then (s, [.walk p.start p false])
    else ({ s with walked := Function.update s.walked top true }, [.walk top p true])
  | .walk layer p flushSelf =>
    if s.phase.noLayerCalls then (s, []) else (s, [.user, .walkFlush layer p flushSelf])
  | .walkFlush layer p flushSelf =>
    if flushSelf && p.graceful && !s.phase.noLayerCalls then
      if c.flushFails then (s, [.user, .endAtSocket false]) else (s, [.user, .walkDown layer p])
    else (s, [.walkDown layer p])
  | .walkDown layer p =>
    match layer with
    | 0 => (s, [.endAtSocket p.graceful])
    | below + 1 =>
      if s.walked below then (s, [])
      else ({ s with walked := Function.update s.walked below true }, [.walk below p true])
  | .endAtSocket graceful =>
    ({ s with phase := if s.phase.noLayerCalls then s.phase else .ending }, [.socketClose graceful])
  | .socketClose _ => ({ s with socketClosing := true }, [])
  | _ => (s, [])

def execTurn (c : Choice) (s : Stack) : Section → Stack × List Section
  | .onOpen =>
    ({ s with busy := true, built := true, inTurn := true }, [.user, .finish false, .turnDone])
  | .turn => ({ s with busy := true, woken := false }, [.turnStart, .turnDone])
  | .turnStart =>
    if s.phase.closedStack then (s, []) else ({ s with turnAsked := false }, [.turnLook])
  | .turnLook => if s.phase.over then (s, [.takePlan, .settle]) else (s, [.turnIn])
  | .turnIn => ({ s with inTurn := true }, [.user, .turnRan])
  | .turnRan =>
    match c.fault with
    | some cause => ({ s with inTurn := false }, [.failLook cause true])
    | none => (s, [.finish true])
  | .finish reports => (s, [.user, .finishOff reports])
  | .finishOff reports =>
    ({ s with inTurn := false },
      if c.plain then [.settleGate]
      else
        match c.fault with
        | some cause => [.settle, .failLook cause reports]
        | none => [.settle])
  | .settleGate => if c.waiting || s.phase.over then (s, [.settle]) else (s, [])
  | .settle =>
    match s.plan with
    | some _ => (s, [.takePlan, .settleRest])
    | none => (s, [.settleRest])
  | .settleRest =>
    if s.phase.over then (s, [])
    else if c.waiting then (s, [.user, .request, .finishShuts])
    else (s, [.user, .finishShuts])
  | .finishShuts =>
    match c.fault with
    | some cause =>
      if s.phase.over then (s, []) else (s, [.user, .failLook cause false, .finishShuts])
    | none => (s, [])
  | .turnDone => ({ s with busy := false }, [])
  | _ => (s, [])

def execFail (top : Nat) (s : Stack) : Section → Stack × List Section
  | .failLook cause reports =>
    if s.phase.over then (s, [.takePlan, .failReturn cause reports])
    else (s, [.failClaim cause reports])
  | .failClaim cause reports =>
    ({ s with
        phase := if s.phase.over then s.phase else .closing
        drain := if s.phase.over then s.drain else false },
      [.failStore cause reports])
  | .failStore cause reports =>
    ({ s with plan := some ⟨cause, gracefulCause cause, top + 1⟩ },
      [.takePlan, .failReturn cause reports])
  | .failReturn cause reports =>
    if reports && !gracefulCause cause then (s, [.socketClose false]) else (s, [])
  | _ => (s, [])

def exec (top : Nat) (c : Choice) (a : Section) (s : Stack) : Stack × List Section :=
  match a with
  | .markOpen => ({ s with phase := if s.phase = .opening then .opened else s.phase }, [])
  | .call _ | .endClaim _ | .endMark _ | .endStore _ | .endCut _ | .cutPlan => execCall top s a
  | .request | .requestClaim | .wake => execRequest c s a
  | .takePlan | .planLook _ | .walk _ _ _ | .walkFlush _ _ _ | .walkDown _ _ | .endAtSocket _
  | .socketClose _ => execWalk top c s a
  | .user =>
    match c.call with
    | some x => (s, [.call x, .user])
    | none => (s, [])
  | .onOpen | .turn | .turnStart | .turnLook | .turnIn | .turnRan | .finish _ | .finishOff _
  | .settleGate | .settle | .settleRest | .finishShuts | .turnDone => execTurn c s a
  | .failLook _ _ | .failClaim _ _ | .failStore _ _ | .failReturn _ _ => execFail top s a
  | .socketFails => ({ s with socketClosing := true }, [])
  | .onClose => ({ s with phase := .closed, plan := none }, [])

def program (top : Nat) : Program Stack Section Choice := ⟨entry, ready, exec top⟩

end LayerClose
