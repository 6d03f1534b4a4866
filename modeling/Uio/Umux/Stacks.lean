import Uio.Umux.Spine

/- How a turn's thread is stacked. Its spine section is the last one of the thread,
   and the sections of a read or timer callback stand above it, so whatever of these
   is owed is owed by the thread of the turn. -/
namespace UmuxStacks
open Interleaving UmuxOutbox UmuxSession UmuxMachine UmuxLifecycle UmuxTimers UmuxTurn UmuxInbound
open UmuxSuccessors UmuxSpine UmuxSteps
open List (all_append all_cons all_eq_true all_map any_cons)
variable (cfg : Endpoint) (c : Oracle) {a : Section} {rest : List Section} (s : Session)

def leads : Section → Bool
  | .runWakes | .grantWindow _ _ | .dispatchRead _ | .invokeRead _ | .invokeTimer _ => true
  | _ => false

def starts : Section → Option Ref
  | .callback (some (.onRead r)) | .callback (some (.onTimer r)) => some r
  | _ => none

def returns : Section → Option Ref
  | .callbackReturn r | .callbackRelease r => some r
  | _ => none

def serves (a : Section) : Bool := leads a || (starts a).isSome || (returns a).isSome

def bottom (a : Section) : Bool := isSpine a || turns a

structure Fits (a : Section) (rest : List Section) : Prop where
  alone : bottom a = true → rest = []
  turn : leads a = true ∨ (returns a).isSome = true → rest.any isSpine = true
  single : leads a = true ∨ (returns a).isSome = true → ∀ b ∈ rest, returns b = none
  ends : ∀ r, starts a = some r → rest.head? = some (.callbackReturn r)

def Framed : List Section → Prop
  | [] => True
  | a :: rest => Fits a rest ∧ Framed rest

def plain (a : Section) : Bool := !bottom a && !serves a

structure Idle (stack : List Section) : Prop where
  turn : stack.any isSpine = true
  single : ∀ b ∈ stack, returns b = none
  framed : Framed stack

end UmuxStacks
