import Uio.Umux.Stacks

/- When an OnClose is delivered. While the session is open its turns deliver the queued
   closes, each at its end; once it closed, whoever queues a close delivers it in place.
   In both cases no read or timer callback is on its way any more. -/
namespace UmuxCloses
open Interleaving UmuxOutbox UmuxSession UmuxMachine UmuxLifecycle UmuxTimers UmuxTurn UmuxInbound
open UmuxOutbound UmuxFootprint UmuxSuccessors UmuxSpine UmuxSteps UmuxStacks
open List (all_eq_true all_map append_nil)
variable {now : Nat} {ok : Oracle → Section → Session → Prop} (cfg : Endpoint) (c : Oracle)
  (a : Section) (s : Session) (closed : Bool)

def closes : Section → Bool
  | .drainCloses | .callback (some (.onClose _ _)) => true
  | _ => false

def silent (a : Section) : Bool := !closes a

def Left (a : Section) : Prop := serves a = false ∧ (isSpine a = true → a = .turnEnd)

def delivers : Section → Bool
  | .queueClose _ _ | .drainCloses | .heldReads | .exhaustedBudget | .readFrame | .timerRound _
  | .onTransportClose _ => true
  | _ => false

/-- Where the sections of a close come from: a reset or the finish of the stream, then
    its delivery mark, the queue, and the end of a turn. -/
def source (a : Section) : Section → Bool
  | .deliverClose r _ =>
    match a with
    | .resetStream q _ | .tryFinish q => q == r
    | _ => false
  | .queueClose r _ =>
    match a with
    | .deliverClose q _ => q == r
    | _ => false
  | .drainCloses => delivers a
  | .callback (some (.onClose _ _)) =>
    match a with
    | .drainCloses => true
    | _ => false
  | _ => true

end UmuxCloses
