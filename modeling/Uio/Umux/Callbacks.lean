import Uio.Umux.Closes
import Uio.Umux.Order
import Uio.Umux.Removal

/- The order of a stream's callbacks: its OnClose runs at most once, and no read or
   timer callback starts after it. A stream finishes by itself only when both its
   directions ended and nothing of it is left to send, to read or to call. -/
namespace UmuxCallbacks
open Interleaving UmuxFrame UmuxOutbox UmuxSession UmuxMachine UmuxLifecycle UmuxTimers UmuxTurn
open UmuxInbound UmuxFootprint UmuxEdits UmuxBirth UmuxFlags UmuxSuccessors UmuxSpine UmuxSteps
open UmuxRemoval UmuxStacks UmuxCloses UmuxOrder
open List (all_append all_map append_nil map_nil mem_cons mem_cons_of_mem mem_cons_self
  not_mem_nil sum_nil)
variable (cfg : Endpoint) (c : Oracle) {a : Section} {s : Session} {now : Nat}
  {ok : Oracle → Section → Session → Prop} {p : Pool Session Section} {b : Section} {r : Ref}
  {cause : Cause}

def queued : Section → Bool
  | .queueClose _ _ | .drainCloses => true
  | _ => false

structure Marks where
  delivered : Bool
  active : Bool

def marks (l : Life) : Marks := ⟨l.closeDelivered, l.callbackActive⟩

def concerns : Section → Option Ref
  | .dispatchRead r | .invokeRead r | .invokeTimer r | .deliverClose r _
  | .callback (some (.onRead r)) | .callback (some (.onTimer r))
  | .callbackReturn r | .callbackRelease r => some r
  | _ => none

structure Known (s : Session) (owing : Multiset Section) : Prop where
  sections : ∀ a ∈ owing, ∀ r, concerns a = some r → r < s.reg.fresh
  wakes : ∀ r ∈ s.wakeQ, r < s.reg.fresh

structure Marked (s : Session) (owing : Multiset Section) : Prop where
  pushed : ∀ r cause, .deliverClose r cause ∈ owing → (s.life r).closedLocal = true
  delivered : ∀ r < s.reg.fresh, (s.life r).closeDelivered = true → (s.life r).closedLocal = true

def closeOf (r : Ref) : Event → Bool
  | .onClose q _ => q == r
  | _ => false

def onWay (r : Ref) : Section → Nat
  | .queueClose q _ => (q == r).toNat
  | .callback (some (.onClose q _)) => (q == r).toNat
  | _ => 0

def tally (r : Ref) (s : Session) (owing : Multiset Section) : Nat :=
  s.log.countP (closeOf r) + s.closeQ.countP (·.1 == r) + weigh (onWay r) owing

/-- A stream that exists and has its mark is owed one close, any other none. -/
def due (r : Ref) (s : Session) : Nat :=
  if r < s.reg.fresh then (s.life r).closeDelivered.toNat else 0

/-- A client with a handler opens a stream, half closes it and gets the peer's FIN.
The turn that brings it is `count` sections past the frame. -/
def halfClosed (count : Nat) : List (Move Section Oracle) :=
  List.flatten [runs 0 4 {}, [.start (.openStream [])], runs 1 3 {}, [.start .turnRead], runs 2 3 {},
    [.run 2 { incoming := .frame (UmuxFrame.control .windowUpdate { ack := true } 1 0) }], runs 2 11 {},
    [.start (.closeWrite 0)], runs 3 9 {}, [.start .turnRead], runs 4 3 {},
    [.run 4 { incoming := .frame (finFrame 1) }], runs 4 count {}]

end UmuxCallbacks
