import Uio.Umux.Footprint

/- The flags of a stream that say where it is in its life: opening, each direction's
   end, and closed; and what was told of it and runs for it. Nine kinds of section move
   them, each on its own stream, the others only the bookkeeping beside. -/
namespace UmuxFlags
open UmuxOutbox UmuxSession UmuxMachine UmuxLifecycle UmuxTurn UmuxInbound UmuxFootprint

structure Phase where
  opening : Bool
  peerFIN : Bool
  localFIN : Bool
  closedLocal : Bool

def phase (l : Life) : Phase := ⟨l.opening, l.peerFIN, l.localFIN, l.closedLocal⟩

def movesPhase : Section → Bool
  | .closeWrite _ | .resetStream _ _ | .tryFinish _ | .pushData _ _ _ _ | .establish _ _ _ => true
  | _ => false

def movesMarks : Section → Bool
  | .deliverClose _ _ | .invokeRead _ | .invokeTimer _ | .callbackRelease _ => true
  | _ => false

theorem update_view {α : Type} (view : Life → α) {f : Ref → Life} {r : Ref} {l : Life}
    (same : view l = view (f r)) (q : Ref) : view (Function.update f r l q) = view (f q) := by
  by_cases own : q = r
  · subst q
    rw [Function.update_self]
    exact same
  · rw [Function.update_of_ne own]

theorem clearWakes_view {α : Type} (view : Life → α)
    (same : ∀ l : Life, view { l with wakePending := false } = view l) (s : Session)
    (refs : List Ref) (q : Ref) : view ((refs.foldl clearWake s).life q) = view (s.life q) := by
  induction refs generalizing s with
  | nil => rfl
  | cons r rest ih =>
    rw [List.foldl_cons, ih]
    exact update_view view (same _) q

theorem newStream_life (cfg : Endpoint) (s : Session) (id : Nat) (isLocal : Bool) {r : Ref}
    (old : r < s.reg.fresh) : (newStream cfg s id isLocal).life r = s.life r :=
  Function.update_of_ne (Nat.ne_of_lt old) _ _

inductive Moved (r : Ref) (l : Life) : Section → Life → Prop where
  | beside {a : Section} {l' : Life} : phase l' = phase l → l'.closeDelivered = l.closeDelivered →
      l'.callbackActive = l.callbackActive → Moved r l a l'
  | closeWrite : Moved r l (.closeWrite r) { l with localFIN := true }
  | resetStream (e : Cause) :
      Moved r l (.resetStream r e) { l with closedLocal := true, closedErr := some e }
  | tryFinish (e : Cause) :
      Moved r l (.tryFinish r) { l with closedLocal := true, closedErr := some e }
  | pushData (payload : List UInt8) (fin : Bool) (next : AfterPush) :
      Moved r l (.pushData r payload fin next) { l with peerFIN := true }
  | establish (w delta : Nat) : Moved r l (.establish r w delta) { l with opening := false }
  | deliverClose (e : Cause) : Moved r l (.deliverClose r e) { l with closeDelivered := true }
  | invokeRead : Moved r l (.invokeRead r) { l with callbackActive := true, yieldOwed := false }
  | invokeTimer : Moved r l (.invokeTimer r) { l with callbackActive := true }
  | callbackRelease : Moved r l (.callbackRelease r) { l with callbackActive := false }

theorem Moved.same {r : Ref} {l l' : Life} {a : Section} (eq : l' = l) : Moved r l a l' :=
  .beside (by rw [eq]) (by rw [eq]) (by rw [eq])

theorem Moved.update {f : Ref → Life} {q : Ref} {l' : Life} {a : Section} (r : Ref)
    (own : Moved q (f q) a l') : Moved r (f r) a (Function.update f q l' r) := by
  by_cases eq : r = q
  · subst r
    rwa [Function.update_self]
  · exact .same (Function.update_of_ne eq _ _)

theorem exec_beside (cfg : Endpoint) (c : Oracle) {a : Section} {s : Session} {r : Ref}
    (quiet : movesPhase a = false) (calm : movesMarks a = false) (old : r < s.reg.fresh) :
    Moved r (s.life r) a ((exec cfg c a s).1.life r) := by
  by_cases untouched : touches a .life = false
  · exact .same (congrFun (exec_life cfg c s untouched) r)
  · cases a
    case openStream metadata =>
      simp only [exec, openStream]
      (repeat' split) <;>
        first | exact .same rfl | exact .same (newStream_life cfg s s.reg.nextID true old)
    case acceptVet id delta metadata =>
      simp only [exec, acceptVet]
      (repeat' split) <;> first | exact .same rfl | exact .same (newStream_life cfg s id false old)
    case runWakes =>
      have kept : ∀ {α : Type} (view : Life → α),
          (∀ l : Life, view { l with wakePending := false } = view l) →
          view ((exec cfg c .runWakes s).1.life r) = view (s.life r) := by
        intro α view same
        simp only [exec, runWakes]
        split <;> exact clearWakes_view view same s s.wakeQ r
      exact .beside (kept phase fun _ => rfl) (kept Life.closeDelivered fun _ => rfl)
        (kept Life.callbackActive fun _ => rfl)
    all_goals first
      | exact absurd rfl untouched
      | contradiction
      | simp only [exec, UmuxOutbound.closeLocal, wake, pauseHold, resumeRelease, callback, yieldRead]
        (repeat' split) <;> first | exact .same rfl | exact .update r (.beside rfl rfl rfl)

theorem exec_moved (cfg : Endpoint) (c : Oracle) (a : Section) {s : Session} {r : Ref}
    (old : r < s.reg.fresh) : Moved r (s.life r) a ((exec cfg c a s).1.life r) := by
  by_cases still : movesPhase a = false ∧ movesMarks a = false
  · exact exec_beside cfg c still.1 still.2 old
  · cases a
    case closeWrite q =>
      simp only [exec, UmuxOutbound.closeWrite]
      split <;> first | exact .same rfl | exact .update r .closeWrite
    case resetStream q e =>
      simp only [exec, resetStream]
      split <;> first | exact .same rfl | exact .update r (.resetStream e)
    case tryFinish q =>
      simp only [exec, tryFinish]
      split <;> first | exact .same rfl | exact .update r (.tryFinish _)
    case pushData q payload fin next =>
      simp only [exec, pushData]
      (repeat' split) <;> first | exact .same rfl | exact .update r (.pushData payload fin next)
    case deliverClose q e =>
      simp only [exec, deliverClose]
      split <;> first | exact .same rfl | exact .update r (.deliverClose e)
    case invokeRead q =>
      simp only [exec, invokeRead]
      split <;> first | exact .same rfl | exact .update r .invokeRead
    case invokeTimer q =>
      simp only [exec, invokeTimer]
      split <;> first | exact .same rfl | exact .update r .invokeTimer
    case establish q w delta => exact .update r (.establish w delta)
    case callbackRelease q => exact .update r .callbackRelease
    all_goals exact absurd ⟨rfl, rfl⟩ still

theorem exec_localFIN (cfg : Endpoint) (c : Oracle) {a : Section} {s : Session} {r : Ref}
    (other : a ≠ .closeWrite r) (old : r < s.reg.fresh) :
    ((exec cfg c a s).1.life r).localFIN = (s.life r).localFIN := by
  have moved := exec_moved cfg c a old
  generalize (exec cfg c a s).1.life r = l at moved ⊢
  cases moved with
  | beside phased _ _ => exact congrArg Phase.localFIN phased
  | closeWrite => exact absurd rfl other
  | _ => rfl

end UmuxFlags
