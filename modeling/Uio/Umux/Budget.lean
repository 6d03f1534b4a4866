import Uio.Umux.Removal
import Uio.Umux.Spine
import Uio.Umux.Wakeful

/-!
The receive budget of a session. What the budget counts is what the stream buffers
hold and what sections still carry to or from them; a turn reads a frame only under
the budget, so one frame at most goes past it; and reading held for the budget is
let go by the release that crosses the low-water mark. A stream's window counts what
its buffer holds until a frame overruns it, and that frame ends the session.
-/
namespace UmuxBudget
open Interleaving UmuxFrame UmuxOutbox UmuxSession UmuxSettings UmuxMachine UmuxLifecycle UmuxTimers
open UmuxTurn UmuxInbound UmuxWindow UmuxFootprint UmuxSuccessors UmuxEdits UmuxBirth UmuxSpine
open UmuxRemoval UmuxSteps UmuxWakeful
open Multiset (mem_coe mem_cons_of_mem mem_cons_self)
open List (cons_append map_append map_cons map_nil mem_cons sum_append sum_cons sum_nil)
variable (cfg : Endpoint) (c : Oracle) {a : Section} {s : Session} (n : Nat)
  {others : Multiset Section} {q : Ref} {r : Ref} {b : Section} (payload : List UInt8)

def fails : Section → Bool
  | .afterFrame | .failTurn _ => true
  | _ => false

/-- A frame overran its stream's window: no other is taken, and the transport is told
    to close. -/
structure Stopped (s : Session) (owing : Multiset Section) : Prop where
  err : s.turnErr = some .windowExceeded
  unread : ∀ b ∈ owing, reads b = false
  closing : s.box.conn.closing.isSome = true ∨ ∃ b ∈ owing, fails b = true

/-- Every open stream's window counts what its buffer holds and `ahead` bytes more. -/
def Counted (ahead : Ref → Nat) (s : Session) : Prop :=
  ∀ r < s.reg.fresh, (s.life r).closedLocal = false →
    (s.inbox.rx r).win.buffered = (s.inbox.rx r).inbuf.length + ahead r

/-- The frame taken last overran its stream's window, which counts it and holds none of it. -/
structure Overran (s : Session) (q : Ref) (f : Frame) : Prop where
  last : s.rcvd.getLast? = some f
  own : f.hdr.streamID = s.reg.idOf q
  old : q < s.reg.fresh
  counted : Counted (Function.update 0 q f.payload.length) s

def Room (cfg : Endpoint) (s : Session) : Prop := s.inbox.pendingBytes ≤ cfg.sessionWindow

/-- What a section of the turn may count on: a frame is read only under the budget. -/
def Place (cfg : Endpoint) (s : Session) : Section → Prop
  | .onRead | .heldReads => Room cfg s ∨ s.inbox.readHeld = true
  | .readFrame => Room cfg s
  | .reserveInbound _ payload _ _ => Room cfg s ∧ payload.length ≤ cfg.windowSize
  | _ => True

def settling : Section → Bool
  | .pushData _ _ _ _ | .afterFrame | .exhaustedBudget | .failTurn _ => true
  | _ => false

structure Bounded (cfg : Endpoint) (s : Session) (owing : Multiset Section) : Prop where
  cap : s.inbox.pendingBytes ≤ cfg.sessionWindow + cfg.windowSize
  hold : s.inbox.readHeld = true → lowWater cfg < s.inbox.pendingBytes
  place : ∀ b ∈ owing, Place cfg s b
  level : Room cfg s ∨ s.inbox.readHeld = true ∨ s.box.conn.closing.isSome = true ∨ s.ended = true ∨
    ∃ b ∈ owing, settling b = true

def fills : Section → Option Ref
  | .read r _ | .discard r _ | .resetStream r _ | .pushData r _ _ _ => some r
  | _ => none

def holding (x : Rx) : List UInt8 × Nat := (x.inbuf, x.win.buffered)

theorem holding_update {f : Ref → Rx} {x : Rx} (same : holding x = holding (f q))
    (r : Ref) : holding (Function.update f q x r) = holding (f r) := by
  by_cases own : r = q
  · subst r
    rw [Function.update_self]
    exact same
  · rw [Function.update_of_ne own]

theorem exec_holding (other : fills a ≠ some r) (old : r < s.reg.fresh) :
    holding ((exec cfg c a s).1.inbox.rx r) = holding (s.inbox.rx r) := by
  by_cases untouched : touches a .rx = false
  · rw [exec_rx cfg c s untouched]
  · cases made : creates a with
    | true => exact congrArg (holding ∘ Object.rx) (creates_old cfg c made old)
    | false =>
      cases a
      case read q n =>
        have apart : r ≠ q := fun same => other (congrArg some same.symm)
        simp only [exec, UmuxInbound.read]
        split
        · rfl
        · simp [Session.setRx, apart]
      case discard q n =>
        have apart : r ≠ q := fun same => other (congrArg some same.symm)
        simp [exec, UmuxInbound.discard, Session.setRx, apart]
      case resetStream q e =>
        have apart : r ≠ q := fun same => other (congrArg some same.symm)
        simp only [exec, resetStream]
        split
        · rfl
        · simp [Session.setRx, Session.setLife, apart]
      case pushData q payload fin next =>
        have apart : r ≠ q := fun same => other (congrArg some same.symm)
        simp only [exec, pushData]
        (repeat' split) <;> simp [peerEnds, Session.setRx, Session.setLife, Session.setWatch, apart]
      case establish q w delta => exact holding_update (by rfl) r
      all_goals first | exact absurd rfl untouched | cases made

def stored (s : Session) : Nat := ∑ r ∈ Finset.range s.reg.fresh, (s.inbox.rx r).inbuf.length

theorem stored_kept {s s' : Session} (grows : s.reg.fresh ≤ s'.reg.fresh)
    (old : ∀ r < s.reg.fresh, (s'.inbox.rx r).inbuf = (s.inbox.rx r).inbuf)
    (new : ∀ r < s'.reg.fresh, s.reg.fresh ≤ r → (s'.inbox.rx r).inbuf = []) :
    stored s' = stored s := by
  have wider : Finset.range s.reg.fresh ⊆ Finset.range s'.reg.fresh := Finset.range_subset_range.mpr grows
  unfold stored
  rw [← Finset.sum_subset wider]
  · apply Finset.sum_congr rfl
    intro r here
    rw [old r (Finset.mem_range.mp here)]
  · intro r here late
    rw [new r (Finset.mem_range.mp here) (Nat.not_lt.mp fun early => late (Finset.mem_range.mpr early))]
    rfl

theorem stored_moved {s s' : Session} (fresh : s'.reg.fresh = s.reg.fresh) (here : r < s.reg.fresh)
    (others : ∀ q, q ≠ r → (s'.inbox.rx q).inbuf = (s.inbox.rx q).inbuf) :
    stored s' + (s.inbox.rx r).inbuf.length = stored s + (s'.inbox.rx r).inbuf.length := by
  have member : r ∈ Finset.range s.reg.fresh := Finset.mem_range.mpr here
  have rest : ∑ q ∈ (Finset.range s.reg.fresh).erase r, (s'.inbox.rx q).inbuf.length =
      ∑ q ∈ (Finset.range s.reg.fresh).erase r, (s.inbox.rx q).inbuf.length := by
    apply Finset.sum_congr rfl
    intro q there
    rw [others q (Finset.ne_of_mem_erase there)]
  have before := Finset.add_sum_erase _ (fun q : Nat => (s.inbox.rx q).inbuf.length) member
  have after := Finset.add_sum_erase _ (fun q : Nat => (s'.inbox.rx q).inbuf.length) member
  unfold stored
  rw [fresh]
  omega

def carried : Section → Nat
  | .pushData _ payload _ _ => payload.length
  | .releaseInbound n => n
  | _ => 0

theorem carried_of_group (spine : group b ≠ .spine) (budget : group b ≠ .budget) :
    carried b = 0 := by
  cases b <;> first | rfl | exact absurd rfl spine | exact absurd rfl budget

theorem readFrame_carried (s : Session) : ((readFrame cfg c s).2.map carried).sum = 0 := by
  have taken := readFrame_taken cfg c s
  generalize readFrame cfg c s = step at taken ⊢
  cases taken with
  | ended => rfl
  | failed e => rfl
  | frame f arrived formed valid handled =>
    cases handled with
    | vetted delta metadata peer free => cases cfg.accept <;> rfl
    | _ => rfl

theorem afterPush_carried (r : Ref) (next : AfterPush) : ((afterPush r next).map carried).sum = 0 := by
  cases next with
  | reset => rfl
  | dispatch => rfl
  | dispatchGrant delta =>
    simp only [afterPush]
    split <;> rfl

theorem grantOf_carried (id grant : Nat) : ((grantOf id grant).map carried).sum = 0 := by
  unfold grantOf
  split <;> rfl

theorem timerRound_carried (s : Session) (now : Nat) :
    ((timerRound cfg c s now).2.map carried).sum = 0 := by
  obtain ⟨ending, plain, pushed⟩ := timerRound_pushes cfg c s now
  have none : (ending.map carried).sum = 0 := by
    rw [List.sum_eq_zero_iff_forall_eq_nat]
    intro n member
    obtain ⟨b, there, rfl⟩ := List.mem_map.mp member
    have one := List.all_eq_true.mp plain b there
    cases b <;> first | rfl | cases one
  have fired : ∀ due : List Ref,
      ((due.flatMap fun r => [Section.invokeTimer r, .tryFinish r]).map carried).sum = 0 := by
    intro due
    induction due with
    | nil => rfl
    | cons r rest ih => simpa [carried] using ih
  rcases pushed with ⟨e, pushed⟩ | ⟨due, pushed⟩
  · simp [pushed, none, carried]
  · simp [pushed, none, fired, carried]

/-- The sections that charge the budget, give back to it, or move bytes for it. -/
def handles : Section → Bool
  | .read _ _ | .discard _ _ | .resetStream _ _ | .pushData _ _ _ _ | .reserveInbound _ _ _ _
  | .releaseInbound _ => true
  | _ => false

theorem carried_pushed (s : Session)
    (other : handles a = false) : ((exec cfg c a s).2.map carried).sum = 0 := by
  by_cases plain : (pushes a).contains .spine = false ∧ (pushes a).contains .budget = false
  · rw [List.sum_eq_zero_iff_forall_eq_nat]
    intro n member
    obtain ⟨b, there, rfl⟩ := List.mem_map.mp member
    have grouped := pushed_group cfg c there
    apply carried_of_group
    · intro spine
      rw [spine, plain.1] at grouped
      cases grouped
    · intro budget
      rw [budget, plain.2] at grouped
      cases grouped
  · cases a
    case readFrame => exact readFrame_carried cfg c s
    case timerRound now => exact timerRound_carried cfg c s now
    case onTransportClose cause =>
      simp only [exec, onTransportClose]
      split
      · rfl
      · have none : ∀ {α : Type} (f : α → Section) (l : List α), (∀ x, carried (f x) = 0) →
            ((l.map f).map carried).sum = 0 := by
          intro α f l off
          induction l with
          | nil => rfl
          | cons x rest ih => rw [map_cons, map_cons, sum_cons, off x, ih]
        rw [map_append, map_append, sum_append, sum_append,
          none _ _ fun _ => rfl, none _ _ fun _ => rfl]
        rfl
    case acceptVet id delta metadata =>
      simp only [exec, acceptVet]
      (repeat' split) <;> rfl
    case heldReads =>
      simp only [exec, heldReads]
      (repeat' split) <;> rfl
    case exhaustedBudget =>
      simp only [exec, exhaustedBudget]
      split <;> rfl
    case afterFrame =>
      simp only [exec, afterFrame]
      split <;> rfl
    all_goals first | exact absurd ⟨rfl, rfl⟩ plain | (cases other; done) | rfl

theorem exec_pending (s : Session) (other : handles a = false) :
    (exec cfg c a s).1.inbox.pendingBytes = s.inbox.pendingBytes := by
  by_cases untouched : touches a .budget = false
  · exact (exec_budget cfg c s untouched).1
  · cases a
    case heldReads =>
      simp only [exec, heldReads]
      (repeat' split) <;> rfl
    case exhaustedBudget =>
      simp only [exec, exhaustedBudget]
      split <;> rfl
    case onTransportClose cause =>
      simp only [exec, onTransportClose]
      split
      · rfl
      · rw [finishDrain_status]
    all_goals first | exact absurd rfl untouched | cases other

theorem exec_stored (s : Session)
    (other : fills a = none) : stored (exec cfg c a s).1 = stored s := by
  apply stored_kept (fresh_grows cfg c a s)
  · intro r old
    have off : fills a ≠ some r := by
      rw [other]
      exact nofun
    exact congrArg Prod.fst (exec_holding cfg c off old)
  · intro r there unborn
    exact (exec_born cfg c unborn there).2.2.inbuf

def Charged (s : Session) (owing : Multiset Section) : Prop :=
  s.inbox.pendingBytes = stored s + weigh carried owing

theorem consume_length (x : Rx) {n : Nat} (covered : n ≤ x.inbuf.length) :
    (Rx.consume x n).1.inbuf.length + n = x.inbuf.length := by
  simp only [Rx.consume, List.length_drop]
  omega

theorem discardLength_le (x : Rx) (n : Int) : discardLength x n ≤ x.inbuf.length := by
  unfold discardLength
  split <;> omega

theorem stored_setRx (here : r < s.reg.fresh) (x : Rx) :
    stored (s.setRx r x) + (s.inbox.rx r).inbuf.length = stored s + x.inbuf.length := by
  have moved : stored (s.setRx r x) + (s.inbox.rx r).inbuf.length =
      stored s + ((s.setRx r x).inbox.rx r).inbuf.length := by
    refine stored_moved ?_ here ?_
    · rfl
    · intro q apart
      simp [Session.setRx, apart]
  simpa [Session.setRx] using moved

/-- A step that leaves the budget alone and moves bytes between the buffers and the
    sections it pushes, with `brought` bytes of its own. -/
def Moves (brought : Nat) (s : Session) (step : Step) : Prop :=
  stored step.1 + (step.2.map carried).sum = stored s + brought ∧
    step.1.inbox.pendingBytes = s.inbox.pendingBytes

theorem finish_carried (done : Bool) (r : Ref) :
    ((if done then [Section.tryFinish r] else []).map carried).sum = 0 := by
  cases done <;> rfl

theorem read_moves (here : r < s.reg.fresh) : Moves 0 s (UmuxInbound.read cfg s r n) := by
  simp only [UmuxInbound.read]
  split
  · exact ⟨rfl, rfl⟩
  · refine ⟨?_, rfl⟩
    have covered : min n (s.inbox.rx r).inbuf.length ≤ (s.inbox.rx r).inbuf.length :=
      Nat.min_le_right _ _
    have left := consume_length (s.inbox.rx r) covered
    have moved := stored_setRx here (Rx.consume (s.inbox.rx r) (min n (s.inbox.rx r).inbuf.length)).1
    have observed : ((if cfg.observer then [Section.callback none] else []).map carried).sum = 0 := by
      split <;> rfl
    simp only [cons_append, map_append, map_cons, sum_append, sum_cons,
      observed, finish_carried, grantOf_carried, carried]
    omega

theorem discard_moves (n : Int) (here : r < s.reg.fresh) :
    Moves 0 s (UmuxInbound.discard s r n) := by
  refine ⟨?_, rfl⟩
  have left := consume_length (s.inbox.rx r) (discardLength_le (s.inbox.rx r) n)
  have moved := stored_setRx here (Rx.consume (s.inbox.rx r) (discardLength (s.inbox.rx r) n)).1
  simp only [UmuxInbound.discard, cons_append, map_append, map_cons, sum_append,
    sum_cons, finish_carried, grantOf_carried, carried]
  omega

theorem resetStream_moves (e : Cause) (here : r < s.reg.fresh) : Moves 0 s (resetStream s r e) := by
  simp only [resetStream]
  split
  · exact ⟨rfl, rfl⟩
  · exact ⟨stored_setRx here { s.inbox.rx r with inbuf := [] }, rfl⟩

theorem stored_filled (here : r < s.reg.fresh) (payload : List UInt8) :
    stored (filled s r payload) = stored s + payload.length := by
  unfold filled
  split
  · omega
  · have moved := stored_setRx here
      ⟨(s.inbox.rx r).inbuf ++ payload, ((s.inbox.rx r).win.onData payload.length).1⟩
    simp only [List.length_append] at moved
    omega

theorem filled_pending (s : Session) (r : Ref) (payload : List UInt8) :
    (filled s r payload).inbox.pendingBytes = s.inbox.pendingBytes := by
  unfold filled
  split <;> rfl

theorem pushData_moves (fin : Bool) (next : AfterPush)
    (here : r < s.reg.fresh) : Moves payload.length s (pushData s r payload fin next) := by
  have after := afterPush_carried r next
  have took := stored_filled here payload
  have pushed := pushData_pushed s r payload fin next
  generalize pushData s r payload fin next = step at pushed ⊢
  cases pushed with
  | late closed =>
    refine ⟨?_, rfl⟩
    simp only [cons_append, map_append, map_cons, sum_append, sum_cons,
      after, carried, map_nil, sum_nil]
    omega
  | overrun running brought past =>
    refine ⟨?_, rfl⟩
    have moved := stored_setRx here
      { s.inbox.rx r with win := ((s.inbox.rx r).win.onData payload.length).1 }
    simp only [map_cons, sum_cons, carried, map_nil, sum_nil]
    exact congrArg (· + payload.length) (Nat.add_right_cancel moved)
  | taken running fits =>
    refine ⟨?_, filled_pending s r payload⟩
    simp only [map_append, map_cons, sum_append, sum_cons, after, carried,
      map_nil, sum_nil]
    omega
  | ended running fits first =>
    refine ⟨?_, filled_pending s r payload⟩
    have ends : stored (peerEnds r (filled s r payload)) = stored (filled s r payload) := rfl
    have armed : ((if (s.life r).localFIN then [] else [Section.rearmTimer]).map carried).sum = 0 := by
      split <;> rfl
    simp only [map_append, map_cons, sum_append, sum_cons, after, armed,
      carried, map_nil, sum_nil]
    omega

theorem releaseInbound_left (s : Session) (n : Nat) :
    (releaseInbound cfg s n).1.inbox.pendingBytes = s.inbox.pendingBytes - n ∧
      ((releaseInbound cfg s n).2.map carried).sum = 0 := by
  simp only [releaseInbound]
  split <;> exact ⟨rfl, rfl⟩

theorem charged_exec (a : Section) (ready : ready a s = true) (removed : Removed s (a ::ₘ others))
    (held : Charged s (a ::ₘ others)) :
    Charged (exec cfg c a s).1 (↑(exec cfg c a s).2 + others) := by
  have fit := removed.fit a (mem_cons_self a others)
  unfold Charged at held ⊢
  rw [weigh_cons] at held
  rw [weigh_add, weigh_coe]
  by_cases other : handles a = false
  · have none : carried a = 0 := by
      cases a <;> first | rfl | cases other
    have outside : fills a = Option.none := by
      cases a <;> first | rfl | cases other
    rw [exec_pending cfg c s other, exec_stored cfg c s outside, carried_pushed cfg c s other]
    omega
  · have moves : ∀ brought, carried a = brought → Moves brought s (exec cfg c a s) →
        (exec cfg c a s).1.inbox.pendingBytes = stored (exec cfg c a s).1 +
          (((exec cfg c a s).2.map carried).sum + weigh carried others) := by
      intro brought own moved
      obtain ⟨balance, same⟩ := moved
      omega
    cases a
    case read r n =>
      have here : r < s.reg.fresh := by simpa [subject] using (Bool.and_eq_true_iff.mp ready).1
      exact moves 0 rfl (read_moves cfg n here)
    case discard r n =>
      have here : r < s.reg.fresh := by simpa [subject] using (Bool.and_eq_true_iff.mp ready).1
      exact moves 0 rfl (discard_moves n here)
    case resetStream r e => exact moves 0 rfl (resetStream_moves e (fit_old fit rfl))
    case pushData r payload fin next =>
      exact moves _ rfl (pushData_moves payload fin next (fit_old fit rfl))
    case reserveInbound r payload fin next =>
      rw [exec_stored cfg c s rfl]
      simp only [exec, reserveInbound, sum_map_cons, sum_map_nil, carried]
      simp only [carried] at held
      omega
    case releaseInbound n =>
      obtain ⟨left, none⟩ := releaseInbound_left cfg s n
      simp only [carried] at held
      rw [exec_stored cfg c s rfl]
      simp only [exec, left, none]
      omega
    all_goals exact absurd rfl other

theorem charged_run {cfg : Endpoint} {now : Nat} {ok : Oracle → Section → Session → Prop}
    {p : Pool Session Section} (run : Run (program cfg) ok (newSession cfg now) p) :
    Charged p.state (owed p) := by
  refine owed_invariant_given Removed Charged (fun _ before => removed_run before) ?_ ?_ ?_ run
  · rfl
  · intro s others a entry held
    have none : carried a = 0 := by
      cases a <;> first | rfl | cases entry
    unfold Charged
    rw [weigh_cons, none, Nat.zero_add]
    exact held
  · intro s others a c ready _ removed held
    exact charged_exec cfg c a ready removed held

theorem exec_turnErr (s : Session) (other : reads a = false) :
    (exec cfg c a s).1.turnErr = s.turnErr := by
  by_cases untouched : touches a .turn = false
  · exact (exec_turn cfg c s untouched).2.2
  · cases a <;> first | rfl | exact absurd rfl untouched | cases other

theorem closing_of_stopped {owing : Multiset Section} (token : Token s owing)
    (stopped : Stopped s owing) (idle : s.busy = false) : s.box.conn.closing.isSome = true := by
  rcases stopped.closing with closing | ⟨b, member, fail⟩
  · exact closing
  · have plain := token_idle token idle b member
    cases b <;> first | (cases fail; done) | cases plain

/-- A turn that reads begins with the session idle and its transport open. -/
theorem turnRead_ready (ready : ready .turnRead s = true) :
    (s.busy = false ∧ s.ended = false) ∧ s.box.conn.closing.isSome = false := by
  have open_ := (Bool.and_eq_true_iff.mp (Bool.and_eq_true_iff.mp ready).2).2
  rw [Option.isNone_iff_eq_none] at open_
  exact ⟨idle_of_ready (by rfl) (by nofun) ready, by rw [open_]; rfl⟩

theorem stopped_exec (a : Section) (ready : ready a s = true) (token : Token s (a ::ₘ others))
    (listed : Listed s.reg) (held : Stopped s (a ::ₘ others)) :
    Stopped (exec cfg c a s).1 (↑(exec cfg c a s).2 + others) := by
  have unread := held.unread a (mem_cons_self a others)
  have begins : a ≠ .turnRead := by
    rintro rfl
    obtain ⟨idle, opened⟩ := turnRead_ready ready
    exact absurd (closing_of_stopped token held idle.1) (by rw [opened]; exact Bool.false_ne_true)
  refine ⟨?_, ?_, ?_⟩
  · rw [exec_turnErr cfg c s unread]
    exact held.err
  · refine forall_pushed (fun b pushed => ?_) fun b other => held.unread b (mem_cons_of_mem other)
    cases reading : reads b with
    | false => rfl
    | true =>
      have next := next_of_reads cfg c pushed reading
      cases a
      case turnRead => exact absurd rfl begins
      case afterFrame =>
        simp only [exec, afterFrame, held.err, List.mem_singleton] at pushed
        rw [pushed] at reading
        cases reading
      case turnClose cause => cases b <;> first | (cases next; done) | cases reading
      all_goals first | (cases unread; done) | cases next
  · rcases held.closing with closing | ⟨b, member, fail⟩
    · exact .inl (closing_exec cfg c a listed closing)
    · rcases Multiset.mem_cons.mp member with rfl | other
      · cases b
        case afterFrame =>
          right
          refine ⟨.failTurn .windowExceeded, Multiset.mem_add.mpr (.inl ?_), rfl⟩
          simp [exec, afterFrame, held.err]
        case failTurn e => exact .inl rfl
        all_goals cases fail
      · exact .inr ⟨b, Multiset.mem_add.mpr (.inr other), fail⟩

theorem consume_counted {x : Rx} {n k : Nat} (counted : x.win.buffered = x.inbuf.length + k)
    (covered : n ≤ x.inbuf.length) :
    (Rx.consume x n).1.win.buffered = (Rx.consume x n).1.inbuf.length + k := by
  have balance := (consume_balance (w := x.win) (n := n) (by omega)).1
  simp only [Rx.consume, List.length_drop]
  omega

theorem counted_update {f : Ref → Rx} {x : Rx} {k : Nat}
    (own : r = q → x.win.buffered = x.inbuf.length + k)
    (other : r ≠ q → (f r).win.buffered = (f r).inbuf.length + k) :
    (Function.update f q x r).win.buffered = (Function.update f q x r).inbuf.length + k := by
  by_cases same : r = q
  · subst r
    rw [Function.update_self]
    exact own rfl
  · rw [Function.update_of_ne same]
    exact other same

theorem filled_counted {k : Nat}
    (counted : (s.inbox.rx r).win.buffered = (s.inbox.rx r).inbuf.length + k) :
    ((filled s q payload).inbox.rx r).win.buffered =
      ((filled s q payload).inbox.rx r).inbuf.length + k := by
  unfold filled
  split
  · exact counted
  · apply counted_update
    · rintro rfl
      simp only [RecvWindow.onData, counted, List.length_append]
      omega
    · exact fun _ => counted

theorem counted_read {k : Nat}
    (counted : (s.inbox.rx r).win.buffered = (s.inbox.rx r).inbuf.length + k) :
    ((UmuxInbound.read cfg s r n).1.inbox.rx r).win.buffered =
      ((UmuxInbound.read cfg s r n).1.inbox.rx r).inbuf.length + k := by
  simp only [UmuxInbound.read]
  split
  · exact counted
  · apply counted_update
    · exact fun _ => consume_counted counted (Nat.min_le_right _ _)
    · exact fun apart => absurd rfl apart

theorem counted_discard {k : Nat} (n : Int)
    (counted : (s.inbox.rx r).win.buffered = (s.inbox.rx r).inbuf.length + k) :
    ((UmuxInbound.discard s r n).1.inbox.rx r).win.buffered =
      ((UmuxInbound.discard s r n).1.inbox.rx r).inbuf.length + k := by
  apply counted_update
  · exact fun _ => consume_counted counted (discardLength_le _ n)
  · exact fun apart => absurd rfl apart

theorem resetStream_closed (s : Session) (r : Ref) (e : Cause) :
    ((resetStream s r e).1.life r).closedLocal = true := by
  simp only [resetStream]
  split
  · assumption
  · simp [Session.setLife, Session.setRx]

variable {ahead : Ref → Nat}

theorem counted_exec (unborn : ∀ r, s.reg.fresh ≤ r → ahead r = 0)
    (other : ∀ r payload fin next, a ≠ .pushData r payload fin next) (held : Counted ahead s) :
    Counted ahead (exec cfg c a s).1 := by
  intro r there running
  by_cases old : r < s.reg.fresh
  · have before : (s.life r).closedLocal = false := by
      by_contra closed
      rw [closed_exec cfg c a old (by simpa using closed)] at running
      cases running
    have counted := held r old before
    by_cases own : fills a = some r
    · cases a
      case read q n =>
        cases own
        exact counted_read cfg n counted
      case discard q n =>
        cases own
        exact counted_discard n counted
      case resetStream q e =>
        cases own
        simp only [exec, resetStream_closed] at running
        cases running
      case pushData q payload fin next => exact absurd rfl (other q payload fin next)
      all_goals cases own
    · have same := exec_holding cfg c own old
      have inbuf : ((exec cfg c a s).1.inbox.rx r).inbuf = (s.inbox.rx r).inbuf := congrArg Prod.fst same
      have window : ((exec cfg c a s).1.inbox.rx r).win.buffered = (s.inbox.rx r).win.buffered :=
        congrArg Prod.snd same
      rw [inbuf, window]
      exact counted
  · obtain ⟨-, -, blank⟩ := exec_born cfg c (Nat.not_lt.mp old) there
    have inbuf : ((exec cfg c a s).1.inbox.rx r).inbuf = [] := blank.inbuf
    have window : ((exec cfg c a s).1.inbox.rx r).win.buffered = 0 := blank.buffered
    rw [inbuf, window, unborn r (Nat.not_lt.mp old)]
    rfl

theorem exec_rcvd (s : Session) (other : a ≠ .readFrame) : (exec cfg c a s).1.rcvd = s.rcvd := by
  have kept := congrArg Session.rcvd (exec_restore cfg c a s)
  have off : touches a .rcvd = false := by
    cases a <;> first | rfl | exact absurd rfl other
  simpa only [restore, off, cond_false] using kept

theorem exec_idOf (listed : Listed s.reg) (old : r < s.reg.fresh) :
    (exec cfg c a s).1.reg.idOf r = s.reg.idOf r := by
  by_cases edits : queues a = false
  · refine (Edits.preserve (I := fun o => r < o.reg.fresh ∧ o.reg.idOf r = s.reg.idOf r) ?_
      (exec_edits cfg c listed edits) ⟨old, rfl⟩).2
    intro o o' edit held
    cases edit
    case created id openWait nextID waits =>
      exact ⟨Nat.lt_succ_of_lt held.1,
        (Function.update_of_ne (Nat.ne_of_lt held.1) _ _).trans held.2⟩
    all_goals exact held
  · have made : creates a = false := by
      cases a <;> first | rfl | exact absurd rfl edits
    rw [(exec_names cfg c made).2.1]

/-- Data on its way to a stream came with the frame taken last. -/
def Brought (s : Session) : Section → Prop
  | .reserveInbound r payload _ _ | .pushData r payload _ _ => payload ≠ [] →
    ∃ f, s.rcvd.getLast? = some f ∧ f.hdr.streamID = s.reg.idOf r ∧ f.payload = payload
  | _ => True

theorem brought_same {s s' : Session} (rcvd : s'.rcvd = s.rcvd)
    (named : ∀ r, named b = some r → s'.reg.idOf r = s.reg.idOf r) (held : Brought s b) :
    Brought s' b := by
  cases b
  case reserveInbound r payload fin next | pushData r payload fin next =>
    simpa only [Brought, rcvd, named r rfl] using held
  all_goals trivial

theorem readFrame_brought (listed : Listed s.reg) :
    ∀ b ∈ (readFrame cfg c s).2, Brought (readFrame cfg c s).1 b := by
  have taken := readFrame_taken cfg c s
  generalize readFrame cfg c s = step at taken ⊢
  cases taken with
  | ended => simp [Brought]
  | failed e => simp [Brought]
  | frame f arrived formed valid handled =>
    cases handled with
    | charged r next data here filled =>
      simp only [List.mem_singleton, forall_eq]
      intro brought
      exact ⟨f, List.getLast?_concat, (listed.streams _ _ here).2.symm, rfl⟩
    | vetted delta metadata peer free => cases cfg.accept <;> simp [Brought]
    | _ => simp only [List.forall_mem_cons, List.not_mem_nil, false_implies, implies_true, Brought,
        ne_eq, not_true_eq_false, and_self]

theorem brought_exec (token : Token s (a ::ₘ others)) (removed : Removed s (a ::ₘ others))
    (held : ∀ b ∈ a ::ₘ others, Brought s b) :
    ∀ b ∈ (↑(exec cfg c a s).2 + others : Multiset Section), Brought (exec cfg c a s).1 b := by
  intro b member
  cases reading : reads b with
  | false => cases b <;> trivial
  | true =>
    rcases Multiset.mem_add.mp member with pushed | other
    · have next := next_of_reads cfg c (mem_coe.mp pushed) reading
      cases a
      case readFrame => exact readFrame_brought cfg c removed.listed b (mem_coe.mp pushed)
      case reserveInbound r payload fin after =>
        obtain rfl : b = .pushData r payload fin after := List.mem_singleton.mp (mem_coe.mp pushed)
        exact held _ (mem_cons_self _ others)
      all_goals first | cases next | (cases b <;> trivial)
    · refine brought_same (exec_rcvd cfg c s ?_) (fun r about => ?_) (held b (mem_cons_of_mem other))
      · rintro rfl
        rw [unread_of_plain ((token_alone (by rfl) token).2 b other)] at reading
        cases reading
      · exact exec_idOf cfg c removed.listed (fit_old (removed.fit b (mem_cons_of_mem other)) about)

theorem overran_exec {f : Frame} (listed : Listed s.reg) (unread : reads a = false)
    (held : Overran s q f) : Overran (exec cfg c a s).1 q f := by
  refine ⟨?_, ?_, Nat.lt_of_lt_of_le held.old (fresh_grows cfg c a s), counted_exec cfg c ?_ ?_ held.counted⟩
  · rw [exec_rcvd cfg c s (by rintro rfl; cases unread)]
    exact held.last
  · rw [exec_idOf cfg c listed held.old]
    exact held.own
  · intro r unborn
    exact Function.update_of_ne (Nat.ne_of_gt (Nat.lt_of_lt_of_le held.old unborn)) _ _
  · rintro r payload fin next rfl
    cases unread

theorem counted_push {payload : List UInt8} {fin : Bool} {next : AfterPush}
    (token : Token s (.pushData q payload fin next ::ₘ others)) (old : q < s.reg.fresh)
    (came : Brought s (.pushData q payload fin next)) (held : Counted 0 s) :
    Stopped (exec cfg c (.pushData q payload fin next) s).1
        (↑(exec cfg c (.pushData q payload fin next) s).2 + others) ∧
      (∃ f, Overran (exec cfg c (.pushData q payload fin next) s).1 q f) ∨
      Counted 0 (exec cfg c (.pushData q payload fin next) s).1 := by
  have alone := (token_alone (by rfl) token).2
  have fresh : (filled s q payload).reg.fresh = s.reg.fresh := by
    unfold filled
    split <;> rfl
  have life : (filled s q payload).life = s.life := by
    unfold filled
    split <;> rfl
  have pushed := pushData_pushed s q payload fin next
  simp only [exec]
  generalize pushData s q payload fin next = step at pushed ⊢
  cases pushed with
  | late closed => exact .inr held
  | overrun running brought past =>
    obtain ⟨f, last, own, carries⟩ := came brought
    left
    refine ⟨⟨rfl, ?_, .inr ⟨.afterFrame, by simp, rfl⟩⟩, f, last, own, old, ?_⟩
    · exact forall_pushed (by simp [reads]) fun b other => unread_of_plain (alone b other)
    · intro r there running
      have before := held r there running
      simp only [Pi.zero_apply, Nat.add_zero] at before
      apply counted_update
      · rintro rfl
        simp only [RecvWindow.onData, Function.update_self, before, carries]
      · intro apart
        rw [Function.update_of_ne apart]
        exact before
  | taken running fits =>
    right
    intro r there running
    rw [fresh] at there
    rw [life] at running
    exact filled_counted payload (held r there running)
  | ended running fits first =>
    right
    intro r there open_
    have same : ((peerEnds q (filled s q payload)).life r).closedLocal =
        ((filled s q payload).life r).closedLocal :=
      UmuxFlags.update_view Life.closedLocal (by rfl) r
    rw [same, life] at open_
    exact filled_counted payload (held r (by rw [← fresh]; exact there) open_)

theorem brought_run {cfg : Endpoint} {now : Nat} {ok : Oracle → Section → Session → Prop}
    {p : Pool Session Section} (run : Run (program cfg) ok (newSession cfg now) p) :
    ∀ b ∈ owed p, Brought p.state b := by
  refine owed_invariant_given (fun s owing => Token s owing ∧ Removed s owing)
    (fun s owing => ∀ b ∈ owing, Brought s b)
    (fun _ before => ⟨token_run before, removed_run before⟩) ?_ ?_ ?_ run
  · simp [owed, newSession, Brought]
  · intro s others a entry held
    refine Multiset.forall_mem_cons.mpr ⟨?_, held⟩
    cases a <;> trivial
  · rintro s others a c - - ⟨token, removed⟩ held
    exact brought_exec cfg c token removed held

theorem windows_run {cfg : Endpoint} {now : Nat} {ok : Oracle → Section → Session → Prop}
    {p : Pool Session Section} (run : Run (program cfg) ok (newSession cfg now) p) :
    Stopped p.state (owed p) ∧ (∃ q f, Overran p.state q f) ∨ Counted 0 p.state := by
  refine owed_invariant_given
    (fun s owing => Token s owing ∧ Removed s owing ∧ ∀ b ∈ owing, Brought s b)
    (fun s owing => Stopped s owing ∧ (∃ q f, Overran s q f) ∨ Counted 0 s)
    (fun _ before => ⟨token_run before, removed_run before, brought_run before⟩) ?_ ?_ ?_ run
  · exact .inr fun r there => absurd there (Nat.not_lt_zero r)
  · rintro s others a entry (⟨stopped, overran⟩ | counted)
    · left
      have unread : reads a = false := by
        cases a <;> first | rfl | cases entry
      refine ⟨⟨stopped.err, Multiset.forall_mem_cons.mpr ⟨unread, stopped.unread⟩,
        stopped.closing.imp_right ?_⟩, overran⟩
      exact fun ⟨b, member, fail⟩ => ⟨b, mem_cons_of_mem member, fail⟩
    · exact .inr counted
  · rintro s others a c ready - ⟨token, removed, came⟩ (⟨stopped, q, f, overran⟩ | counted)
    · exact .inl ⟨stopped_exec cfg c a ready token removed.listed stopped, q, f,
        overran_exec cfg c removed.listed (stopped.unread a (mem_cons_self a others)) overran⟩
    · by_cases push : ∃ q payload fin next, a = .pushData q payload fin next
      · obtain ⟨q, payload, fin, next, rfl⟩ := push
        have here := mem_cons_self (Section.pushData q payload fin next) others
        exact (counted_push cfg c token (fit_old (removed.fit _ here) rfl) (came _ here) counted).imp_left
          fun ⟨stopped, overran⟩ => ⟨stopped, q, overran⟩
      · right
        apply counted_exec cfg c (fun _ _ => rfl) ?_ counted
        rintro q payload fin next rfl
        exact push ⟨q, payload, fin, next, rfl⟩

theorem lowWater_le : lowWater cfg ≤ cfg.sessionWindow := by
  unfold lowWater
  split <;> omega

theorem place_unread (s : Session) (off : reads b = false) : Place cfg s b := by
  cases b <;> trivial

theorem place_same {cfg : Endpoint} {s s' : Session} (place : Place cfg s b)
    (bytes : s'.inbox.pendingBytes = s.inbox.pendingBytes)
    (held : s'.inbox.readHeld = s.inbox.readHeld) : Place cfg s' b := by
  unfold Place Room at place ⊢
  rw [bytes, held]
  exact place

theorem place_release (place : Place cfg s b) : Place cfg (releaseInbound cfg s n).1 b := by
  have low := lowWater_le cfg
  have room : Room cfg s → Room cfg (releaseInbound cfg s n).1 := by
    intro room
    unfold Room at room ⊢
    rw [(releaseInbound_left cfg s n).1]
    omega
  have held : s.inbox.readHeld = true → Room cfg (releaseInbound cfg s n).1 ∨
      (releaseInbound cfg s n).1.inbox.readHeld = true := by
    intro held
    simp only [releaseInbound]
    split
    · rename_i crossed
      exact .inl (Nat.le_trans crossed.2 low)
    · exact .inr held
  cases b
  case onRead | heldReads => exact place.elim (fun r => .inl (room r)) held
  case readFrame => exact room place
  case reserveInbound r payload fin next => exact ⟨room place.1, place.2⟩
  all_goals trivial

theorem readFrame_place (room : Room cfg s) :
    ∀ b ∈ (readFrame cfg c s).2, Place cfg (readFrame cfg c s).1 b := by
  have taken := readFrame_taken cfg c s
  generalize readFrame cfg c s = step at taken ⊢
  cases taken with
  | ended => simp [Place]
  | failed e => simp [Place]
  | frame f arrived formed valid handled =>
    cases handled with
    | charged r next data here filled =>
      have short : f.payload.length ≤ cfg.windowSize := by
        have length : f.payload.length = f.hdr.length := by
          simp only [wellFormed, carries, data, Bool.and_eq_true, decide_eq_true_eq] at formed
          exact formed.1.1
        have bound : f.hdr.length ≤ wrap32 cfg.windowSize := by
          by_contra long
          simp [validateFrame, data, Nat.not_le.mp long] at valid
        have wrapped : wrap32 cfg.windowSize ≤ cfg.windowSize := Nat.mod_le _ _
        omega
      simp only [List.mem_singleton, forall_eq]
      exact ⟨room, short⟩
    | vetted delta metadata peer free => cases cfg.accept <;> simp [Place]
    | _ => simp [Place]

theorem place_pushed (ready : ready a s = true) (token : Token s (a ::ₘ others))
    (untouched : touches a .budget = false) (held : Bounded cfg s (a ::ₘ others)) :
    ∀ b ∈ (exec cfg c a s).2, Place cfg (exec cfg c a s).1 b := by
  intro b member
  have own := held.place a (mem_cons_self a others)
  cases reading : reads b with
  | false => exact place_unread cfg _ reading
  | true =>
    have next := next_of_reads cfg c member reading
    cases a
    case turnRead =>
      obtain ⟨idle, opened⟩ := turnRead_ready ready
      cases b
      case onRead =>
        rcases held.level with room | held | closing | ended | ⟨b, owing, settles⟩
        · exact .inl room
        · exact .inr held
        · rw [opened] at closing
          cases closing
        · rw [idle.2] at ended
          cases ended
        · have plain := token_idle token idle.1 b owing
          cases b <;> first | (cases settles; done) | cases plain
      all_goals cases next
    case onRead =>
      cases b
      case heldReads => exact own
      all_goals cases next
    case readFrame => exact readFrame_place cfg c own b member
    case reserveInbound r payload fin after | heldReads | exhaustedBudget => cases untouched
    case afterFrame =>
      cases b
      case exhaustedBudget => trivial
      all_goals cases next
    case turnClose cause => cases b <;> first | (cases next; done) | cases reading
    all_goals cases next

theorem level_settling (settles : settling a = true) (untouched : touches a .budget = false) :
    (exec cfg c a s).1.box.conn.closing.isSome = true ∨ ∃ b ∈ (exec cfg c a s).2, settling b = true := by
  cases a
  case pushData r payload fin next =>
    right
    refine ⟨.afterFrame, ?_, rfl⟩
    have pushed := pushData_pushed s r payload fin next
    simp only [exec]
    generalize pushData s r payload fin next = step at pushed ⊢
    cases pushed <;> simp
  case afterFrame =>
    right
    simp only [exec, afterFrame]
    split
    · exact ⟨_, List.mem_singleton_self _, rfl⟩
    · exact ⟨_, List.mem_singleton_self _, rfl⟩
  case failTurn e => exact .inl rfl
  case exhaustedBudget => cases untouched
  all_goals cases settles

theorem bounded_plain (ready : ready a s = true) (token : Token s (a ::ₘ others))
    (listed : Listed s.reg) (untouched : touches a .budget = false)
    (held : Bounded cfg s (a ::ₘ others)) :
    Bounded cfg (exec cfg c a s).1 (↑(exec cfg c a s).2 + others) := by
  obtain ⟨bytes, hold⟩ := exec_budget cfg c s untouched
  refine ⟨?_, ?_, ?_, ?_⟩
  · rw [bytes]
    exact held.cap
  · rw [bytes, hold]
    exact held.hold
  · exact forall_pushed (place_pushed cfg c ready token untouched held) fun b other =>
      place_same (held.place b (mem_cons_of_mem other)) bytes hold
  · unfold Room
    rw [bytes, hold]
    rcases held.level with room | held | closing | ended | ⟨b, owing, settles⟩
    · exact .inl room
    · exact .inr (.inl held)
    · exact .inr (.inr (.inl (closing_exec cfg c a listed closing)))
    · exact .inr (.inr (.inr (.inl (ended_exec cfg c a ended))))
    · rcases Multiset.mem_cons.mp owing with rfl | other
      · rcases level_settling cfg c settles untouched (s := s) with closing | ⟨b, pushed, settles⟩
        · exact .inr (.inr (.inl closing))
        · exact .inr (.inr (.inr (.inr ⟨b, Multiset.mem_add.mpr (.inl pushed), settles⟩)))
      · exact .inr (.inr (.inr (.inr ⟨b, Multiset.mem_add.mpr (.inr other), settles⟩)))

theorem bounded_release {n : Nat} (held : Bounded cfg s (.releaseInbound n ::ₘ others)) :
    Bounded cfg (exec cfg c (.releaseInbound n) s).1
      (↑(exec cfg c (.releaseInbound n) s).2 + others) := by
  have left := (releaseInbound_left cfg s n).1
  have low := lowWater_le cfg
  have cap := held.cap
  have hold := held.hold
  refine ⟨?_, ?_, ?_, ?_⟩
  · simp only [exec, left]
    omega
  · simp only [exec, releaseInbound]
    split
    · simp
    · rename_i above
      intro still
      simp only at still ⊢
      by_contra crossed
      exact above ⟨still, by omega⟩
  · refine forall_pushed (fun b pushed => place_unread cfg _ ?_) fun b other =>
      place_release cfg n (held.place b (mem_cons_of_mem other))
    cases reading : reads b with
    | false => rfl
    | true => cases next_of_reads cfg c pushed reading
  · simp only [exec, releaseInbound]
    split
    · rename_i crossed
      exact .inl (Nat.le_trans crossed.2 low)
    · refine held.level.imp (Nat.le_trans (Nat.sub_le _ _))
        (Or.imp_right (Or.imp_right (Or.imp_right ?_)))
      rintro ⟨b, owing, settles⟩
      rcases Multiset.mem_cons.mp owing with rfl | other
      · cases settles
      · exact ⟨b, Multiset.mem_add.mpr (.inr other), settles⟩

theorem place_beside {s s' : Session}
    (spine : isSpine a = true) (token : Token s (a ::ₘ others)) (other : b ∈ others) :
    Place cfg s' b := by
  exact place_unread cfg _ (unread_of_plain ((token_alone spine token).2 b other))

theorem places_spine {s s' : Session} {more : List Section} (spine : isSpine a = true)
    (token : Token s (a ::ₘ others)) (mine : ∀ b ∈ more, Place cfg s' b) :
    ∀ b ∈ (↑more + others : Multiset Section), Place cfg s' b :=
  forall_pushed mine fun _ other => place_beside cfg spine token other

theorem bounded_heldReads
    (token : Token s (.heldReads ::ₘ others)) (held : Bounded cfg s (.heldReads ::ₘ others)) :
    Bounded cfg (exec cfg c .heldReads s).1 (↑(exec cfg c .heldReads s).2 + others) := by
  have own : Room cfg s ∨ s.inbox.readHeld = true :=
    held.place .heldReads (mem_cons_self _ others)
  have low := lowWater_le cfg
  simp only [exec, heldReads]
  split
  · rename_i free
    have room : Room cfg s := own.resolve_right (by rw [free]; exact Bool.false_ne_true)
    refine ⟨held.cap, held.hold, places_spine cfg (by rfl) token ?_, .inl room⟩
    simpa [Place] using room
  · split
    · rename_i crossed
      have room : s.inbox.pendingBytes ≤ cfg.sessionWindow := Nat.le_trans crossed low
      refine ⟨held.cap, (by simp), places_spine cfg (by rfl) token ?_, .inl room⟩
      simpa [Place, Room] using room
    · rename_i still above
      refine ⟨held.cap, held.hold, places_spine cfg (by rfl) token ?_, .inr (.inl ?_)⟩
      · simp [Place]
      · simpa using still

theorem bounded_exhausted (token : Token s (.exhaustedBudget ::ₘ others))
    (held : Bounded cfg s (.exhaustedBudget ::ₘ others)) :
    Bounded cfg (exec cfg c .exhaustedBudget s).1 (↑(exec cfg c .exhaustedBudget s).2 + others) := by
  have low := lowWater_le cfg
  simp only [exec, exhaustedBudget]
  split
  · rename_i room
    refine ⟨held.cap, held.hold, places_spine cfg (by rfl) token ?_, .inl room⟩
    simpa [Place, Room] using room
  · rename_i past
    refine ⟨held.cap, fun _ => Nat.lt_of_le_of_lt low (Nat.not_le.mp past),
      places_spine cfg (by rfl) token ?_, .inr (.inl rfl)⟩
    simp [Place]

theorem bounded_reserve {payload : List UInt8} {fin : Bool} {next : AfterPush}
    (token : Token s (.reserveInbound r payload fin next ::ₘ others))
    (held : Bounded cfg s (.reserveInbound r payload fin next ::ₘ others)) :
    Bounded cfg (exec cfg c (.reserveInbound r payload fin next) s).1
      (↑(exec cfg c (.reserveInbound r payload fin next) s).2 + others) := by
  obtain ⟨room, short⟩ : Room cfg s ∧ payload.length ≤ cfg.windowSize :=
    held.place _ (mem_cons_self _ others)
  unfold Room at room
  refine ⟨?_, ?_, ?_, ?_⟩
  · simp only [exec, reserveInbound]
    omega
  · intro still
    have above := held.hold still
    simp only [exec, reserveInbound]
    omega
  · exact places_spine cfg (by rfl) token (by simp [exec, reserveInbound, Place])
  · right; right; right; right
    exact ⟨_, Multiset.mem_add.mpr (.inl (List.mem_singleton_self _)), rfl⟩

theorem bounded_close
    {cause : Cause} (token : Token s (.onTransportClose cause ::ₘ others)) (ended : s.ended = true)
    (held : Bounded cfg s (.onTransportClose cause ::ₘ others)) :
    Bounded cfg (exec cfg c (.onTransportClose cause) s).1
      (↑(exec cfg c (.onTransportClose cause) s).2 + others) := by
  have bytes : (exec cfg c (.onTransportClose cause) s).1.inbox.pendingBytes = s.inbox.pendingBytes :=
    exec_pending cfg c s rfl
  have hold : (exec cfg c (.onTransportClose cause) s).1.inbox.readHeld = true →
      s.inbox.readHeld = true := by
    simp only [exec, onTransportClose]
    split
    · exact id
    · simp
  refine ⟨?_, ?_, ?_, ?_⟩
  · rw [bytes]
    exact held.cap
  · intro still
    rw [bytes]
    exact held.hold (hold still)
  · refine places_spine cfg (by rfl) token (fun b pushed => place_unread cfg _ ?_)
    cases reading : reads b with
    | false => rfl
    | true => cases next_of_reads cfg c pushed reading
  · right; right; right; left
    exact ended_exec cfg c _ ended

theorem bounded_exec (a : Section) (ready : ready a s = true) (token : Token s (a ::ₘ others))
    (listed : Listed s.reg) (last : Last s (a ::ₘ others)) (held : Bounded cfg s (a ::ₘ others)) :
    Bounded cfg (exec cfg c a s).1 (↑(exec cfg c a s).2 + others) := by
  by_cases untouched : touches a .budget = false
  · exact bounded_plain cfg c ready token listed untouched held
  · cases a
    case releaseInbound n => exact bounded_release cfg c held
    case heldReads => exact bounded_heldReads cfg c token held
    case exhaustedBudget => exact bounded_exhausted cfg c token held
    case reserveInbound r payload fin next => exact bounded_reserve cfg c token held
    case onTransportClose cause =>
      exact bounded_close cfg c token (last cause (mem_cons_self _ others)) held
    all_goals exact absurd rfl untouched

theorem bounded_run {cfg : Endpoint} {now : Nat} {ok : Oracle → Section → Session → Prop}
    {p : Pool Session Section} (run : Run (program cfg) ok (newSession cfg now) p) :
    Bounded cfg p.state (owed p) := by
  refine owed_invariant_given (fun s owing => Token s owing ∧ Listed s.reg ∧ Last s owing)
    (Bounded cfg)
    (fun _ before => ⟨token_run before, (removed_run before).listed, last_run before⟩) ?_ ?_ ?_ run
  · exact ⟨Nat.zero_le _, by rintro ⟨⟩, by simp [owed, newSession, Place], .inl (Nat.zero_le _)⟩
  · intro s others a entry held
    refine ⟨held.cap, held.hold, Multiset.forall_mem_cons.mpr ⟨?_, held.place⟩, ?_⟩
    · apply place_unread
      cases a <;> first | rfl | cases entry
    · refine held.level.imp_right (Or.imp_right (Or.imp_right (Or.imp_right ?_)))
      rintro ⟨b, owing, settles⟩
      exact ⟨b, mem_cons_of_mem owing, settles⟩
  · rintro s others a c ready - ⟨token, listed, last⟩ held
    exact bounded_exec cfg c a ready token listed last held

/-- The frame taken last was data of stream `r` that overran its window: its bytes are counted
    and not held, and once its turn is over, the transport was told to close. -/
def Overrun (s : Session) (r : Ref) : Prop :=
  (∃ f, s.rcvd.getLast? = some f ∧ f.hdr.streamID = s.reg.idOf r ∧
    (s.inbox.rx r).win.buffered = (s.inbox.rx r).inbuf.length + f.payload.length) ∧
  s.turnErr = some .windowExceeded ∧ (s.busy = false → s.box.conn.closing.isSome = true)

/-- A release that crosses the low-water mark lets go of the reading and wakes it. -/
def Releases (cfg : Endpoint) (s : Session) : Prop :=
  ∀ c n, s.inbox.pendingBytes - n ≤ lowWater cfg →
    (exec cfg c (.releaseInbound n) s).1.inbox.readHeld = false ∧
      .connWake ∈ (exec cfg c (.releaseInbound n) s).2

theorem releases_of_held {cfg : Endpoint} (held : s.inbox.readHeld = true) : Releases cfg s := by
  intro c n crossed
  constructor <;> simp [exec, releaseInbound, held, crossed]

theorem receive_budget {cfg : Endpoint} {now : Nat} {p : Pool Session Section}
    (run : Reachable (program cfg) (newSession cfg now) p) : (∀ r, p.state.live r = true →
        (p.state.inbox.rx r).win.buffered = (p.state.inbox.rx r).inbuf.length ∨ Overrun p.state r) ∧
      (Quiet p → p.state.inbox.pendingBytes = stored p.state) ∧
      p.state.inbox.pendingBytes ≤ cfg.sessionWindow + cfg.windowSize ∧
      (p.state.inbox.readHeld = true →
        lowWater cfg < p.state.inbox.pendingBytes ∧ Releases cfg p.state) := by
  have removed := removed_run run
  have bounded := bounded_run run
  refine ⟨?_, ?_, bounded.cap, fun held => ⟨bounded.hold held, releases_of_held held⟩⟩
  · intro r live
    have here := live_iff.mp live
    have old := (removed.listed.streams _ r here).1
    have running := open_of_lookup removed here
    rcases windows_run run with ⟨stopped, q, f, overran⟩ | counted
    · have held := overran.counted r old running
      by_cases own : r = q
      · subst r
        rw [Function.update_self] at held
        exact .inr ⟨⟨f, overran.last, overran.own, held⟩, stopped.err,
          closing_of_stopped (token_run run) stopped⟩
      · rw [Function.update_of_ne own] at held
        exact .inl held
    · exact .inl (counted r old running)
  · intro quiet
    have charged : p.state.inbox.pendingBytes = stored p.state + weigh carried (owed p) :=
      charged_run run
    have none : weigh carried (owed p) = 0 := by
      rw [weigh_eq_zero_iff]
      intro b member
      have parked := quiet b member
      cases b <;> first | rfl | cases parked
    rw [charged, none, Nat.add_zero]

def firstData (payload : List UInt8) : List (Move Section Oracle) :=
  [.run 0 {}, .run 0 {}, .run 0 {}, .run 0 {}, .start .turnRead, .run 1 {}, .run 1 {}, .run 1 {},
    .run 1 { incoming := .frame (UmuxFrame.control .windowUpdate { syn := true } 1 0) },
    .run 1 {}, .run 1 {}, .run 1 {}, .run 1 {}, .run 1 {},
    .run 1 { incoming := .frame (dataFrame 1 payload) },
    .run 1 {}, .run 1 {}, .run 1 {}, .run 1 {}, .run 1 {}, .run 1 {}]

def server : Endpoint := endpoint {} false

theorem receive_budget_three_bytes :
    ∃ p, Reachable (program server) (newSession server 0) p ∧ Quiet p ∧ stored p.state = 3 ∧
      p.state.inbox.pendingBytes = 3 := by
  obtain ⟨p, run, checked⟩ := replay_reaches (P := program server) (p := newSession server 0)
    (List.flatten [firstData [1, 2, 3], runs 1 7 {}])
    (fun p => p.threads.flatten.all isParked && (p.state.inbox.pendingBytes = 3 : Bool)) (by decide)
  simp only [Bool.and_eq_true, List.all_eq_true, decide_eq_true_eq] at checked
  obtain ⟨quiet, three⟩ := checked
  have balanced := (receive_budget run).2.1 quiet
  exact ⟨p, run, quiet, balanced.symm.trans three, three⟩

theorem reach_step {cfg : Endpoint} {c : Oracle} {s s' : Session}
    {more : List Section} (rest : List Section) (ready : ready a s = true)
    (step : exec cfg c a s = (s', more)) :
    Reachable (program cfg) ⟨s, [[], a :: rest]⟩ ⟨s', [[], more ++ rest]⟩ := by
  have moved := reachable_section (P := program cfg) rest [[]] [] c ready
  have same : (program cfg).exec c a s = (s', more) := step
  rw [same] at moved
  exact moved

/-- The state after a frame for `r` overran its window and its turn failed. -/
def refused (cfg : Endpoint) (s : Session) (r : Ref) (f : Frame) : Session :=
  let read := receive f s
  let charged := (reserveInbound read r f.payload false .dispatch).1
  let pushed := { charged.setRx r
    { s.inbox.rx r with win := ((s.inbox.rx r).win.onData f.payload.length).1 } with
    turnErr := some .windowExceeded }
  let released := (releaseInbound cfg pushed f.payload.length).1
  (turnEnd (failTurn released .windowExceeded).1).1

theorem refused_rx (s : Session) (r : Ref) (f : Frame) :
    (refused cfg s r f).inbox.rx r =
        { s.inbox.rx r with win := ((s.inbox.rx r).win.onData f.payload.length).1 } ∧
      (refused cfg s r f).reg = s.reg := by
  simp only [refused, releaseInbound]
  split <;> exact ⟨Function.update_self .., rfl⟩

theorem overrun_reaches {id : Nat} (here : s.reg.streams.lookup id = some r) (small : id < 2 ^ 32)
    (running : (s.life r).closedLocal = false) (free : s.inbox.readHeld = false)
    (brought : payload ≠ []) (sized : payload.length < 2 ^ 32)
    (valid : payload.length ≤ wrap32 cfg.windowSize)
    (past : (s.inbox.rx r).win.size < (s.inbox.rx r).win.buffered + payload.length) :
    Reachable (program cfg) ⟨s, [[], [.readFrame]]⟩
      ⟨refused cfg s r (dataFrame id payload), [[], []]⟩ := by
  have length : (dataFrame id payload).hdr.length = payload.length := wrap32_of_lt sized
  have read : exec cfg { incoming := .frame (dataFrame id payload) } .readFrame s =
      (receive (dataFrame id payload) s, [.reserveInbound r payload false .dispatch]) := by
    have formed : wellFormed (dataFrame id payload) = true := by
      have cut : (dataFrame id payload).payload.length = carries (dataFrame id payload).hdr :=
        length.symm
      have short : (dataFrame id payload).hdr.length < 2 ^ 32 := by
        rw [length]
        exact sized
      simp only [wellFormed, Bool.and_eq_true, decide_eq_true_eq]
      exact ⟨⟨cut, short⟩, small⟩
    have passes : validateFrame (dataFrame id payload).hdr (wrap32 cfg.windowSize)
        (wrap32 cfg.maxMetadata) = none := by
      simp only [validateFrame, length]
      exact if_neg (Nat.not_lt.mpr valid)
    have found : (receive (dataFrame id payload) s).reg.streams.lookup
        (dataFrame id payload).hdr.streamID = some r := here
    have filled : (dataFrame id payload).payload ≠ [] := brought
    simp only [exec, readFrame, formed, passes, Bool.true_eq_false, if_false]
    have handled : handleFrame cfg { incoming := .frame (dataFrame id payload) }
        (receive (dataFrame id payload) s) (dataFrame id payload) =
        handleData cfg { incoming := .frame (dataFrame id payload) }
          (receive (dataFrame id payload) s) (dataFrame id payload).hdr
          (dataFrame id payload).payload := rfl
    rw [handled]
    unfold handleData
    rw [if_neg (by exact Bool.false_ne_true), found]
    simp only [if_neg filled]
    rfl
  refine run_trans (reach_step [] (by rfl) read) ?_
  refine run_trans (reach_step (c := {}) [] (by rfl) rfl) ?_
  have push : exec cfg {} (.pushData r payload false .dispatch)
      (reserveInbound (receive (dataFrame id payload) s) r payload false .dispatch).1 = 
      ({ (reserveInbound (receive (dataFrame id payload) s) r payload false .dispatch).1.setRx r
        { s.inbox.rx r with win := ((s.inbox.rx r).win.onData payload.length).1 } with
        turnErr := some .windowExceeded }, [.releaseInbound payload.length, .afterFrame]) := by
    have pushed := pushData_pushed
      (reserveInbound (receive (dataFrame id payload) s) r payload false .dispatch).1 r payload false
      .dispatch
    simp only [exec]
    generalize pushData (reserveInbound (receive (dataFrame id payload) s) r payload false .dispatch).1
      r payload false .dispatch = step at pushed ⊢
    cases pushed with
    | late closed => exact absurd (running.symm.trans closed) Bool.false_ne_true
    | overrun running brought past => rfl
    | taken running fits | ended running fits first =>
      exact absurd past (Nat.not_lt.mpr (fits.resolve_left brought))
  refine run_trans (reach_step [] (by rfl) push) ?_
  have release : ∀ t : Session, t.inbox.readHeld = false → ∀ n,
      exec cfg {} (.releaseInbound n) t = ((releaseInbound cfg t n).1, []) := by
    intro t free n
    simp [exec, releaseInbound, free]
  have kept : ∀ (t : Session) n, (releaseInbound cfg t n).1.turnErr = t.turnErr := by
    intro t n
    simp only [releaseInbound]
    split <;> rfl
  refine run_trans (reach_step [.afterFrame] (by rfl) (release _ (by exact free) _)) ?_
  have failed : ∀ t : Session, t.turnErr = some .windowExceeded →
      exec cfg {} .afterFrame t = (t, [.failTurn .windowExceeded]) := by
    intro t err
    simp [exec, afterFrame, err]
  refine run_trans (reach_step [] (by rfl) (failed _ (kept _ _))) ?_
  refine run_trans (reach_step (c := {}) [] (by rfl) rfl) ?_
  exact reach_step (c := {}) [] (by rfl) rfl

def atReadFrame : List (List Section) → Bool
  | [[], [.readFrame]] => true
  | _ => false

theorem atReadFrame_threads {threads : List (List Section)} (here : atReadFrame threads = true) :
    threads = [[], [.readFrame]] := by
  unfold atReadFrame at here
  split at here
  · rfl
  · cases here

/-- A one-byte frame, then one of a whole window: the second is refused and its bytes
    stay counted on a stream that is still in the table, with no thread at work. -/
theorem overrun_stays_counted :
    ∃ p r, Reachable (program server) (newSession server 0) p ∧ Quiet p ∧ p.state.live r = true ∧
      (p.state.inbox.rx r).win.buffered = 262145 ∧ (p.state.inbox.rx r).inbuf.length = 1 := by
  obtain ⟨⟨s, threads⟩, run, checked⟩ := replay_reaches (P := program server) (p := newSession server 0)
    (firstData [7])
    (fun p => atReadFrame p.threads && decide (p.state.reg.streams.lookup 1 = some 0 ∧
      p.state.reg.idOf 0 = 1 ∧ (p.state.life 0).closedLocal = false ∧ p.state.inbox.readHeld = false ∧
      (p.state.inbox.rx 0).win.size = 262144 ∧ (p.state.inbox.rx 0).win.buffered = 1 ∧
      (p.state.inbox.rx 0).inbuf.length = 1)) (by decide)
  rw [Bool.and_eq_true, decide_eq_true_eq] at checked
  obtain ⟨reading, here, named, running, free, size, buffered, held⟩ := checked
  obtain rfl := atReadFrame_threads reading
  have window : (List.replicate 262144 (0 : UInt8)).length = 262144 := List.length_replicate
  have reached := run_trans run (overrun_reaches server
    (List.replicate 262144 0) here (by decide) running free
    (fun none => by rw [none] at window; cases window)
    (by rw [window]; decide) (by rw [window]; decide)
    (by rw [window, size, buffered]; decide))
  obtain ⟨rx, reg⟩ := refused_rx server s 0 (dataFrame 1 (List.replicate 262144 0))
  have counted : (dataFrame 1 (List.replicate 262144 0)).payload.length = 262144 := window
  refine ⟨_, 0, reached, nofun, ?_, ?_, ?_⟩
  · rw [live_iff, reg, named]
    exact here
  · rw [rx, counted]
    exact congrArg (· + 262144) buffered
  · rw [rx]
    exact held

end UmuxBudget
