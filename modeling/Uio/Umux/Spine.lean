import Uio.Umux.Footprint
import Uio.Umux.Successors

/- One turn at a time. While a turn runs exactly one of its spine sections is owed,
   and between turns none is, so whoever runs one knows where the turn stands. -/
namespace UmuxSpine
open Interleaving UmuxOutbox UmuxSession UmuxMachine UmuxLifecycle UmuxTimers UmuxTurn UmuxInbound
open UmuxSuccessors UmuxFootprint UmuxSteps
variable (cfg : Endpoint) (c : Oracle) (a : Section) (s : Session)

def isSpine (a : Section) : Bool := group a = .spine

/-- The sections that leave one spine section behind: those of a turn but its last,
    and those that begin a turn. -/
def keeps : Section → Bool
  | .turnEnd => false
  | .turnRead | .turnTimer | .turnClose _ => true
  | a => isSpine a

theorem readFrame_spine : (readFrame cfg c s).2.countP isSpine = 1 := by
  have taken := readFrame_taken cfg c s
  generalize readFrame cfg c s = step at taken ⊢
  cases taken with
  | ended => rfl
  | failed e => rfl
  | frame f arrived formed valid handled =>
    cases handled with
    | vetted delta metadata peer free => cases cfg.accept <;> rfl
    | _ => rfl

theorem afterPush_spine (r : Ref) (next : AfterPush) : (afterPush r next).countP isSpine = 0 := by
  cases next with
  | reset => rfl
  | dispatch => rfl
  | dispatchGrant delta =>
    simp only [afterPush]
    split <;> rfl

theorem countP_zero_of_follows {a : Section} {more : List Section}
    (follow : more.all (follows a) = true) (none : (pushes a).contains .spine = false) :
    more.countP isSpine = 0 := by
  rw [List.countP_eq_zero]
  intro b member spine
  have grouped := List.all_eq_true.mp follow b member
  rw [follows, of_decide_eq_true spine, none] at grouped
  cases grouped

theorem timerRound_spine (now : Nat) : (timerRound cfg c s now).2.countP isSpine = 1 := by
  obtain ⟨ending, plain, ⟨e, pushed⟩ | ⟨due, pushed⟩⟩ := timerRound_pushes cfg c s now
  all_goals
    have none : ending.countP isSpine = 0 := by
      rw [List.countP_eq_zero]
      intro b member spine
      have one := List.all_eq_true.mp plain b member
      cases b <;> first | (cases spine; done) | cases one
    rw [pushed, List.countP_append]
  · rw [none]
    rfl
  · have fired : (due.flatMap fun r => [Section.invokeTimer r, .tryFinish r]).countP isSpine = 0 := by
      rw [List.countP_eq_zero]
      intro b member
      obtain ⟨r, -, pair⟩ := List.mem_flatMap.mp member
      simp only [List.mem_cons, List.not_mem_nil, or_false] at pair
      rcases pair with rfl | rfl <;> exact Bool.false_ne_true
    rw [List.countP_append, none, fired]
    rfl

theorem spine_pushed : (exec cfg c a s).2.countP isSpine = cond (keeps a) 1 0 := by
  by_cases kept : keeps a = true
  · rw [kept, cond_true]
    cases a
    case readFrame => exact readFrame_spine cfg c s
    case timerRound now => exact timerRound_spine cfg c s now
    case pushData r payload fin next =>
      simp only [exec, pushData]
      (repeat' split) <;> simp [List.countP_append, afterPush_spine, isSpine, group]
    case acceptVet id delta metadata =>
      simp only [exec, acceptVet]
      (repeat' split) <;> rfl
    case heldReads =>
      simp only [exec, heldReads]
      (repeat' split) <;> rfl
    case exhaustedBudget =>
      simp only [exec, exhaustedBudget]
      split <;> rfl
    case afterFrame =>
      simp only [exec, afterFrame]
      split <;> rfl
    case onTransportClose cause =>
      simp only [exec, onTransportClose]
      split
      · rfl
      · have none : ∀ {α : Type} (f : α → Section) (l : List α), (∀ x, isSpine (f x) = false) →
            (l.map f).countP isSpine = 0 := by
          intro α f l off
          rw [List.countP_map, List.countP_eq_zero]
          exact fun x _ => by simp [off x]
        rw [List.countP_append, List.countP_append, none _ _ fun _ => rfl, none _ _ fun _ => rfl]
        rfl
    all_goals first | (cases kept; done) | rfl
  · have off : keeps a = false := Bool.eq_false_iff.mpr kept
    rw [off, cond_false]
    refine countP_zero_of_follows (exec_follows cfg c a s) ?_
    cases a <;> first | rfl | cases off

def turns : Section → Bool
  | .turnRead | .turnTimer | .turnClose _ | .turnEnd => true
  | _ => false

theorem exec_busy {a : Section} (other : turns a = false) :
    (exec cfg c a s).1.busy = s.busy ∧ (exec cfg c a s).1.ended = s.ended := by
  by_cases untouched : touches a .turn = false
  · obtain ⟨busy, ended, -⟩ := exec_turn cfg c s untouched
    exact ⟨busy, ended⟩
  · cases a
    case readFrame =>
      have taken := readFrame_taken cfg c s
      simp only [exec]
      generalize readFrame cfg c s = step at taken ⊢
      cases taken with
      | ended | failed e => exact ⟨rfl, rfl⟩
      | frame f arrived formed valid handled => cases handled <;> exact ⟨rfl, rfl⟩
    case pushData r payload fin next =>
      simp only [exec, pushData]
      (repeat' split) <;> exact ⟨rfl, rfl⟩
    case acceptVet id delta metadata =>
      simp only [exec, acceptVet]
      (repeat' split) <;> exact ⟨rfl, rfl⟩
    all_goals first | exact absurd rfl untouched | cases other

def spines (owing : Multiset Section) : Nat := owing.countP (isSpine · = true)

theorem spines_cons (owing : Multiset Section) :
    spines (a ::ₘ owing) = cond (isSpine a) 1 0 + spines owing := by
  unfold spines
  rw [Multiset.countP_cons, Nat.add_comm]
  cases isSpine a <;> rfl

theorem spines_pushed (others : Multiset Section) :
    spines (↑(exec cfg c a s).2 + others) = cond (keeps a) 1 0 + spines others := by
  have pushed : spines ↑(exec cfg c a s).2 = cond (keeps a) 1 0 := by
    unfold spines
    rw [Multiset.coe_countP]
    simpa using spine_pushed cfg c a s
  rw [← pushed]
  exact Multiset.countP_add ..

def Token (s : Session) (owing : Multiset Section) : Prop := spines owing = cond s.busy 1 0

theorem idle_of_ready {a : Section} {s : Session} (begins : turns a = true) (notEnd : a ≠ .turnEnd)
    (ready : ready a s = true) : s.busy = false ∧ s.ended = false := by
  have idle := (Bool.and_eq_true_iff.mp ready).2
  cases a
  case turnRead =>
    simp only [Bool.and_eq_true, Bool.not_eq_true'] at idle
    exact idle.1
  case turnTimer =>
    simp only [Bool.and_eq_true, Bool.not_eq_true'] at idle
    exact idle.1.1
  case turnClose cause =>
    simp only [Bool.and_eq_true, Bool.not_eq_true'] at idle
    exact idle
  case turnEnd => exact absurd rfl notEnd
  all_goals cases begins

theorem token_alone {s : Session} {others : Multiset Section} {a : Section} (spine : isSpine a = true)
    (held : Token s (a ::ₘ others)) : s.busy = true ∧ ∀ b ∈ others, isSpine b = false := by
  unfold Token at held
  rw [spines_cons, spine, cond_true, Nat.add_comm] at held
  cases busy : s.busy with
  | false =>
    rw [busy] at held
    cases held
  | true =>
    rw [busy] at held
    refine ⟨rfl, fun b member => Bool.eq_false_iff.mpr ?_⟩
    exact Multiset.countP_eq_zero.mp (Nat.succ.inj held) b member

theorem token_idle {s : Session} {owing : Multiset Section} (held : Token s owing)
    (idle : s.busy = false) : ∀ b ∈ owing, isSpine b = false := by
  intro b member
  unfold Token at held
  rw [idle] at held
  exact Bool.eq_false_iff.mpr (Multiset.countP_eq_zero.mp held b member)

theorem token_exec {s : Session}
    {others : Multiset Section} (ready : ready a s = true) (held : Token s (a ::ₘ others)) :
    Token (exec cfg c a s).1 (↑(exec cfg c a s).2 + others) := by
  by_cases turn : turns a = false
  · have same : keeps a = isSpine a := by
      cases a <;> first | rfl | cases turn
    unfold Token at held ⊢
    rw [spines_pushed, (exec_busy cfg c s turn).1, same, ← spines_cons]
    exact held
  · have turn : turns a = true := by simpa using turn
    by_cases last : a = .turnEnd
    · subst a
      have alone := (token_alone (by rfl) held).2
      unfold Token
      rw [spines_pushed]
      exact Nat.add_eq_zero_iff.mpr ⟨rfl, Multiset.countP_eq_zero.mpr fun b member =>
        by rw [alone b member]; exact Bool.false_ne_true⟩
    · have free := (idle_of_ready turn last ready).1
      unfold Token at held ⊢
      rw [spines_cons, free] at held
      rw [spines_pushed]
      cases a
      case turnRead | turnTimer | turnClose cause =>
        exact congrArg (1 + ·) (Nat.add_eq_zero_iff.mp held).2
      case turnEnd => exact absurd rfl last
      all_goals cases turn

theorem token_new (now : Nat) :
    Token (newSession cfg now).state (owed (newSession cfg now)) := rfl

theorem token_entry {s : Session} {others : Multiset Section} {a : Section}
    (entry : (isCall a || isEvent a) = true) (held : Token s others) : Token s (a ::ₘ others) := by
  have off : isSpine a = false := by
    cases a <;> first | rfl | cases entry
  unfold Token
  rw [spines_cons, off, cond_false, Nat.zero_add]
  exact held

theorem token_run {cfg : Endpoint} {now : Nat} {ok : Oracle → Section → Session → Prop}
    {p : Pool Session Section} (run : Run (program cfg) ok (newSession cfg now) p) :
    Token p.state (owed p) := by
  refine owed_invariant Token (token_new cfg now) ?_ ?_ run
  · intro s others a entry held
    exact token_entry entry held
  · intro s others a c ready _ held
    exact token_exec cfg c a ready held

def reads : Section → Bool
  | .onRead | .heldReads | .readFrame | .reserveInbound _ _ _ _ | .pushData _ _ _ _
  | .establish _ _ _ | .acceptVet _ _ _ | .exhaustedBudget => true
  | _ => false

theorem unread_of_plain {b : Section} (plain : isSpine b = false) : reads b = false := by
  cases b <;> first | rfl | cases plain

def placed : Section → Bool
  | .onTransportClose _ => true
  | b => reads b

theorem spine_of_placed {b : Section} (place : placed b = true) : isSpine b = true := by
  cases b <;> first | rfl | cases place

def turnNext : Section → Section → Bool
  | .turnRead, .onRead | .onRead, .heldReads | .heldReads, .readFrame
  | .readFrame, .reserveInbound _ _ _ _ | .readFrame, .pushData _ _ _ _
  | .readFrame, .establish _ _ _ | .readFrame, .acceptVet _ _ _
  | .reserveInbound _ _ _ _, .pushData _ _ _ _ | .afterFrame, .exhaustedBudget
  | .exhaustedBudget, .readFrame | .turnClose _, .onTransportClose _ => true
  | _, _ => false

def inStep (a b : Section) : Bool := !placed b || turnNext a b

theorem inStep_of_group {a b : Section} (other : group b ≠ .spine) : inStep a b = true := by
  cases place : placed b with
  | false => simp [inStep, place]
  | true => exact absurd (of_decide_eq_true (spine_of_placed place)) other

theorem readFrame_inStep : (readFrame cfg c s).2.all (inStep .readFrame) = true := by
  have taken := readFrame_taken cfg c s
  generalize readFrame cfg c s = step at taken ⊢
  cases taken with
  | ended => rfl
  | failed e => rfl
  | frame f arrived formed valid handled =>
    cases handled with
    | vetted delta metadata peer free => cases cfg.accept <;> rfl
    | _ => rfl

theorem afterPush_inStep (r : Ref) (next : AfterPush) :
    (afterPush r next).all (inStep a) = true := by
  cases next with
  | reset => rfl
  | dispatch => rfl
  | dispatchGrant delta =>
    simp only [afterPush]
    split <;> rfl

theorem timerRound_inStep (now : Nat) :
    (timerRound cfg c s now).2.all (inStep (.timerRound now)) = true := by
  obtain ⟨ending, plain, ⟨e, pushed⟩ | ⟨due, pushed⟩⟩ := timerRound_pushes cfg c s now
  all_goals
    have gathers : ending.all (inStep (.timerRound now)) = true := by
      rw [List.all_eq_true] at plain ⊢
      intro b member
      have one := plain b member
      cases b <;> first | rfl | cases one
    rw [pushed]
    simp [gathers, inStep, placed, reads, List.all_flatMap]

theorem exec_inStep : (exec cfg c a s).2.all (inStep a) = true := by
  by_cases plain : (pushes a).contains .spine = false
  · rw [List.all_eq_true]
    intro b member
    apply inStep_of_group
    intro spine
    have grouped := pushed_group cfg c member
    rw [spine, plain] at grouped
    cases grouped
  · cases a
    case readFrame => exact readFrame_inStep cfg c s
    case timerRound now => exact timerRound_inStep cfg c s now
    case pushData r payload fin next =>
      have after := afterPush_inStep (.pushData r payload fin next) r next
      have pushed := pushData_pushed s r payload fin next
      simp only [exec]
      generalize pushData s r payload fin next = step at pushed ⊢
      cases pushed with
      | late closed | taken running fits => simp [after, inStep, placed, reads]
      | overrun running brought past => rfl
      | ended running fits first =>
        cases (s.life r).localFIN <;> simp [after, inStep, placed, reads]
    case onTransportClose cause =>
      simp only [exec, onTransportClose]
      split
      · rfl
      · generalize (visit c.order s.reg.streams).filterMap s.reg.streams.lookup = refs
        simp [List.all_append, inStep, placed, reads]
    case acceptVet id delta metadata =>
      simp only [exec, acceptVet]
      (repeat' split) <;> rfl
    case heldReads =>
      simp only [exec, heldReads]
      (repeat' split) <;> rfl
    case exhaustedBudget =>
      simp only [exec, exhaustedBudget]
      split <;> rfl
    case afterFrame =>
      simp only [exec, afterFrame]
      split <;> rfl
    all_goals first | exact absurd rfl plain | rfl

theorem next_of_placed {a b : Section} {s : Session}
    (pushed : b ∈ (exec cfg c a s).2) (place : placed b = true) : turnNext a b = true := by
  have step := List.all_eq_true.mp (exec_inStep cfg c a s) b pushed
  simpa [inStep, place] using step

theorem next_of_reads {a b : Section} {s : Session}
    (pushed : b ∈ (exec cfg c a s).2) (reading : reads b = true) : turnNext a b = true := by
  apply next_of_placed cfg c pushed
  cases b <;> first | rfl | cases reading

theorem ended_exec {s : Session} (ended : s.ended = true) : (exec cfg c a s).1.ended = true := by
  by_cases turn : turns a = false
  · rw [(exec_busy cfg c s turn).2]
    exact ended
  · cases a <;> first | exact absurd rfl turn | exact ended | rfl

def Last (s : Session) (owing : Multiset Section) : Prop :=
  ∀ cause, .onTransportClose cause ∈ owing → s.ended = true

theorem last_run {cfg : Endpoint} {now : Nat} {ok : Oracle → Section → Session → Prop}
    {p : Pool Session Section} (run : Run (program cfg) ok (newSession cfg now) p) :
    Last p.state (owed p) := by
  intro cause member
  refine (owed_carries (fun _ => True) (fun s a => ∀ cause, a = .onTransportClose cause →
    s.ended = true) trivial ?_ ?_ ?_ run).2 _ member cause rfl
  · simp [owed, newSession]
  · rintro s a - entry cause rfl
    cases entry
  · intro s a c ready _ _ _
    refine ⟨trivial, fun b held cause same => ended_exec cfg c a (held cause same), ?_⟩
    rintro b pushed cause rfl
    have next := next_of_placed cfg c pushed (by rfl)
    cases a
    case turnClose cause => rfl
    all_goals cases next

end UmuxSpine
