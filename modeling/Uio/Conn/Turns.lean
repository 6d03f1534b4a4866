import Uio.Conn.Task

/-!
The scheduled bit is one token: with a producer about to submit, with the executor, with
the turn that runs, or with the handler of a refused task. Events are folded before the
bit is tried and looked at again after it is given up, so an event without a turn has
somebody on the way to the bit.
-/
namespace ConnTurns
open Interleaving ConnTask

variable {s s' : Task} {a : Section} {more : List Section} {others owing : Multiset Section}

def bit (b : Bool) : Nat := if b then 1 else 0

def holder : Section → Nat
  | .watch | .abandonClaim | .submit | .takeIOEvents | .turn | .finishIOTask | .finishDrop | .refused
  | .refusedClose | .refusedStopping | .refusedTeardown | .refusedDeliver | .refusedDrop
  | .closeSubmit => 1
  | _ => 0

def running : Section → Nat
  | .takeIOEvents | .turn | .finishIOTask | .finishDrop => 1
  | _ => 0

def counted : Section → Nat
  | .acquireLook _ | .claim _ | .watch | .abandonClaim | .submit | .takeIOEvents | .turn
  | .finishIOTask | .finishDrop | .finishLook _ | .finishRetake | .releaseTurn | .refused
  | .refusedClose | .refusedStopping | .refusedTeardown | .refusedDeliver | .refusedDrop
  | .refusedLook _ _ | .closeSubmit => 1
  | _ => 0

def folded : Section → Nat
  | .noteLook _ | .acquireTurn _ | .acquireLook _ | .claim _ => 1
  | _ => 0

/-- The first turn's producer, whose event is stored before it starts, until it has the claim
    or has closed the connection. -/
def first : Section → Nat
  | .noteTurn events | .noteClosing events | .noteFold events => bit events.isNone
  | .declined first => bit first
  | _ => 0

def retaking : Section → Nat
  | .finishLook left => bit left
  | .finishRetake => 1
  | _ => 0

/-- Asks for the release again, as a refusal's handler does for a request it found. -/
def handing : Section → Nat
  | .refusedLook teardown _ => bit teardown
  | .noteTurn events | .noteClosing events | .noteFold events => bit (events == some .teardown)
  | _ => 0

def dropping : Section → Nat
  | .refusedStopping | .refusedTeardown | .refusedDeliver | .refusedDrop | .refusedLook _ _ => 1
  | _ => 0

def publishing : Section → Nat
  | .closeClaim | .closeSubmit => 1
  | _ => 0

@[mk_iff] structure Claimed (s : Task) (owing : Multiset Section) : Prop where
  claim : bit s.scheduled = s.queued + weigh holder owing
  turns : s.turns = (s.queued + weigh counted owing : Nat)
  dropping : 0 < weigh dropping owing → s.phase.isClosing = true
  publishing : 0 < weigh publishing owing → s.phase.isReleased = true
  stopped : s.stopped = true → s.stopping = true

@[mk_iff] structure Awaited (s : Task) (owing : Multiset Section) : Prop where
  other : s.other = true → s.scheduled = false → s.stopped = false → s.phase.isClosing = false →
    0 < weigh folded owing + weigh first owing + weigh retaking owing
  teardown : s.teardown = true → s.scheduled = false → s.stopping = false →
    s.phase.isReleased = false → 0 < weigh folded owing + weigh retaking owing + weigh handing owing

theorem isClosing_of_isReleased (p : Phase) (released : p.isReleased = true) :
    p.isClosing = true := by
  cases p <;> first | rfl | cases released

theorem isClosing_request (p : Phase) : p.request.isClosing = true := by
  cases p <;> rfl

theorem isReleased_request (p : Phase) : p.request.isReleased = p.isReleased := by
  cases p <;> rfl

theorem isReleased_release (p : Phase) : p.release.isReleased = true := by
  cases p <;> rfl

theorem isClosing_release (p : Phase) : p.release.isClosing = true := by
  cases p <;> rfl

theorem isClosing_abandon (p : Phase) : p.abandon.isClosing = true := by
  cases p <;> rfl

theorem isReleased_abandon (p : Phase) : p.abandon.isReleased = true := by
  cases p <;> rfl

theorem isReleased_deliver (p : Phase) : p.deliver.isReleased = p.isReleased := by
  cases p <;> rfl

theorem isClosing_deliver (p : Phase) : p.deliver.isClosing = p.isClosing := by
  cases p <;> rfl

theorem claimed_step (step : Step s a s' more) (held : Claimed s (a ::ₘ others)) :
    Claimed s' (↑more + others) := by
  have implied := isClosing_of_isReleased s.phase
  rw [claimed_iff] at held ⊢
  simp only [weigh_cons, weigh_add, weigh_coe] at held ⊢
  obtain ⟨claim, turns, drops, publishes, stopped⟩ := held
  cases step
  case noteFold e | turnPuts b e => cases e <;> exact ⟨claim, turns, drops, publishes, stopped⟩
  all_goals
    dsimp only [holder, counted, dropping, publishing] at claim turns drops publishes
    simp only [sum_map_cons, sum_map_nil, isClosing_request, isReleased_request, isReleased_release,
      isReleased_abandon, isReleased_deliver, isClosing_deliver, isClosing_release,
      isClosing_abandon]
    try dsimp only [holder, counted, dropping, publishing]
  all_goals simp only [Nat.zero_add, Nat.add_zero] at claim turns drops publishes ⊢
  all_goals refine ⟨?_, ?_, ?_, ?_, ?_⟩
  all_goals first | assumption | omega | grind -ring -linarith [bit]

theorem put_scheduled (s : Task) (b : Bool) (e : Event) : (s.put b e).scheduled = s.scheduled := by
  cases e <;> rfl

theorem awaited_step (step : Step s a s' more) (claimed : Claimed s (a ::ₘ others))
    (held : Awaited s (a ::ₘ others)) : Awaited s' (↑more + others) := by
  have implied := isClosing_of_isReleased s.phase
  rw [awaited_iff] at held ⊢
  rw [claimed_iff] at claimed
  simp only [weigh_cons, weigh_add, weigh_coe] at held claimed ⊢
  obtain ⟨claim, -, drops, publishes, stopped⟩ := claimed
  obtain ⟨other, teardown⟩ := held
  cases step
  case noteFold e =>
    have window : 0 < (List.map folded [.noteLook false]).sum := Nat.one_pos
    exact ⟨fun _ _ _ _ => by omega, fun _ _ _ _ => by omega⟩
  case turnPuts b e =>
    have running : holder .turn = 1 := rfl
    have taken : (s.put b e).scheduled = true := by
      rw [put_scheduled]
      by_contra free
      rw [bit, if_neg free] at claim
      omega
    rw [taken]
    exact ⟨fun _ free => (nomatch free), fun _ free => (nomatch free)⟩
  all_goals
    dsimp only [folded, first, retaking, handing] at other teardown
    simp only [sum_map_cons, sum_map_nil, isClosing_request, isReleased_request, isReleased_release,
      isReleased_abandon, isReleased_deliver, isClosing_deliver, isClosing_release,
      isClosing_abandon]
    try dsimp only [folded, first, retaking, handing]
  all_goals simp only [Nat.zero_add, Nat.add_zero] at other teardown ⊢
  all_goals refine ⟨?_, ?_⟩
  all_goals first | assumption | skip
  all_goals dsimp only [holder, dropping, publishing] at claim drops publishes
  all_goals grind -ring -linarith [bit, Task.events]

section Runs

variable {q : Pool Task Section}

theorem entry_plain (legal : entry a = true) : holder a = 0 ∧ counted a = 0 ∧ dropping a = 0 ∧
    publishing a = 0 := by
  cases a <;> first | exact ⟨rfl, rfl, rfl, rfl⟩ | cases legal

theorem claimed_run (run : Reachable program start q) : Claimed q.state (owed q) := by
  refine owed_invariant Claimed ?_ ?_ ?_ run
  · constructor <;> simp [owed, start, Task.fresh, bit, weigh, holder, counted, dropping, publishing]
  · intro s others a legal held
    rw [claimed_iff] at held ⊢
    simp only [weigh_cons, entry_plain legal, Nat.zero_add]
    exact held
  · intro s others a c able _ held
    exact claimed_step (exec_step c a s able) held

theorem awaited_run (run : Reachable program start q) : Awaited q.state (owed q) := by
  refine owed_invariant_given Claimed Awaited (fun _ => claimed_run) ?_ ?_ ?_ run
  · constructor <;> simp [owed, start, Task.fresh, bit, weigh, folded, first]
  · intro s others a _ held
    constructor
    · intro some free running going
      have before := held.other some free running going
      simp only [weigh_cons]
      omega
    · intro some free running going
      have before := held.teardown some free running going
      simp only [weigh_cons]
      omega
  · intro s others a c able _ claimed held
    exact awaited_step (exec_step c a s able) claimed held

end Runs

theorem running_le (owing : Multiset Section) : weigh running owing ≤ weigh holder owing :=
  weigh_le (fun a => by cases a <;> first | exact Nat.le_refl _ | exact Nat.zero_le _) owing

/-- On the way to the bit: a producer that folded its events, the producer of a first turn, or
    a turn that is finishing and looks again. -/
def onTheWay (q : Pool Task Section) : Nat :=
  weigh folded (owed q) + weigh first (owed q) + weigh retaking (owed q)

/-- The request to release a closing connection is followed up until it is released. -/
theorem one_turn_no_event_left {q : Pool Task Section} (run : Reachable program start q) :
    q.state.queued + weigh running (owed q) ≤ 1 ∧
    (onTheWay q = 0 → q.state.stopped = false → q.state.phase.isClosing = false →
      q.state.other = true → q.state.scheduled = true) ∧
    (onTheWay q = 0 → weigh handing (owed q) = 0 → q.state.stopping = false →
      q.state.phase.isReleased = false → q.state.teardown = true → q.state.scheduled = true) := by
  have claimed := claimed_run run
  have awaited := awaited_run run
  refine ⟨?_, ?_, ?_⟩
  · have claim := claimed.claim
    have within := running_le (owed q)
    rw [bit] at claim
    split at claim <;> omega
  · intro idle going live some
    by_contra free
    have before := awaited.other some (by simpa using free) going live
    rw [onTheWay] at idle
    omega
  · intro idle quiet going live some
    by_contra free
    have before := awaited.teardown some (by simpa using free) going live
    rw [onTheWay] at idle
    omega

/-- The first turn is claimed, submitted and about to finish without events. -/
def firstTurn : List (Move Section Choice) :=
  List.flatten [runs 0 9 {}, [.start .run], runs 1 4 {}]

def foldedLate : List (Move Section Choice) :=
  List.flatten [firstTurn, [.start (.noteTurn (some .other))], runs 2 5 {}]

theorem one_turn_no_event_left_late : ∃ q,
    (Reachable program start q ∧ onTheWay q = 0 ∧ q.state.stopped = false ∧
      q.state.phase.isClosing = false ∧ q.state.other = true) ∧ q.state.scheduled = true := by
  obtain ⟨q, run, checked⟩ := replay_reaches (P := program) (p := start) foldedLate
    (fun q => decide (onTheWay q = 0 ∧ q.state.stopped = false ∧
      q.state.phase.isClosing = false ∧ q.state.other = true)) (by decide +kernel)
  obtain ⟨idle, going, live, other⟩ := of_decide_eq_true checked
  exact ⟨q, ⟨run, idle, going, live, other⟩, (one_turn_no_event_left run).2.1 idle going live other⟩

/-- A second turn's task is refused. -/
def refusedTurn : List (Move Section Choice) :=
  List.flatten [firstTurn, runs 1 3 {}, [.start (.noteTurn (some .other))], runs 2 7 {},
    [.run 2 { fails := true }]]

/-- An event is set, the claim is free and no producer is on its way to it. -/
def eventLeft (s : Task) (owing : Multiset Section) : Bool :=
  (s.other || s.teardown) && !s.scheduled && !s.stopped && !s.phase.isReleased &&
    decide (weigh folded owing = 0)

/-- Events are left without a turn: a finishing turn has given the bit up and has not looked at
    what it left; a refused turn's handler has closed the connection and leaves its release to
    the holder of the write claim; a stopping loop declined a new connection's first turn and the
    connection is still to be closed; a stopping loop declined the request for the release that
    such a handler hands on. -/
theorem event_between_turns :
    (∃ q, Reachable program start q ∧ eventLeft q.state (owed q) = true ∧ q.state.stopping = false ∧
      q.state.phase = .closeOpen ∧ weigh first (owed q) = 0) ∧
    (∃ q, Reachable program start q ∧ eventLeft q.state (owed q) = true ∧ q.state.stopping = false ∧
      Multiset.card (owed q) = 0) ∧
    (∃ q, Reachable program start q ∧ eventLeft q.state (owed q) = true ∧
      q.state.phase = .closeOpen ∧ weigh retaking (owed q) = 0) ∧
    ∃ q, Reachable program start q ∧ eventLeft q.state (owed q) = true ∧ q.state.teardown = true ∧
      Multiset.card (owed q) = 0 := by
  refine ⟨?_, ?_, ?_, ?_⟩
  · obtain ⟨q, run, checked⟩ := replay_reaches (P := program) (p := start)
      (List.flatten [foldedLate, runs 1 1 {}])
      (fun q => decide (eventLeft q.state (owed q) = true ∧ q.state.stopping = false ∧
        q.state.phase = .closeOpen ∧ weigh first (owed q) = 0)) (by decide +kernel)
    exact ⟨q, run, of_decide_eq_true checked⟩
  · obtain ⟨q, run, checked⟩ := replay_reaches (P := program) (p := start)
      (List.flatten [refusedTurn, runs 2 7 {}])
      (fun q => decide (eventLeft q.state (owed q) = true ∧ q.state.stopping = false ∧
        Multiset.card (owed q) = 0)) (by decide +kernel)
    exact ⟨q, run, of_decide_eq_true checked⟩
  · obtain ⟨q, run, checked⟩ := replay_reaches (P := program) (p := start)
      [.start .stopLoop, .run 1 {}, .run 0 {}]
      (fun q => decide (eventLeft q.state (owed q) = true ∧ q.state.phase = .closeOpen ∧
        weigh retaking (owed q) = 0)) (by decide +kernel)
    exact ⟨q, run, of_decide_eq_true checked⟩
  · obtain ⟨q, run, checked⟩ := replay_reaches (P := program) (p := start)
      (List.flatten [refusedTurn, runs 2 2 {}, [.start (.noteTurn (some .teardown))], runs 3 5 {},
        runs 2 2 {}, [.start .stopLoop, .run 4 {}], runs 2 5 {}])
      (fun q => decide (eventLeft q.state (owed q) = true ∧ q.state.teardown = true ∧
        Multiset.card (owed q) = 0)) (by decide +kernel)
    exact ⟨q, run, of_decide_eq_true checked⟩

end ConnTurns
