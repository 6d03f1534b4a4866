import Uio.Layer.Close

/-!
A stack that closes reaches its socket. One section, or the stored plan, carries
the close at any moment, and every layer under it is unmarked, so its walk cannot
be stopped on the way; a stored plan always has a turn that will take it.
The argument needs every failing turn to find the stack unclaimed when it claims it.
-/
namespace LayerReach
open Interleaving LayerClose

def carrier : Section → Nat
  | .endMark _ | .endStore _ | .failStore _ _ | .planLook _ | .walk _ _ _ | .walkFlush _ _ _
  | .walkDown _ _ => 1
  | _ => 0

def level (top : Nat) : Section → Nat
  | .endMark x | .endStore x => x.layer top
  | .failStore _ _ => top
  | .planLook p => min p.start top
  | .walk layer _ _ | .walkFlush layer _ _ | .walkDown layer _ => layer
  | _ => 0

def planned : Option Plan → Nat
  | some _ => 1
  | none => 0

def planLevel (top : Nat) : Option Plan → Nat
  | some p => min p.start top
  | none => 0

def Below (walked : Nat → Bool) (n : Nat) : Prop := ∀ j < n, walked j = false

def Undisputed (_ : Choice) (a : Section) (s : Stack) : Prop :=
  match a with
  | .failClaim _ _ => s.phase.over = false
  | _ => True

@[mk_iff] structure Marks (top : Nat) (s : Stack) (owing : Multiset Section) : Prop where
  unclaimed : s.phase.over = false →
    planned s.plan = 0 ∧ weigh carrier owing = 0 ∧ ∀ j, s.walked j = false
  single : weigh carrier owing + planned s.plan ≤ 1
  clear : Below s.walked (weigh (level top) owing + planLevel top s.plan)

def finisher : Section → Nat
  | .cutPlan | .endAtSocket _ | .socketClose _ => 1
  | _ => 0

def closer : Section → Nat
  | .socketClose _ => 1
  | _ => 0

def turning : Section → Nat
  | .turnRan | .finish _ | .finishOff _ => 1
  | _ => 0

def waking : Section → Nat
  | .wake | .turnStart => 1
  | _ => 0

def taker : Section → Nat
  | .request | .requestClaim | .wake | .takePlan | .turnStart | .turnLook | .turnIn | .turnRan
  | .finish _ | .finishOff _ | .settleGate | .settle | .failLook _ _ | .failClaim _ _
  | .failStore _ _ => 1
  | _ => 0

@[mk_iff] structure Driven (s : Stack) (owing : Multiset Section) : Prop where
  ended : s.phase.closedStack = true → s.socketClosing = true
  inside : s.inTurn = true → 0 < weigh turning owing
  asked : s.turnAsked = true →
    s.socketClosing = true ∨ s.woken = true ∨ 0 < weigh waking owing
  taken : planned s.plan = 1 →
    s.socketClosing = true ∨ s.woken = true ∨ 0 < weigh taker owing
  reached : s.phase.noLayerCalls = true → s.socketClosing = true ∨ 0 < weigh closer owing
  carried : s.phase.over = true → s.socketClosing = true ∨ 0 < weigh finisher owing ∨
    0 < weigh carrier owing ∨ planned s.plan = 1

theorem level_of_carrier {top : Nat} {owing : Multiset Section}
    (none : weigh carrier owing = 0) : weigh (level top) owing = 0 := by
  rw [weigh_eq_zero_iff] at none ⊢
  intro a member
  have zero := none a member
  cases a <;> first | rfl | cases zero

theorem planLevel_of_planned {top : Nat} {p : Option Plan} (none : planned p = 0) :
    planLevel top p = 0 := by
  cases p with
  | none => rfl
  | some p => cases none

theorem plan_level (top : Nat) (x : Call) : min (x.plan top).start top ≤ x.layer top := by
  cases x <;> simp [Call.plan, Call.layer, Call.fromAbove]

theorem marks_exec {top : Nat} {c : Choice} {a : Section} {s : Stack} {others : Multiset Section}
    (allowed : Undisputed c a s) (held : Marks top s (a ::ₘ others)) :
    Marks top (exec top c a s).1 (↑(exec top c a s).2 + others) := by
  have alone : carrier a = 1 → weigh (level top) others = 0 ∧ planLevel top s.plan = 0 := by
    intro one
    have single := held.single
    rw [weigh_cons, one] at single
    exact ⟨level_of_carrier (by omega), planLevel_of_planned (by omega)⟩
  have vacant : s.phase.over = false →
      weigh (level top) others = 0 ∧ planLevel top s.plan = 0 := by
    intro free
    obtain ⟨unplanned, none, _⟩ := held.unclaimed free
    rw [weigh_cons] at none
    exact ⟨level_of_carrier (by omega), planLevel_of_planned unplanned⟩
  rw [marks_iff] at held ⊢
  simp only [weigh_cons, weigh_add, weigh_coe] at held ⊢
  -- A carrier has no other carrier beside it, so what it marks lies above every level that counts.
  cases a
  all_goals
    dsimp only [exec, execCall, execRequest, execWalk, execTurn, execFail, Undisputed, carrier, level]
      at allowed alone held ⊢
  all_goals repeat' split
  all_goals simp only [sum_map_cons, sum_map_nil]
  all_goals try dsimp only [carrier, level]
  all_goals simp only [Nat.add_zero, Nat.zero_add] at held ⊢
  all_goals try exact held
  all_goals
    grind -ring -linarith [planned, planLevel, Below, Phase.over, Function.update, plan_level]

theorem driven_exec {top : Nat} {c : Choice} {a : Section} {s : Stack} {others : Multiset Section}
    (ready : ready a s = true) (allowed : Undisputed c a s) (marks : Marks top s (a ::ₘ others))
    (held : Driven s (a ::ₘ others)) :
    Driven (exec top c a s).1 (↑(exec top c a s).2 + others) := by
  have turns : weigh turning others ≤ weigh taker others :=
    weigh_le (fun a => by cases a <;> first | exact Nat.le_refl _ | exact Nat.zero_le _) others
  have wakes : weigh waking others ≤ weigh taker others :=
    weigh_le (fun a => by cases a <;> first | exact Nat.le_refl _ | exact Nat.zero_le _) others
  have closes : weigh closer others ≤ weigh finisher others :=
    weigh_le (fun a => by cases a <;> first | exact Nat.le_refl _ | exact Nat.zero_le _) others
  have claimed : planned s.plan = 1 → s.phase.over = true := by
    intro one
    by_contra free
    have none := (marks.unclaimed (by simpa using free)).1
    omega
  have clear := marks.clear
  -- A section that leads to the plan leaves another such section behind, unless it took the plan;
  -- a request that is dropped finds a turn inside or one asked for.
  rw [driven_iff] at held ⊢
  simp only [weigh_cons, weigh_add, weigh_coe] at held clear ⊢
  cases a
  all_goals
    dsimp only [exec, execCall, execRequest, execWalk, execTurn, execFail, Undisputed, carrier, level,
      turning, waking, taker, finisher, closer, LayerClose.ready] at allowed ready held clear ⊢
  all_goals repeat' split
  all_goals simp only [sum_map_cons, sum_map_nil]
  all_goals try dsimp only [carrier, turning, waking, taker, finisher, closer]
  all_goals simp only [Nat.add_zero, Nat.zero_add] at held ⊢
  all_goals try exact held
  all_goals
    grind -ring -linarith [planned, Below, Phase.over, Phase.closedStack, Phase.noLayerCalls]

section Runs
variable {top : Nat} {q : Pool Stack Section}

theorem marks_run (run : Run (program top) Undisputed ⟨Stack.fresh, []⟩ q) :
    Marks top q.state (owed q) := by
  refine owed_invariant (Marks top) ?_ ?_ ?_ run
  · refine ⟨fun _ => ⟨rfl, rfl, fun _ => rfl⟩, by decide, fun j _ => rfl⟩
  · intro s others a entry held
    have plain : carrier a = 0 ∧ level top a = 0 := by
      cases a <;> first | exact ⟨rfl, rfl⟩ | cases entry
    rw [marks_iff] at held ⊢
    simpa only [weigh_cons, plain, Nat.zero_add] using held
  · intro s others a c _ allowed held
    exact marks_exec allowed held

theorem driven_run (run : Run (program top) Undisputed ⟨Stack.fresh, []⟩ q) :
    Driven q.state (owed q) := by
  refine owed_invariant_given (Marks top) Driven (fun _ => marks_run) ?_ ?_ ?_ run
  · refine ⟨?_, ?_, ?_, ?_, ?_, ?_⟩ <;> (intro h; cases h)
  · intro s others a _ held
    rw [driven_iff] at held ⊢
    simp only [weigh_cons]
    grind -ring -linarith
  · intro s others a c ready allowed marks held
    exact driven_exec ready allowed marks held

end Runs

/-- No thread is inside a close call, a walk, a turn or a request for one, and none is owed. -/
def Idle (q : Pool Stack Section) : Prop :=
  owed q = 0 ∧ q.state.turnAsked = false ∧ q.state.woken = false

theorem close_reaches_socket {top : Nat} {q : Pool Stack Section}
    (run : Run (program top) Undisputed ⟨Stack.fresh, []⟩ q)
    (closing : q.state.phase.over = true) (idle : Idle q) : q.state.socketClosing = true := by
  obtain ⟨nothing, unasked, asleep⟩ := idle
  have driven := driven_run run
  have carried := driven.carried closing
  simp only [nothing, weigh_zero] at carried
  have planned : q.state.socketClosing = true ∨ planned q.state.plan = 1 := by
    simpa using carried
  cases planned with
  | inl done => exact done
  | inr one =>
    have taken := driven.taken one
    simpa [nothing, asleep] using taken

def unfailing : Section → Bool
  | .failClaim _ _ => false
  | _ => true

theorem unfailing_undisputed (c : Choice) (a : Section) (s : Stack) (safe : unfailing a = true) :
    Undisputed c a s := by
  cases a <;> trivial

/-- The stack opens and its Handler calls `CloseWith`; the next turn walks the layers. -/
def plainClose : List (Move Section Choice) :=
  List.flatten [[.start .onOpen], runs 0 10 .quiet, [.start (.call (.closeWith .none))],
    runs 1 7 .quiet, [.start .turn], runs 2 20 .quiet]

theorem close_reaches_socket_plain :
    ∃ q, (Run (program 1) Undisputed ⟨Stack.fresh, []⟩ q ∧ q.state.phase.over = true ∧ Idle q) ∧
      q.state.socketClosing = true := by
  obtain ⟨q, run, checked⟩ := replay_runs (P := program 1) (p := ⟨Stack.fresh, []⟩)
    unfailing_undisputed
    (fun q => q.state.phase.over && (q.threads.all List.isEmpty && !q.state.turnAsked &&
      !q.state.woken)) plainClose (by decide +kernel) (by decide +kernel)
  simp only [Bool.and_eq_true, Bool.not_eq_true'] at checked
  have idle : Idle q := ⟨owed_eq_zero checked.2.1.1, checked.2.1.2, checked.2.2⟩
  exact ⟨q, ⟨run, checked.1, idle⟩, close_reaches_socket run checked.1 idle⟩

/-- A turn ends with `io.EOF` and finds the stack open; the lower layer's own close then
    claims it, marks that layer and stores its plan, which the turn replaces by its own. The
    turn's walk stops at the marked layer, and its end is graceful, so nobody closes the socket. -/
def stoppedWalk : List (Move Section Choice) :=
  List.flatten [[.start .onOpen], runs 0 10 .quiet, [.start .turn], runs 1 5 .quiet,
    [.run 1 { fault := some .eof }], runs 1 1 .quiet, [.start (.call (.close 0 .none))],
    runs 2 4 .quiet, runs 1 11 .quiet, runs 2 3 .quiet, [.start .turn], runs 3 7 .quiet]

theorem close_stopped_short : ∃ q, Reachable (program 1) ⟨Stack.fresh, []⟩ q ∧
    q.state.phase = .closing ∧ Idle q ∧ q.state.socketClosing = false := by
  obtain ⟨q, run, checked⟩ := replay_reaches (P := program 1) (p := ⟨Stack.fresh, []⟩) stoppedWalk
    (fun q => decide (q.state.phase = .closing) && (q.threads.all List.isEmpty &&
      !q.state.turnAsked && !q.state.woken) && !q.state.socketClosing) (by decide +kernel)
  simp only [Bool.and_eq_true, Bool.not_eq_true', decide_eq_true_eq] at checked
  obtain ⟨⟨closing, ⟨empty, unasked⟩, asleep⟩, open_⟩ := checked
  exact ⟨q, run, closing, ⟨owed_eq_zero empty, unasked, asleep⟩, open_⟩

end LayerReach
