import Uio.Bridge.Wakeups

/-!
What a clean OnClose leaves of its partner. It closes the pair, clears the partner's
waiting mark and releases its pause; OnRead looks at the pair's closed mark first and
sets the waiting mark much later. When the mark is cleared between the two, OnRead sets
it again, takes it for a drain to come, and keeps its pause.
-/
namespace BridgeOrphans
open Interleaving Monitor BridgePair BridgeWakeups

variable {limit : Int} {c : Choice} {s s' : State} {x : Side} {a b : Section} {l l' : Leg}
  {act : Act} {acts : List Act} {more : List Section} {closed closed' : Bool}
  {others owing : Multiset Section}

def unmarked : Act → Bool
  | .loadDrains | .look _ | .forward _ | .refused _ | .forwardPrefix _ | .inboundCheck _
  | .mark _ => true
  | _ => false

/-- The partner's OnClose clears the waiting mark only while no OnRead is between its look
    at the closed mark and its own waiting mark. -/
def Clear (_ : Choice) (a : Section) (s : State) : Prop :=
  a.act = .closeUnmark → (s.leg a.side).marking = false

def marks (x : Side) : Guarded State Section :=
  ⟨fun _ => True, fun s a => unmarked a.act = true → (s.leg x).marking = true⟩

theorem turn_marks (turned : Turn closed l act closed' l' acts) (mine : reading act = true)
    (known : unmarked act = true → l.marking = true) :
    ∀ next ∈ acts, unmarked next = true → l'.marking = true := by
  intro next member on
  cases turned
  case paired => rfl
  all_goals first
    | (cases mine; done)
    | exact absurd member List.not_mem_nil
    | (rw [List.mem_singleton.mp member] at on; cases on; done)
    | exact known rfl

theorem turn_marking (turned : Turn closed l act closed' l' acts) (outside : reading act = false) :
    l'.marking = l.marking := by
  cases turned <;> first | rfl | cases outside

theorem turn_unmarked {next : Act} (turned : Turn closed l act closed' l' acts)
    (outside : reading act = false) (member : next ∈ acts) : unmarked next = false := by
  cases turned
  all_goals first
    | (cases outside; done)
    | exact absurd member List.not_mem_nil
    | (rw [List.mem_singleton.mp member]; rfl)

structure Parted (closed : Bool) (l : Leg) : Prop where
  released : l.released = true → closed = true ∧ l.marking = false ∧ l.waiting = false
  freed : l.freed = true → l.released = true
  orphaned : l.orphaned = true → l.freed = true

def Closing (closed : Bool) (l : Leg) : Act → Prop
  | .closeUnmark => closed = true
  | .closePaused | .closeResume => l.released = true
  | .closeWake => l.freed = true
  | _ => True

theorem turn_parted (turned : Turn closed l act closed' l' acts)
    (clear : act = .closeUnmark → l.marking = false)
    (known : unmarked act = true → l.marking = true) (held : Parted closed l)
    (mine : Closing closed l act) : Parted closed' l' := by
  obtain ⟨released, freed, orphaned⟩ := held
  cases turned
  case paired opened =>
    refine ⟨?_, freed, orphaned⟩
    intro on
    exact absurd (opened.symm.trans (released on).1) (by decide)
  case mark =>
    refine ⟨?_, freed, orphaned⟩
    intro on
    exact absurd ((known rfl).symm.trans (released on).2.1) (by decide)
  case unmark => exact ⟨fun on => ⟨(released on).1, rfl, rfl⟩, freed, orphaned⟩
  case claims => exact ⟨fun on => ⟨(released on).1, (released on).2.1, rfl⟩, freed, orphaned⟩
  case closedAlready | closes => exact ⟨fun on => ⟨rfl, (released on).2⟩, freed, orphaned⟩
  case closeUnmark => exact ⟨fun _ => ⟨mine, clear rfl, rfl⟩, fun _ => rfl, orphaned⟩
  case closeUnpaused | closeResume => exact ⟨released, fun _ => mine, fun _ => rfl⟩
  case closeWake => exact ⟨released, freed, fun _ => mine⟩
  all_goals first
    | exact ⟨released, freed, orphaned⟩
    | exact ⟨fun on => ⟨(released on).1, rfl, (released on).2.2⟩, freed, orphaned⟩

theorem turn_closing (turned : Turn closed l act closed' l' acts) (mine : Closing closed l act) :
    ∀ next ∈ acts, Closing closed' l' next := by
  intro next member
  cases turned
  all_goals first
    | exact absurd member List.not_mem_nil
    | (rw [List.mem_singleton.mp member]; trivial)

theorem Closing.ages (closing : Closing closed l act) (closes : closed = true → closed' = true)
    (released : l.released = true → l'.released = true) (freed : l.freed = true → l'.freed = true) :
    Closing closed' l' act := by
  cases act
  case closeUnmark => exact closes closing
  case closePaused | closeResume => exact released closing
  case closeWake => exact freed closing
  all_goals trivial

theorem turn_ages (turned : Turn closed l act closed' l' acts) :
    (closed = true → closed' = true) ∧ (l.released = true → l'.released = true) ∧
      (l.freed = true → l'.freed = true) := by
  cases turned
  case closedAlready | closes => exact ⟨fun _ => rfl, id, id⟩
  case closeUnmark => exact ⟨id, fun _ => rfl, id⟩
  case closeUnpaused | closeResume => exact ⟨id, id, fun _ => rfl⟩
  all_goals exact ⟨id, id, id⟩

def holding : Act → Bool
  | .holdLook | .holdResume => true
  | _ => false

def pauses (x : Side) : Guarded State Section :=
  ⟨fun s => (s.leg x).freed = true → (s.leg x).paused = false,
    fun s a => (s.leg x).freed = true → (s.leg x).paused = true → holding a.act = true⟩

theorem turn_pauses (turned : Turn closed l act closed' l' acts) (mine : reading act = true)
    (locked : l.busy = true) (parted : Parted closed l)
    (known : l.freed = true → l.paused = true → holding act = true) :
    (l'.busy = false → l'.freed = true → l'.paused = false) ∧
      ∀ next ∈ acts, l'.freed = true → l'.paused = true → holding next = true := by
  have unmarked : l.freed = true → l.waiting = false := fun on =>
    (parted.released (parted.freed on)).2.2
  cases turned
  all_goals first
    | (cases mine; done)
    | simp only [List.mem_singleton, List.not_mem_nil, forall_eq, holding, Leg.limited, Leg.returns,
        Leg.fails, Leg.wake, Leg.resume] at known ⊢
      grind -ring -linarith

theorem turn_unpauses (turned : Turn closed l act closed' l' acts) (outside : reading act = false)
    (freed : l'.freed = true) (paused : l'.paused = true) : l.freed = true ∧ l.paused = true := by
  cases turned
  case closeUnpaused free => exact absurd (free.symm.trans paused) (by decide)
  case drainResume | closeResume => cases paused
  all_goals first
    | (cases outside; done)
    | exact ⟨freed, paused⟩

section Runs

variable {q : Pool State Section}

theorem marks_kept {ok : Choice → Section → State → Prop}
    (run : Run (program limit) ok start q) : (marks x).Kept (serial x) q.state (owed q) := by
  refine leg_guarded (fun _ => True) (fun _ _ => trivial) trivial
    (fun turned _ mine _ known => ⟨fun _ => trivial, turn_marks turned mine known⟩)
    (fun turned idle _ => ⟨trivial, fun next pushes _ on => ?_⟩)
    (fun turned idle _ known on => (turn_marking turned idle).trans (known on)) run
  rw [turn_unmarked turned idle pushes] at on
  cases on

theorem parted_run (run : Run (program limit) Clear start q) :
    Parted q.state.closed (q.state.leg x) ∧
      ∀ a ∈ owed q, a.side = x → Closing q.state.closed (q.state.leg x) a.act := by
  refine owed_invariant_given (fun s owing => (marks x).Kept (serial x) s owing)
    (fun s owing => Parted s.closed (s.leg x) ∧
      ∀ a ∈ owing, a.side = x → Closing s.closed (s.leg x) a.act)
    (fun r before => marks_kept before) ?_ ?_ ?_ run
  · exact ⟨⟨nofun, nofun, nofun⟩,
      fun b member => absurd member (Multiset.notMem_zero b)⟩
  · intro s others a entered held
    refine ⟨held.1, Multiset.forall_mem_cons.mpr ⟨fun _ => ?_, held.2⟩⟩
    obtain ⟨y, act⟩ := a
    cases act <;> trivial
  · intro s others a c allowed clear kept held
    have first := Multiset.mem_cons_self a others
    cases exec_seen limit c s x a allowed with
    | own acts same turned pushed =>
      have mine := held.2 a first same
      have known : unmarked a.act = true → (s.leg x).marking = true := by
        intro on
        refine kept.2 a first ?_ on
        have reads : reading a.act = true := by
          cases kind : a.act <;> rw [kind] at on <;> first | rfl | cases on
        simp [serial, BridgeWakeups.reads, same, reads]
      have clear : a.act = .closeUnmark → (s.leg x).marking = false := by
        rw [← same]
        exact clear
      obtain ⟨closes, released, freed⟩ := turn_ages turned
      refine ⟨turn_parted turned clear known held.1 mine, ?_⟩
      rw [show ((program limit).exec c a s).2 = _ from pushed]
      refine forall_pushed (List.forall_mem_map.mpr fun next pushes _ => ?_) fun b other side =>
        (held.2 b (Multiset.mem_cons_of_mem other) side).ages closes released freed
      exact turn_closing turned mine next pushes
    | other off same closes pushed =>
      have same : ((program limit).exec c a s).1.leg x = s.leg x := same
      rw [same]
      refine ⟨⟨fun on => ⟨closes (held.1.released on).1, (held.1.released on).2⟩, held.1.freed,
        held.1.orphaned⟩, ?_⟩
      exact forall_pushed (fun b mine side => absurd side (pushed b mine)) fun b other side =>
        (held.2 b (Multiset.mem_cons_of_mem other) side).ages closes id id

theorem pauses_kept (run : Run (program limit) Clear start q) :
    (pauses x).Kept (serial x) q.state (owed q) := by
  refine leg_guarded (fun s => Parted s.closed (s.leg x)) (fun _ before => (parted_run before).1)
    (fun _ => rfl) (fun turned parted mine locked known => turn_pauses turned mine locked parted known)
    ?_ ?_ run
  · intro closed l act closed' l' acts turned idle free
    have unpaused : l'.freed = true → l'.paused = true → False := by
      intro freed paused
      obtain ⟨freed, paused⟩ := turn_unpauses turned idle freed paused
      exact absurd ((free freed).symm.trans paused) (by decide)
    exact ⟨fun freed => Bool.of_not_eq_true (unpaused freed),
      fun next _ _ freed paused => (unpaused freed paused).elim⟩
  · intro closed l act closed' l' acts turned idle b known freed paused
    obtain ⟨freed, paused⟩ := turn_unpauses turned idle freed paused
    exact known freed paused

/-- When every clean OnClose is clear of its partner's OnRead, a leg whose partner's OnClose
    and whose own OnRead have finished is not paused by the bridge. -/
theorem orphan_not_paused (limit : Int) (x : Side) (q : Pool State Section)
    (run : Run (program limit) Clear start q) (orphaned : (q.state.leg x).orphaned = true)
    (returned : (q.state.leg x).busy = false) : (q.state.leg x).paused = false :=
  (pauses_kept run).1 returned ((parted_run run).1.orphaned orphaned)

end Runs

def clear (_ : Choice) (a : Section) (s : State) : Bool :=
  match a.act with
  | .closeUnmark => !(s.leg a.side).marking
  | _ => true

theorem clear_sound (c : Choice) (a : Section) (s : State) (passed : clear c a s = true) :
    Clear c a s := by
  intro unmarks
  simpa [clear, unmarks] using passed

theorem orphan_not_paused_released : ∃ q, (Run (program 4) Clear start q ∧
    (q.state.leg .a).orphaned = true ∧ (q.state.leg .a).attempts = 1) ∧
    (q.state.leg .a).paused = false := by
  obtain ⟨q, run, checked⟩ := replay_meets clear_sound
    (fun q => decide ((q.state.leg .a).orphaned = true ∧ (q.state.leg .a).attempts = 1 ∧
      (q.state.leg .a).busy = false))
    (List.flatten [pausedLeg, [.start ⟨.a, .onClose true⟩], runs 3 5 {}])
    (P := program 4) (p := start) (by decide +kernel) (by decide +kernel)
  obtain ⟨orphaned, attempts, returned⟩ := of_decide_eq_true checked
  exact ⟨q, ⟨run, orphaned, attempts⟩, orphan_not_paused 4 .a q run orphaned returned⟩

/-- The partner closes while OnRead, finding the queue full, is about to set its mark. -/
theorem orphan_left_paused : ∃ q, Reachable (program 4) start q ∧
    (q.state.leg .a).orphaned = true ∧ owed q = 0 ∧ (q.state.leg .a).paused = true := by
  obtain ⟨q, reached, checked⟩ := replay_reaches (P := program 4) (p := start)
    (List.flatten [[.start ⟨.a, .enqueue⟩], runs 0 1 { bytes := 8 }, [.start ⟨.a, .receive⟩],
      runs 1 1 { bytes := 5 }, [.start ⟨.a, .onRead⟩], runs 2 4 {},
      [.start ⟨.a, .onClose true⟩], runs 3 5 {}, runs 2 5 {}])
    (fun q => decide ((q.state.leg .a).orphaned = true ∧ q.threads.all List.isEmpty = true ∧
      (q.state.leg .a).paused = true)) (by decide +kernel)
  obtain ⟨orphaned, idle, paused⟩ := of_decide_eq_true checked
  exact ⟨q, reached, orphaned, owed_eq_zero idle, paused⟩

end BridgeOrphans
