import Uio.Interleaving

/- The deadlines of a connection against the timers they arm. A timer's goroutine reads the
   generation it was armed for and what stands now under the lock, and decides after it has
   let the lock go. A timer may fire at any time, and an absent deadline is the zero time. -/
namespace ConnDeadlines
open Interleaving

inductive Kind where
  | read
  | write
  deriving DecidableEq

/-- A requested close: the deadline it is for, if it is for one, what that deadline was when
    the close was requested, and when that was. -/
structure Request where
  cause : Option Kind
  stood : Option Nat
  time : Nat
  deriving DecidableEq

structure Conn where
  made : Bool := false
  generation : Kind → Nat := fun _ => 0
  deadline : Kind → Option Nat := fun _ => none
  timerGen : Kind → Nat := fun _ => 0
  closing : Option Request := none
  clock : Nat := 0

inductive Section where
  | tick (n : Nat)
  | setDeadline (kinds : Kind → Bool) (deadline : Option Nat)
  | applyDeadline (kinds : Kind → Bool) (deadline : Option Nat)
  | expireDeadline (k : Kind)
  | handleTimeout (k : Kind) (generation : Nat)
  | decide (k : Kind) (generation current : Nat) (deadline : Option Nat)
  | beginClose (cause : Option (Kind × Nat))

def Conn.apply (s : Conn) (kinds : Kind → Bool) (deadline : Option Nat) : Conn :=
  { s with
    made := true
    generation := fun k => if kinds k then s.generation k + 1 else s.generation k
    deadline := fun k => if kinds k then deadline else s.deadline k
    timerGen := fun k => if kinds k then s.generation k + 1 else s.timerGen k }

def exec (_ : Unit) : Section → Conn → Conn × List Section
  | .tick n, s => ({ s with clock := s.clock + n }, [])
  | .setDeadline kinds deadline, s =>
    (s, if s.closing.isSome then [] else [.applyDeadline kinds deadline])
  | .applyDeadline kinds deadline, s =>
    if s.made = false ∧ deadline = none then (s, []) else (s.apply kinds deadline, [])
  | .expireDeadline k, s =>
    if s.closing.isSome ∨ s.made = false then (s, []) else (s, [.handleTimeout k (s.timerGen k)])
  | .handleTimeout k generation, s =>
    if s.closing.isSome ∨ s.made = false then (s, [])
    else (s, [.decide k generation (s.generation k) (s.deadline k)])
  | .decide k generation current deadline, s =>
    if generation = current ∧ deadline.any (· ≤ s.clock) then (s, [.beginClose (some (k, current))])
    else (s, [])
  | .beginClose cause, s =>
    if s.closing.isSome then (s, [])
    else
      ({ s with
        closing := some ⟨cause.map Prod.fst, cause.bind fun c => s.deadline c.1, s.clock⟩ }, [])

def entry : Section → Bool
  | .tick _ | .setDeadline _ _ | .expireDeadline _ | .beginClose none => true
  | _ => false

def program : Program Conn Section Unit := ⟨entry, fun _ _ => true, exec⟩

/-- No call for a kind comes between what its timer read and the close it asks for. -/
def undisturbed (_ : Unit) : Section → Conn → Bool
  | .beginClose (some (k, current)), s => s.generation k == current
  | _, _ => true

def Due (s : Conn) : Prop :=
  ∀ r k, s.closing = some r → r.cause = some k → ∃ d, r.stood = some d ∧ d ≤ r.time

def Read (s : Conn) : Section → Prop
  | .decide k _ current deadline =>
    current ≤ s.generation k ∧ (current = s.generation k → deadline = s.deadline k)
  | .beginClose (some (k, current)) => current ≤ s.generation k ∧
      (current = s.generation k → ∃ d, s.deadline k = some d ∧ d ≤ s.clock)
  | _ => True

theorem read_later {s : Conn} (n : Nat) (b : Section) (read : Read s b) :
    Read { s with clock := s.clock + n } b := by
  cases b with
  | beginClose cause =>
    cases cause with
    | none => trivial
    | some seen =>
      refine ⟨read.1, fun same => ?_⟩
      obtain ⟨d, stands, past⟩ := read.2 same
      exact ⟨d, stands, Nat.le_add_right_of_le past⟩
  | _ => exact read

theorem read_applied {s : Conn} (kinds : Kind → Bool) (deadline : Option Nat) (b : Section)
    (read : Read s b) : Read (s.apply kinds deadline) b := by
  have passed : ∀ {k : Kind} {current : Nat} {P Q : Prop},
      current ≤ s.generation k ∧ (current = s.generation k → P) → (kinds k = false → P → Q) →
      current ≤ (s.apply kinds deadline).generation k ∧
        (current = (s.apply kinds deadline).generation k → Q) := by
    intro k current P Q read kept
    simp only [Conn.apply]
    split_ifs with moved
    · exact ⟨Nat.le_succ_of_le read.1, fun same => absurd (same ▸ read.1) (Nat.not_succ_le_self _)⟩
    · exact ⟨read.1, fun same => kept (Bool.eq_false_iff.mpr moved) (read.2 same)⟩
  cases b with
  | decide k _ current d => exact passed read fun kept => by simp [Conn.apply, kept]
  | beginClose cause =>
    cases cause with
    | none => trivial
    | some seen => exact passed read fun kept => by simp [Conn.apply, kept]
  | _ => trivial

theorem due_run {q : Pool Conn Section} (run : Run program (undisturbed · · · = true) ⟨{}, []⟩ q) :
    Due q.state ∧ ∀ a ∈ owed q, Read q.state a := by
  refine owed_carries Due Read (by rintro r k ⟨⟩) (by rintro _ ⟨⟩) ?_ ?_ run
  · intro s a _ allowed
    match a, allowed with
    | .tick _, _ | .setDeadline .., _ | .expireDeadline _, _ | .beginClose none, _ => trivial
  · intro s a c _ still due read
    cases a with
    | tick n => exact ⟨due, read_later n, nofun⟩
    | setDeadline kinds deadline =>
      refine ⟨due, fun _ read => read, fun b later => ?_⟩
      simp only [program, exec] at later
      split_ifs at later
      · cases later
      · cases List.mem_singleton.mp later
        trivial
    | applyDeadline kinds deadline =>
      simp only [program, exec]
      split_ifs
      · exact ⟨due, fun _ read => read, nofun⟩
      · exact ⟨due, read_applied kinds deadline, nofun⟩
    | expireDeadline k | handleTimeout k generation =>
      simp only [program, exec]
      split_ifs
      · exact ⟨due, fun _ read => read, nofun⟩
      · exact ⟨due, fun _ read => read, List.forall_mem_singleton.mpr (by simp [Read])⟩
    | decide k generation current deadline =>
      simp only [program, exec]
      split_ifs with passed
      · refine ⟨due, fun _ read => read, List.forall_mem_singleton.mpr ⟨read.1, fun same => ?_⟩⟩
        obtain ⟨d, stood, past⟩ := (Option.any_eq_true _ _).mp passed.2
        exact ⟨d, (read.2 same).symm.trans stood, of_decide_eq_true past⟩
      · exact ⟨due, fun _ read => read, nofun⟩
    | beginClose cause =>
      simp only [program, exec]
      split_ifs
      · exact ⟨due, fun _ read => read, nofun⟩
      · refine ⟨?_, fun b read => ?_, nofun⟩
        · rintro r k ⟨⟩ named
          obtain ⟨⟨_, current⟩, rfl, rfl⟩ := Option.map_eq_some_iff.mp named
          exact read.2 (beq_iff_eq.mp still).symm
        · cases b <;> exact read

theorem deadline_close_is_due {q : Pool Conn Section}
    (run : Run program (undisturbed · · · = true) ⟨{}, []⟩ q)
    {r : Request} {k : Kind} (closed : q.state.closing = some r) (cause : r.cause = some k) :
    ∃ d, r.stood = some d ∧ d ≤ r.time :=
  (due_run run).1 r k closed cause

theorem deadline_close_is_due_read : ∃ q, Run program (undisturbed · · · = true) ⟨{}, []⟩ q ∧
    ∃ r, q.state.closing = some r ∧ ∃ d, r.stood = some d ∧ d ≤ r.time := by
  obtain ⟨q, run, closed⟩ := replay_meets (P := program) (p := ⟨{}, []⟩) (fun _ _ _ still => still)
    (fun q => decide (q.state.closing = some ⟨some .read, some 5, 5⟩))
    [.start (.setDeadline (· == .read) (some 5)), .run 0 (), .run 0 (), .start (.tick 5), .run 1 (),
      .start (.expireDeadline .read), .run 2 (), .run 2 (), .run 2 (), .run 2 ()] rfl
    (show meets _ undisturbed _ _ = true from rfl)
  exact ⟨q, run, _, of_decide_eq_true closed, deadline_close_is_due run (of_decide_eq_true closed) rfl⟩

/-- The deadline is cleared after the timer's goroutine has read it. -/
theorem cleared_deadline_closes : ∃ q, Reachable program ⟨{}, []⟩ q ∧
    q.state.closing = some ⟨some .read, none, 5⟩ := by
  obtain ⟨q, reached, closed⟩ := replay_reaches (P := program) (p := ⟨{}, []⟩)
    [.start (.setDeadline (· == .read) (some 5)), .run 0 (), .run 0 (), .start (.tick 5), .run 1 (),
      .start (.expireDeadline .read), .run 2 (), .run 2 (), .start (.setDeadline (· == .read) none),
      .run 3 (), .run 3 (), .run 2 (), .run 2 ()]
    (fun q => decide (q.state.closing = some ⟨some .read, none, 5⟩)) rfl
  exact ⟨q, reached, of_decide_eq_true closed⟩

end ConnDeadlines
