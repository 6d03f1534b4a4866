import Uio.Interleaving

/-!
Data behind one mutex. Which sections run holding it is read off the section, so
that at most one of them is owed at a time; what the holder knows of the data is
then its own business, and what holds while the mutex is free passes to whoever
takes it next.
-/
namespace Monitor
open Interleaving
variable {σ α χ : Type}

structure Mutex (σ α : Type) where
  locked : σ → Bool
  holds : α → Bool

def Mutex.grip (m : Mutex σ α) (a : α) : Nat := (m.holds a).toNat

def Mutex.taken (m : Mutex σ α) (s : σ) : Nat := (m.locked s).toNat

theorem exists_of_weigh_pos {w : α → Nat} {owing : Multiset α} (positive : 0 < weigh w owing) :
    ∃ a ∈ owing, 0 < w a := by
  by_contra none
  have weightless : weigh w owing = 0 := by
    rw [weigh_eq_zero_iff]
    intro a member
    by_contra heavy
    exact none ⟨a, member, Nat.pos_of_ne_zero heavy⟩
  omega

/-- The mutex is handed from section to section and never doubled. -/
def Mutex.Handed (m : Mutex σ α) (P : Program σ α χ) : Prop :=
  ∀ c a s, P.ready a s = true → m.grip a ≤ m.taken s →
    m.grip a + m.taken (P.exec c a s).1 = m.taken s + ((P.exec c a s).2.map m.grip).sum

/-- What the holder knows, and what holds while nobody holds the mutex. -/
structure Guarded (σ α : Type) where
  free : σ → Prop
  knows : σ → α → Prop

def Guarded.Kept (g : Guarded σ α) (m : Mutex σ α) (s : σ) (more : Multiset α) : Prop :=
  (m.locked s = false → g.free s) ∧ ∀ a ∈ more, m.holds a = true → g.knows s a

variable {P : Program σ α χ} {ok : χ → α → σ → Prop} {p q : Pool σ α} {m : Mutex σ α}
  {g : Guarded σ α}

theorem exclusive (handed : m.Handed P) (calls : ∀ a, P.entry a = true → m.holds a = false)
    (initial : m.taken p.state = weigh m.grip (owed p)) (run : Run P ok p q) :
    m.taken q.state = weigh m.grip (owed q) := by
  refine owed_invariant (fun s owing => m.taken s = weigh m.grip owing) initial ?_ ?_ run
  · intro s others a entry held
    rw [weigh_cons, Mutex.grip, calls a entry, held]
    exact (Nat.zero_add _).symm
  · intro s others a c ready _ held
    rw [weigh_cons] at held
    have balance := handed c a s ready (by omega)
    rw [weigh_add, weigh_coe]
    omega

theorem taken_le (m : Mutex σ α) (s : σ) : m.taken s ≤ 1 := by
  exact Bool.toNat_le (m.locked s)

theorem unlocked_of_taken {s : σ} (none : m.taken s = 0) : m.locked s = false :=
  Bool.toNat_eq_zero.mp none

theorem unheld_of_weightless {owing : Multiset α} (none : weigh m.grip owing = 0) :
    ∀ b ∈ owing, m.holds b = false := by
  intro b member
  exact Bool.toNat_eq_zero.mp ((weigh_eq_zero_iff m.grip owing).mp none b member)

theorem locked_of_held {s : σ} {a : α} {others : Multiset α}
    (one : m.taken s = weigh m.grip (a ::ₘ others)) (holder : m.holds a = true) :
    m.locked s = true := by
  rw [weigh_cons, Mutex.grip, holder, Bool.toNat_true] at one
  apply Bool.of_not_eq_false
  intro unlocked
  rw [Mutex.taken, unlocked, Bool.toNat_false] at one
  omega

/-- While one section holds the mutex, no other one does. -/
theorem alone {s : σ} {a : α} {others : Multiset α}
    (one : m.taken s = weigh m.grip (a ::ₘ others)) (holder : m.holds a = true) :
    ∀ b ∈ others, m.holds b = false := by
  have most := taken_le m s
  rw [one, weigh_cons, Mutex.grip, holder, Bool.toNat_true] at most
  have none : weigh m.grip others = 0 := by omega
  exact unheld_of_weightless none

/-- While the mutex is free, no section holds it. -/
theorem unheld {s : σ} {owing : Multiset α} (one : m.taken s = weigh m.grip owing)
    (free : m.locked s = false) : ∀ b ∈ owing, m.holds b = false := by
  have none : weigh m.grip owing = 0 := by
    rw [← one, Mutex.taken, free]
    rfl
  exact unheld_of_weightless none

theorem holder_exists {s : σ} {owing : Multiset α} (one : m.taken s = weigh m.grip owing)
    (locked : m.locked s = true) : ∃ a ∈ owing, m.holds a = true := by
  have positive : 0 < weigh m.grip owing := by
    rw [← one, Mutex.taken, locked]
    exact Nat.one_pos
  obtain ⟨a, member, heavy⟩ := exists_of_weigh_pos positive
  refine ⟨a, member, Bool.of_not_eq_false ?_⟩
  intro free
  rw [Mutex.grip, free] at heavy
  exact Nat.lt_irrefl 0 heavy

/-- The rule for what a mutex guards: a holder answers for its own step, the others
    leave what a holder knows alone. Each step may count on what is known of the run. -/
theorem guarded_given (J : σ → Multiset α → Prop) (known : ∀ r, Run P ok p r → J r.state (owed r))
    (handed : m.Handed P) (calls : ∀ a, P.entry a = true → m.holds a = false)
    (vacant : m.taken p.state = weigh m.grip (owed p)) (initial : g.Kept m p.state (owed p))
    (held : ∀ s others a c, P.ready a s = true → ok c a s → J s (a ::ₘ others) →
      m.holds a = true → m.locked s = true → g.knows s a →
      g.Kept m (P.exec c a s).1 ↑(P.exec c a s).2)
    (other : ∀ s others a c, P.ready a s = true → ok c a s → J s (a ::ₘ others) →
      m.holds a = false → g.free s → g.free (P.exec c a s).1)
    (taking : ∀ s others a b c, P.ready a s = true → ok c a s → J s (a ::ₘ others) →
      m.holds a = false → b ∈ (P.exec c a s).2 → m.holds b = true → g.free s →
      g.knows (P.exec c a s).1 b)
    (apart : ∀ s others a b c, P.ready a s = true → ok c a s → J s (a ::ₘ others) →
      m.holds a = false → m.holds b = true → g.knows s b → g.knows (P.exec c a s).1 b)
    (run : Run P ok p q) : g.Kept m q.state (owed q) := by
  refine owed_invariant_given (fun s owing => m.taken s = weigh m.grip owing ∧ J s owing)
    (g.Kept m) (fun r before => ⟨exclusive handed calls vacant before, known r before⟩) initial
    ?_ ?_ run
  · intro s others a entry kept
    refine ⟨kept.1, ?_⟩
    intro b member holder
    rcases Multiset.mem_cons.mp member with rfl | later
    · rw [calls b entry] at holder
      cases holder
    · exact kept.2 b later holder
  · intro s others a c ready allowed facts kept
    obtain ⟨one, facts⟩ := facts
    cases holder : m.holds a with
    | true =>
      have mine := held s others a c ready allowed facts holder (locked_of_held one holder)
        (kept.2 a (Multiset.mem_cons_self a others) holder)
      refine ⟨mine.1, ?_⟩
      intro b member holds
      rcases Multiset.mem_add.mp member with pushed | elsewhere
      · exact mine.2 b pushed holds
      · rw [alone one holder b elsewhere] at holds
        cases holds
    | false =>
      have outside : m.grip a = 0 := Bool.toNat_eq_zero.mpr holder
      have balance := handed c a s ready (by omega)
      refine ⟨?_, ?_⟩
      · intro unlocked
        have vacant : m.taken (P.exec c a s).1 = 0 := Bool.toNat_eq_zero.mpr unlocked
        exact other s others a c ready allowed facts holder
          (kept.1 (unlocked_of_taken (by omega)))
      intro b member holds
      rcases Multiset.mem_add.mp member with pushed | elsewhere
      · have counted := List.single_le_sum (fun x _ => Nat.zero_le x) (m.grip b)
          (List.mem_map_of_mem (f := m.grip) (Multiset.mem_coe.mp pushed))
        have mine : m.grip b = 1 := by rw [Mutex.grip, holds]; rfl
        have most := taken_le m (P.exec c a s).1
        exact taking s others a b c ready allowed facts holder pushed holds
          (kept.1 (unlocked_of_taken (by omega)))
      · exact apart s others a b c ready allowed facts holder holds
          (kept.2 b (Multiset.mem_cons_of_mem elsewhere) holds)

theorem guarded (handed : m.Handed P) (calls : ∀ a, P.entry a = true → m.holds a = false)
    (vacant : m.taken p.state = weigh m.grip (owed p)) (initial : g.Kept m p.state (owed p))
    (held : ∀ s a c, P.ready a s = true → m.holds a = true → m.locked s = true → g.knows s a →
      g.Kept m (P.exec c a s).1 ↑(P.exec c a s).2)
    (other : ∀ s a c, P.ready a s = true → m.holds a = false → g.free s → g.free (P.exec c a s).1)
    (taking : ∀ s a b c, P.ready a s = true → m.holds a = false → b ∈ (P.exec c a s).2 →
      m.holds b = true → g.free s → g.knows (P.exec c a s).1 b)
    (apart : ∀ s a b c, P.ready a s = true → m.holds a = false → m.holds b = true →
      g.knows s b → g.knows (P.exec c a s).1 b) (run : Run P ok p q) : g.Kept m q.state (owed q) :=
  guarded_given (fun _ _ => True) (fun _ _ => trivial) handed calls vacant initial
    (fun s _ a c ready _ _ => held s a c ready) (fun s _ a c ready _ _ => other s a c ready)
    (fun s _ a b c ready _ _ => taking s a b c ready)
    (fun s _ a b c ready _ _ => apart s a b c ready) run

end Monitor
