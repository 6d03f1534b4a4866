import Mathlib

/-!
Interleavings of threads that share one state. A thread is the stack of the
atomic sections it still has to run: executing its head changes the state and
may push further sections. Blocking is `ready`; what the environment decides
(answers of a device, the clock, user code) is the choice given to `exec`.
Order matters inside a thread only, so most invariants speak of the multiset of
sections still owed, and `owed_invariant` is the rule for those.
-/
namespace Interleaving
variable {σ α χ : Type}

structure Program (σ α χ : Type) where
  entry : α → Bool
  ready : α → σ → Bool
  exec : χ → α → σ → σ × List α

structure Pool (σ α : Type) where
  state : σ
  threads : List (List α)

inductive Move (α χ : Type) where
  | start : α → Move α χ
  | run : Nat → χ → Move α χ

def next (P : Program σ α χ) (p : Pool σ α) : Move α χ → Option (Pool σ α)
  | .start a => if P.entry a then some ⟨p.state, p.threads ++ [[a]]⟩ else none
  | .run i c =>
    match p.threads[i]? with
    | some (a :: rest) =>
      if P.ready a p.state then
        some ⟨(P.exec c a p.state).1, p.threads.set i ((P.exec c a p.state).2 ++ rest)⟩
      else none
    | _ => none

def replay (P : Program σ α χ) : Pool σ α → List (Move α χ) → Option (Pool σ α)
  | p, [] => some p
  | p, m :: ms => (next P p m).bind (replay P · ms)

/-- The thread runs its next sections, the environment choosing alike for all of them. -/
def runs (thread count : Nat) (c : χ) : List (Move α χ) := List.replicate count (.run thread c)

/-- `ok` restricts which sections a run may execute, and where. -/
def Allowed (ok : χ → α → σ → Prop) (p : Pool σ α) : Move α χ → Prop
  | .start _ => True
  | .run i c => ∀ a rest, p.threads[i]? = some (a :: rest) → ok c a p.state

inductive Run (P : Program σ α χ) (ok : χ → α → σ → Prop) (p : Pool σ α) : Pool σ α → Prop where
  | here : Run P ok p p
  | step {q r : Pool σ α} (m : Move α χ) (before : Run P ok p q) (allowed : Allowed ok q m)
      (moved : next P q m = some r) : Run P ok p r

def Reachable (P : Program σ α χ) (p q : Pool σ α) : Prop :=
  Run P (fun _ _ _ => True) p q

variable {P : Program σ α χ} {ok : χ → α → σ → Prop} {p q : Pool σ α}

theorem allowed_everywhere (p : Pool σ α) (m : Move α χ) : Allowed (fun _ _ _ => True) p m := by
  cases m with
  | start a => trivial
  | run i c => intro a rest _; trivial

theorem reachable_step {r : Pool σ α} (m : Move α χ)
    (before : Reachable P p q) (moved : next P q m = some r) : Reachable P p r :=
  Run.step m before (allowed_everywhere q m) moved

theorem run_mono {looser : χ → α → σ → Prop}
    (weaker : ∀ c a s, ok c a s → looser c a s) (run : Run P ok p q) : Run P looser p q := by
  induction run with
  | here => exact Run.here
  | @step q _ m before allowed moved ih =>
    refine Run.step m ih ?_ moved
    cases m with
    | start a => trivial
    | run i c =>
      intro a rest found
      exact weaker c a q.state (allowed a rest found)

theorem run_reachable (run : Run P ok p q) : Reachable P p q :=
  run_mono (fun _ _ _ _ => trivial) run

theorem run_trans {r : Pool σ α} (first : Run P ok p q) (second : Run P ok q r) : Run P ok p r := by
  induction second with
  | here => exact first
  | step m before allowed moved ih => exact Run.step m ih allowed moved

theorem replay_reachable (ms : List (Move α χ))
    (done : replay P p ms = some q) : Reachable P p q := by
  induction ms generalizing p with
  | nil =>
    simp only [replay, Option.some.injEq] at done
    subst q
    exact Run.here
  | cons m ms ih =>
    simp only [replay, Option.bind_eq_some_iff] at done
    obtain ⟨r, moved, rest⟩ := done
    exact run_trans (reachable_step m Run.here moved) (ih rest)

/-- A trace that can be replayed ends in a reachable pool. -/
theorem replay_reaches (ms : List (Move α χ))
    (check : Pool σ α → Bool) (done : (replay P p ms).any check = true) :
    ∃ q, Reachable P p q ∧ check q = true := by
  cases replayed : replay P p ms with
  | none =>
    rw [replayed] at done
    cases done
  | some q =>
    rw [replayed] at done
    exact ⟨q, replay_reachable ms replayed, done⟩

/-- The sections that a trace executes. -/
def executed (P : Program σ α χ) : Pool σ α → List (Move α χ) → List α
  | _, [] => []
  | p, .start a :: ms => ((next P p (.start a)).map (executed P · ms)).getD []
  | p, .run i c :: ms =>
    ((p.threads[i]?).bind List.head?).toList ++ ((next P p (.run i c)).map (executed P · ms)).getD []

/-- Every section that a trace executes passes a test of the state it finds. -/
def meets (P : Program σ α χ) (test : χ → α → σ → Bool) : Pool σ α → List (Move α χ) → Bool
  | _, [] => true
  | p, .start a :: ms => ((next P p (.start a)).map (meets P test · ms)).getD true
  | p, .run i c :: ms =>
    ((p.threads[i]?).bind List.head?).all (test c · p.state) &&
      ((next P p (.run i c)).map (meets P test · ms)).getD true

theorem replay_meets {test : χ → α → σ → Bool}
    (sound : ∀ c a s, test c a s = true → ok c a s) (check : Pool σ α → Bool)
    (ms : List (Move α χ)) (done : (replay P p ms).any check = true)
    (safe : meets P test p ms = true) : ∃ q, Run P ok p q ∧ check q = true := by
  induction ms generalizing p with
  | nil => exact ⟨p, Run.here, done⟩
  | cons m ms ih =>
    simp only [replay] at done
    cases moved : next P p m with
    | none =>
      rw [moved] at done
      cases done
    | some r =>
      rw [moved, Option.bind_some] at done
      have allowed : Allowed ok p m ∧ meets P test r ms = true := by
        cases m with
        | start a =>
          simp only [meets, moved, Option.map_some, Option.getD_some] at safe
          exact ⟨trivial, safe⟩
        | run i c =>
          simp only [meets, moved, Option.map_some, Option.getD_some, Bool.and_eq_true] at safe
          refine ⟨?_, safe.2⟩
          intro a rest at_i
          rw [at_i] at safe
          exact sound c a _ (by simpa using safe.1)
      obtain ⟨q, run, checked⟩ := ih done allowed.2
      exact ⟨q, run_trans (Run.step m Run.here allowed.1 moved) run, checked⟩

theorem meets_executed {test : α → Bool} (ms : List (Move α χ))
    (safe : (executed P p ms).all test = true) : meets P (fun _ a _ => test a) p ms = true := by
  induction ms generalizing p with
  | nil => rfl
  | cons m ms ih =>
    cases m with
    | start a =>
      simp only [executed, meets] at safe ⊢
      cases moved : next P p (.start a) with
      | none => rfl
      | some r => exact ih (by rwa [moved] at safe)
    | run i c =>
      simp only [executed, meets, List.all_append, Bool.and_eq_true] at safe ⊢
      refine ⟨by simpa [Option.all_eq_true] using safe.1, ?_⟩
      cases moved : next P p (.run i c) with
      | none => rfl
      | some r => exact ih (by rw [moved] at safe; exact safe.2)

/-- A trace whose sections all pass a test that `ok` follows from is an `ok` run. -/
theorem replay_runs {test : α → Bool} (sound : ∀ c a s, test a = true → ok c a s)
    (check : Pool σ α → Bool) (ms : List (Move α χ)) (done : (replay P p ms).any check = true)
    (safe : (executed P p ms).all test = true) : ∃ q, Run P ok p q ∧ check q = true :=
  replay_meets sound check ms done (meets_executed ms safe)

/-- The thread between `before` and `after` runs its next section. -/
theorem reachable_section {s : σ} {a : α} (rest : List α)
    (before after : List (List α)) (c : χ) (ready : P.ready a s = true) :
    Reachable P ⟨s, before ++ (a :: rest) :: after⟩
      ⟨(P.exec c a s).1, before ++ ((P.exec c a s).2 ++ rest) :: after⟩ := by
  refine reachable_step (.run before.length c) Run.here ?_
  have at_i : (before ++ (a :: rest) :: after)[before.length]? = some (a :: rest) := by simp
  simp only [next, at_i, ready, if_true]
  simp

/-- A new thread runs its first section. -/
theorem reachable_call {s : σ} {a : α} (threads : List (List α)) (c : χ)
    (entry : P.entry a = true) (ready : P.ready a s = true) :
    Reachable P ⟨s, threads⟩ ⟨(P.exec c a s).1, threads ++ [(P.exec c a s).2]⟩ := by
  have started : Reachable P ⟨s, threads⟩ ⟨s, threads ++ [[a]]⟩ :=
    reachable_step (.start a) Run.here (by simp [next, entry])
  have moved := reachable_section [] threads [] c ready
  rw [List.append_nil] at moved
  exact run_trans started moved

/-- The sections that some thread still has to run, in no particular order. -/
def owed (p : Pool σ α) : Multiset α := ↑p.threads.flatten

theorem owed_eq_zero (done : p.threads.all List.isEmpty = true) : owed p = 0 := by
  have empty : p.threads.flatten = [] := by
    rw [List.flatten_eq_nil_iff]
    intro t member
    exact List.isEmpty_iff.mp (List.all_eq_true.mp done t member)
  rw [owed, empty]
  rfl

theorem owed_start (p : Pool σ α) (a : α) : owed ⟨p.state, p.threads ++ [[a]]⟩ = a ::ₘ owed p := by
  simp only [owed, List.flatten_append, List.flatten_singleton]
  exact Multiset.coe_eq_coe.mpr (List.perm_append_singleton a _)

theorem flatten_split {ts : List (List α)} {i : Nat} {t : List α} (at_i : ts[i]? = some t) :
    ∃ before after, ts = before ++ t :: after ∧ ∀ u, ts.set i u = before ++ u :: after := by
  obtain ⟨bound, same⟩ := List.getElem?_eq_some_iff.mp at_i
  refine ⟨ts.take i, ts.drop (i + 1), ?_, ?_⟩
  · rw [← same, List.cons_getElem_drop_succ, List.take_append_drop]
  · intro u
    rw [List.set_eq_take_append_cons_drop, if_pos bound]

theorem owed_exec (p : Pool σ α) {i : Nat} {a : α} {rest : List α}
    (at_i : p.threads[i]? = some (a :: rest)) (s : σ) (more : List α) :
    ∃ others : Multiset α, owed p = a ::ₘ others ∧
      owed ⟨s, p.threads.set i (more ++ rest)⟩ = ↑more + others := by
  obtain ⟨before, after, split, replaced⟩ := flatten_split at_i
  refine ⟨↑(before.flatten ++ (rest ++ after.flatten)), ?_, ?_⟩
  · simp only [owed, split, List.flatten_append, List.flatten_cons, Multiset.cons_coe]
    exact Multiset.coe_eq_coe.mpr List.perm_middle
  · simp only [owed, replaced, List.flatten_append, List.flatten_cons, Multiset.coe_add]
    apply Multiset.coe_eq_coe.mpr
    simp only [List.append_assoc]
    rw [← List.append_assoc, ← List.append_assoc more]
    exact List.perm_append_comm.append_right _

/-- What holds at the start, survives a new thread and survives every section holds
    along the run; each section may count on what is already known of the run. -/
theorem owed_invariant_given
    (J I : σ → Multiset α → Prop) (known : ∀ r, Run P ok p r → J r.state (owed r))
    (initial : I p.state (owed p))
    (spawned : ∀ s others a, P.entry a = true → I s others → I s (a ::ₘ others))
    (executed : ∀ s others a c, P.ready a s = true → ok c a s → J s (a ::ₘ others) →
      I s (a ::ₘ others) → I (P.exec c a s).1 (↑(P.exec c a s).2 + others))
    (run : Run P ok p q) : I q.state (owed q) := by
  induction run with
  | here => exact initial
  | @step q r m before allowed moved ih =>
    cases m with
    | start a =>
      simp only [next, Option.ite_none_right_eq_some, Option.some.injEq] at moved
      obtain ⟨entry, rfl⟩ := moved
      rw [owed_start]
      exact spawned _ _ a entry ih
    | run i c =>
      simp only [next] at moved
      split at moved
      · rename_i a rest at_i
        simp only [Option.ite_none_right_eq_some, Option.some.injEq] at moved
        obtain ⟨ready, rfl⟩ := moved
        obtain ⟨others, split, after⟩ :=
          owed_exec q at_i (P.exec c a q.state).1 (P.exec c a q.state).2
        have facts := known q before
        rw [after]
        rw [split] at ih facts
        exact executed _ _ a c ready (allowed a rest at_i) facts ih
      · cases moved

theorem owed_invariant (I : σ → Multiset α → Prop) (initial : I p.state (owed p))
    (spawned : ∀ s others a, P.entry a = true → I s others → I s (a ::ₘ others))
    (executed : ∀ s others a c, P.ready a s = true → ok c a s → I s (a ::ₘ others) →
      I (P.exec c a s).1 (↑(P.exec c a s).2 + others)) (run : Run P ok p q) : I q.state (owed q) :=
  owed_invariant_given (fun _ _ => True) I (fun _ _ => trivial) initial spawned
    (fun s others a c ready allowed _ held => executed s others a c ready allowed held) run

theorem forall_pushed {F : α → Prop} {more : List α} {others : Multiset α}
    (pushed : ∀ b ∈ more, F b) (kept : ∀ b ∈ others, F b) :
    ∀ b ∈ (↑more + others : Multiset α), F b := by
  intro b member
  rcases Multiset.mem_add.mp member with mine | other
  · exact pushed b (Multiset.mem_coe.mp mine)
  · exact kept b other

/-- Facts that outlive every section: each section owed carries its own and hands them
    to the ones it pushes. -/
theorem owed_carries (I : σ → Prop) (F : σ → α → Prop) (initial : I p.state)
    (started : ∀ a ∈ owed p, F p.state a)
    (spawned : ∀ s a, I s → P.entry a = true → F s a)
    (executed : ∀ s a c, P.ready a s = true → ok c a s → I s → F s a →
      I (P.exec c a s).1 ∧ (∀ b, F s b → F (P.exec c a s).1 b) ∧
        ∀ b ∈ (P.exec c a s).2, F (P.exec c a s).1 b)
    (run : Run P ok p q) : I q.state ∧ ∀ a ∈ owed q, F q.state a := by
  refine owed_invariant (fun s owing => I s ∧ ∀ a ∈ owing, F s a) ⟨initial, started⟩ ?_ ?_ run
  · intro s others a entry held
    exact ⟨held.1, Multiset.forall_mem_cons.mpr ⟨spawned s a held.1 entry, held.2⟩⟩
  · intro s others a c ready allowed held
    obtain ⟨own, rest⟩ := Multiset.forall_mem_cons.mp held.2
    obtain ⟨kept, stable, pushed⟩ := executed s a c ready allowed held.1 own
    exact ⟨kept, forall_pushed pushed fun b other => stable b (rest b other)⟩

/-- The rule for what holds of every thread. A section accounts for its own thread
    and for the others, and may count on whatever holds of every pool of the run. -/
theorem threads_invariant (T : σ → List α → Prop) (initial : ∀ t ∈ p.threads, T p.state t)
    (spawned : ∀ s a, P.entry a = true → T s [a])
    (executed : ∀ s before after a rest c, Run P ok p ⟨s, before ++ (a :: rest) :: after⟩ →
      P.ready a s = true → ok c a s → (∀ t ∈ before ++ (a :: rest) :: after, T s t) →
      T (P.exec c a s).1 ((P.exec c a s).2 ++ rest) ∧ ∀ t ∈ before ++ after, T (P.exec c a s).1 t)
    (run : Run P ok p q) : ∀ t ∈ q.threads, T q.state t := by
  induction run with
  | here => exact initial
  | @step q r m before allowed moved ih =>
    cases m with
    | start a =>
      simp only [next, Option.ite_none_right_eq_some, Option.some.injEq] at moved
      obtain ⟨entry, rfl⟩ := moved
      intro t member
      rcases List.mem_append.mp member with old | new
      · exact ih t old
      · rw [List.mem_singleton.mp new]
        exact spawned q.state a entry
    | run i c =>
      simp only [next] at moved
      split at moved
      · rename_i a rest at_i
        simp only [Option.ite_none_right_eq_some, Option.some.injEq] at moved
        obtain ⟨ready, rfl⟩ := moved
        obtain ⟨earlier, later, split, replaced⟩ := flatten_split at_i
        have reached : Run P ok p ⟨q.state, earlier ++ (a :: rest) :: later⟩ := split ▸ before
        rw [split] at ih
        obtain ⟨own, others⟩ :=
          executed _ earlier later a rest c reached ready (allowed a rest at_i) ih
        simp only [replaced]
        intro t member
        simp only [List.mem_append, List.mem_cons] at member
        rcases member with early | rfl | late
        · exact others t (List.mem_append_left _ early)
        · exact own
        · exact others t (List.mem_append_right _ late)
      · cases moved

/-- The total weight of the sections still owed. -/
def weigh (w : α → Nat) (owing : Multiset α) : Nat := (owing.map w).sum

@[simp] theorem weigh_zero (w : α → Nat) : weigh w 0 = 0 := by simp [weigh]

@[simp] theorem weigh_cons (w : α → Nat) (a : α) (owing : Multiset α) :
    weigh w (a ::ₘ owing) = w a + weigh w owing := by simp [weigh]

@[simp] theorem weigh_add (w : α → Nat) (first second : Multiset α) :
    weigh w (first + second) = weigh w first + weigh w second := by
  simp [weigh, Multiset.sum_add]

@[simp] theorem weigh_coe (w : α → Nat) (more : List α) :
    weigh w (↑more : Multiset α) = (more.map w).sum := by simp [weigh]

theorem sum_map_nil (w : α → Nat) : (([] : List α).map w).sum = 0 := rfl

theorem sum_map_cons (w : α → Nat) (a : α) (more : List α) :
    ((a :: more).map w).sum = w a + (more.map w).sum := by
  rw [List.map_cons, List.sum_cons]

theorem weigh_eq_zero_iff (w : α → Nat) (owing : Multiset α) :
    weigh w owing = 0 ↔ ∀ a ∈ owing, w a = 0 := by
  simp [weigh, Multiset.sum_eq_zero_iff]

theorem weigh_of_mem (w : α → Nat) {a : α} {owing : Multiset α} (member : a ∈ owing) :
    w a ≤ weigh w owing := by
  obtain ⟨others, rfl⟩ := Multiset.exists_cons_of_mem member
  simp

theorem weigh_le {w v : α → Nat} (lighter : ∀ a, w a ≤ v a) (owing : Multiset α) :
    weigh w owing ≤ weigh v owing :=
  Multiset.sum_map_le_sum_map w v (fun a _ => lighter a)

end Interleaving
