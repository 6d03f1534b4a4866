import Uio.Shardpool.Steps

/-!
The two counts of a shard are what they say. `running` is the number of workers between
their arrival at the shard and their leaving it. `coming` is the number of workers woken or
started for it that have not arrived, with the notifiers and scans that look for one.
-/
namespace ShardCounts
open Interleaving ShardPool ShardSteps

variable {n cap : Nat} {T : Type}

def drainsCall (t u : Fin n) : Caller n → Nat
  | .drain _ => if u = t then 1 else 0
  | _ => 0

def drains (t : Fin n) : Section n T → Nat
  | .arrived _ u | .queue u _ (.worker _) | .work _ u | .replace _ u | .replaced _ u
  | .leave _ u => if u = t then 1 else 0
  | .look u k | .lookSeq u _ k | .notify u k | .notifySeq u _ k | .notifyComing u k
  | .notifyRaise u k | .bring u _ k | .takeIdle u _ _ k | .send u _ k | .drop u k
  | .checkStarving u k | .setStarving u k | .hasIdle u _ k => drainsCall t u k
  | _ => 0

/-- A worker counted as coming to the shard, or a thread that counts one and looks for it. -/
def brings (t : Fin n) : Section n T → Nat
  | .bring u _ _ | .takeIdle u _ _ _ | .send u _ _ | .drop u _ | .arrive _ u | .arrived _ u
  | .replaced _ u => if u = t then 1 else 0
  | _ => 0

def started (t : Fin n) : Goroutine n T → Bool
  | .worker _ u => u = t
  | .overflow .. => false

def sent (t : Fin n) (x : Worker n × Option (Fin n)) : Bool := x.2 = some t

structure Counted (s : State n T) (owing : Multiset (Section n T)) : Prop where
  running : ∀ t, s.running t = weigh (drains t) owing
  coming : ∀ t, s.coming t =
    weigh (brings t) owing + s.spawned.countP (started t) + s.wake.countP (sent t)

@[simp] theorem drains_resume (t u : Fin n) (k : Caller n) :
    ((resume (T := T) u k).map (drains t)).sum = drainsCall t u k := by
  cases k <;> simp [resume, drains, drainsCall]

@[simp] theorem brings_resume (t u : Fin n) (k : Caller n) :
    ((resume (T := T) u k).map (brings t)).sum = 0 := by
  cases k <;> simp [resume, brings]

theorem aside_weightless {a : Section n T} (free : aside a = true) (t : Fin n) :
    drains t a = 0 ∧ brings t a = 0 := by
  cases a <;> first | exact ⟨rfl, rfl⟩ | cases free

theorem asides_weightless {more : List (Section n T)} (free : ∀ b ∈ more, aside b = true)
    (t : Fin n) : (more.map (drains t)).sum = 0 ∧ (more.map (brings t)).sum = 0 := by
  induction more with
  | nil => exact ⟨rfl, rfl⟩
  | cons b more ih =>
    have rest := ih (fun x member => free x (List.mem_cons_of_mem b member))
    have own := aside_weightless (free b List.mem_cons_self) t
    simp [own, rest]

theorem countP_eraseIdx {α : Type} (p : α → Bool) {l : List α} {i : Nat} {x : α}
    (found : l[i]? = some x) : (l.eraseIdx i).countP p + (if p x then 1 else 0) = l.countP p := by
  obtain ⟨inside, rfl⟩ := List.getElem?_eq_some_iff.mp found
  have perm := List.getElem_cons_eraseIdx_perm inside
  rw [← perm.countP_eq, List.countP_cons]

theorem countP_erase {α : Type} [BEq α] [LawfulBEq α] (p : α → Bool) {l : List α} {x : α}
    (found : x ∈ l) : (l.erase x).countP p + (if p x then 1 else 0) = l.countP p := by
  rw [(List.perm_cons_erase found).countP_eq, List.countP_cons]

theorem counted_step [Inhabited T] {s s' : State n T} {a : Section n T} {more : List (Section n T)}
    {others : Multiset (Section n T)} (step : Step cap s a s' more)
    (held : Counted s (a ::ₘ others)) : Counted s' (↑more + others) := by
  have runs : ∀ t, s.running t = drains t a + weigh (drains t) others := fun t => by
    simpa using held.running t
  have comes : ∀ t, s.coming t = brings t a + weigh (brings t) others +
      s.spawned.countP (started t) + s.wake.countP (sent t) := fun t => by
    simpa using held.coming t
  clear held
  cases step with
  | aside before after alike =>
    refine ⟨fun t => ?_, fun t => ?_⟩
    · rw [alike.running, runs t, weigh_add, weigh_coe, (asides_weightless after t).1,
        (aside_weightless before t).1]
    · rw [alike.coming, alike.spawned, alike.wake, comes t, weigh_add, weigh_coe,
        (asides_weightless after t).2, (aside_weightless before t).2]
  | bornWorker pick w u found | bornOverflow pick u task found =>
    refine ⟨fun t => ?_, fun t => ?_⟩
    · simpa [drains] using runs t
    · have erased := countP_eraseIdx (started t) found
      have own := comes t
      simp [brings, started] at own erased ⊢
      grind -ring -linarith
  | woken w u found | sentAway w found =>
    refine ⟨fun t => ?_, fun t => ?_⟩
    · simpa [drains] using runs t
    · have erased := countP_erase (sent t) found
      have own := comes t
      simp [brings, sent] at own erased ⊢
      grind -ring -linarith
  | queueNext u b next user =>
    refine ⟨fun t => ?_, fun t => ?_⟩
    · cases user <;> simpa [drains] using runs t
    · simpa [brings] using comes t
  | pushed u pos q user ran b next =>
    refine ⟨fun t => ?_, fun t => ?_⟩
    · obtain ⟨rfl, rfl⟩ | ⟨rfl, rfl⟩ | ⟨_, _, rfl, rfl⟩ := next <;>
        simpa [drains, drainsCall] using runs t
    · obtain ⟨rfl, rfl⟩ | ⟨rfl, rfl⟩ | ⟨_, _, rfl, rfl⟩ := next <;> simpa [brings] using comes t
  | full u pos task user fits alone =>
    refine ⟨fun t => ?_, fun t => ?_⟩
    · cases user <;> first | simpa [drains] using runs t | cases fits
    · simpa [brings, started] using comes t
  | _ =>
    refine ⟨fun t => ?_, fun t => ?_⟩
    · have own := runs t
      simp [drains, drainsCall, wokeBy_running, Function.update_apply] at own ⊢
      grind -ring -linarith
    · have own := comes t
      simp [brings, sent, started, wokeBy_coming, wokeBy_wake, wokeBy_spawned,
        Function.update_apply] at own ⊢
      grind -ring -linarith

theorem counted_run [Inhabited T] {q : Interleaving.Pool (State n T) (Section n T)}
    (run : Run (program n cap) Orderly empty q) : Counted q.state (owed q) := by
  refine owed_invariant_given (fun _ owing => ∀ a ∈ owing, Fits a) Counted
    (fun _ before => fits_run before) ?_ ?_ ?_ run
  · constructor <;> intro t <;> rfl
  · intro s others a legal held
    refine ⟨fun t => ?_, fun t => ?_⟩
    · rw [weigh_cons, ← held.running t]
      cases a <;> first | exact (Nat.zero_add _).symm | cases legal
    · rw [weigh_cons, held.coming t]
      cases a <;> first | rw [show brings t _ = 0 from rfl, Nat.zero_add] | cases legal
  · intro s others a c _ kind fits held
    exact counted_step (exec_step a (fits a (Multiset.mem_cons_self a others)) kind) held

end ShardCounts
