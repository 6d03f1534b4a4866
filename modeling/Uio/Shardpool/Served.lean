import Uio.Shardpool.Counts

/-!
No wakeup is lost. While a queue's first task is published, somebody answers for the shard:
a worker drains it or is coming, a thread has still to look at the queue, or the pool is
marked starving and every parked worker has still to read the mark. Each section that gives
up answering has found another that does. A goroutine that took a task of a full shard
answers for the shard as well while it drains it, and a scan until its notify returns.
-/
namespace ShardServed
open Interleaving ShardRing ShardFifo ShardPool ShardSteps ShardCounts
open Function (update update_of_ne update_self)
open Multiset (add_bind cons_bind mem_cons_of_mem mem_cons_self singleton_add)

variable {n cap : Nat} {T : Type}

def published (cap : Nat) (s : State n T) (t : Fin n) : Bool :=
  hasTask cap (s.queue t) (s.queue t).head

def claimed : ShardRing.Section T → Bool
  | .pushWrite .. | .pushPublish _ => true
  | _ => false

def touchedBy : User n T → List (Fin n)
  | .batch _ touched => touched
  | _ => []

def callee (test : Fin n → Caller n → Bool) : ShardPool.Section n T → Bool
  | .look u k | .lookSeq u _ k | .notify u k | .notifySeq u _ k | .notifyComing u k
  | .notifyRaise u k | .bring u _ k | .takeIdle u _ _ k | .send u _ k | .drop u k
  | .checkStarving u k | .setStarving u k | .hasIdle u _ k => test u k
  | _ => false

def bySubmitter (t u : Fin n) : Caller n → Bool
  | .submit => u = t
  | .batch touched => u = t ∨ t ∈ touched
  | _ => false

/-- A submitter between its claim of a cell of the shard's queue and the end of its notify. -/
def submitting (t : Fin n) : ShardPool.Section n T → Bool
  | .queue u b user => (claimed b ∧ u = t) ∨ t ∈ touchedBy user
  | .submitBatch _ touched | .notifyEach touched => t ∈ touched
  | .notifyBehind u => u = t
  | a => callee (bySubmitter t) a

def byParker : Caller n → Bool
  | .left _ | .home _ | .spread _ => true
  | _ => false

/-- A worker that has found its shard's queue empty and has not parked. -/
def parking : ShardPool.Section n T → Bool
  | .park _ | .starved _ | .clear _ | .spread .. => true
  | a => callee (fun _ => byParker) a

def byScan (t u : Fin n) : Caller n → Bool
  | .monitor | .rescue _ | .raise _ => u = t
  | _ => false

def scanning (t : Fin n) (a : ShardPool.Section n T) : Bool := callee (byScan t) a

def overflowing (t : Fin n) : ShardPool.Section n T → Bool
  | .overflow u | .queue u _ .overflow => u = t
  | _ => false

/-- A worker drains the shard or is counted as coming to it, or a worker is about to park, or
    the pool is starving and nobody is parked. -/
def Served (q : Interleaving.Pool (State n T) (ShardPool.Section n T)) (t : Fin n) : Prop :=
  0 < q.state.running t ∨ 0 < q.state.coming t ∨ (∃ a ∈ owed q, parking a = true) ∨
    (q.state.starving = true ∧ ∀ i, q.state.idle i = [])

section Queues

def onQueue (t : Fin n) : ShardPool.Section n T → Multiset (ShardRing.Section T)
  | .queue u b _ => if u = t then {b} else 0
  | _ => 0

def Rings (cap : Nat) (s : State n T) (owing : Multiset (ShardPool.Section n T)) : Prop :=
  ∀ t, Sound cap (s.queue t) (owing.bind (onQueue t))

theorem resume_offQueue (t u : Fin n) (k : Caller n) :
    (↑(resume (T := T) u k) : Multiset (ShardPool.Section n T)).bind (onQueue t) = 0 := by
  cases k <;> simp [resume, onQueue]

theorem aside_offQueue {more : List (ShardPool.Section n T)} (free : ∀ b ∈ more, aside b = true)
    (t : Fin n) : (↑more : Multiset (ShardPool.Section n T)).bind (onQueue t) = 0 := by
  induction more with
  | nil => rfl
  | cons b more ih =>
    have rest := ih (fun x member => free x (List.mem_cons_of_mem b member))
    have own := free b List.mem_cons_self
    rw [← Multiset.cons_coe, cons_bind, rest]
    cases b <;> first | rfl | cases own

variable {s s' : State n T} {a : ShardPool.Section n T} {more : List (ShardPool.Section n T)}
  {others : Multiset (ShardPool.Section n T)}

theorem rings_end {u : Fin n} {b : ShardRing.Section T} {user : User n T}
    (plain : ∀ p, writing p b = 0 ∧ taking p b = 0 ∧ reading p b = 0) (same : s'.queue = s.queue)
    (after : ∀ t, (↑more : Multiset (ShardPool.Section n T)).bind (onQueue t) = 0)
    (held : Rings cap s (.queue u b user ::ₘ others)) : Rings cap s' (↑more + others) := by
  intro t
  have own := held t
  rw [cons_bind] at own
  rw [add_bind, after t, same, zero_add]
  by_cases here : u = t
  · simp only [onQueue, here, if_true, singleton_add] at own
    exact ((sound_cons plain).mp own).2
  · simpa [onQueue, here] using own

theorem rings_enter {u : Fin n} {b : ShardRing.Section T} {user : User n T}
    (legal : ShardRing.entry b = true) (off : ∀ t, onQueue t a = 0) (same : s'.queue = s.queue)
    (held : Rings cap s (a ::ₘ others)) : Rings cap s' (↑[Section.queue u b user] + others) := by
  intro t
  have own := held t
  rw [cons_bind, off t, zero_add] at own
  rw [same, Multiset.coe_singleton, singleton_add, cons_bind]
  by_cases here : u = t
  · simp only [onQueue, here, if_true, singleton_add]
    exact sound_enter legal own
  · simpa [onQueue, here] using own

theorem rings_off (off : ∀ t, onQueue t a = 0) (same : s'.queue = s.queue)
    (after : ∀ t, (↑more : Multiset (ShardPool.Section n T)).bind (onQueue t) = 0)
    (held : Rings cap s (a ::ₘ others)) : Rings cap s' (↑more + others) := by
  intro t
  have own := held t
  rw [cons_bind, off t, zero_add] at own
  rw [same, add_bind, after t, zero_add]
  exact own

variable [Inhabited T]

theorem rings_queue (large : 2 ≤ cap) (small : cap ≤ 2 ^ 60) {u : Fin n} {b : ShardRing.Section T}
    {user : User n T} {q : TaskRing T} {next : List (ShardRing.Section T)}
    {c : Choice} (kind : Orderly c (.queue u b user) s)
    (ran : (q, next) = ShardRing.exec cap b (s.queue u))
    (after : ∀ t, (↑more : Multiset (ShardPool.Section n T)).bind (onQueue t) =
      if u = t then (↑next : Multiset (ShardRing.Section T)) else 0)
    (held : Rings cap s (.queue u b user ::ₘ others)) :
    Rings cap { s with queue := update s.queue u q } (↑more + others) := by
  intro t
  have own := held t
  rw [cons_bind] at own
  rw [add_bind, after t]
  by_cases here : u = t
  · subst here
    simp only [onQueue, if_true, singleton_add] at own
    have moved := sound_exec large small kind own
    rw [← ran] at moved
    simpa using moved
  · simpa [onQueue, here, update_of_ne (Ne.symm here)] using own

theorem rings_step (large : 2 ≤ cap) (small : cap ≤ 2 ^ 60) {c : Choice}
    (step : Step cap s a s' more) (kind : Orderly c a s) (held : Rings cap s (a ::ₘ others)) :
    Rings cap s' (↑more + others) := by
  cases step with
  | aside before after alike =>
    refine rings_off (fun t => ?_) alike.queue (aside_offQueue after) held
    cases a <;> first | rfl | cases before
  | queueNext u b next user q fits ran | popped u pos q w ran | poppedOver u pos q ran =>
    refine rings_queue large small kind ran (fun t => ?_) held
    simp [onQueue]
  | pushed u pos q user ran b next =>
    refine rings_queue large small kind ran (fun t => ?_) held
    obtain ⟨_, rfl⟩ | ⟨_, rfl⟩ | ⟨_, _, _, rfl⟩ := next <;> simp [onQueue]
  | full | fullBatch | popEmpty | popEmptyOver =>
    refine rings_end (fun p => ⟨rfl, rfl, rfl⟩) rfl (fun t => ?_) held
    simp [onQueue]
  | submit | submitBehind | batchNext | arrived | work | overflow =>
    exact rings_enter rfl (fun t => rfl) rfl held
  | lookMiss | notifyMiss | someComing | raiseLost | nobodyIdle =>
    exact rings_off (fun t => rfl) rfl (fun t => resume_offQueue t _ _) held
  | send | start =>
    exact rings_off (fun t => rfl) (wokeBy_queue _ _) (fun t => resume_offQueue t _ _) held
  | _ => exact rings_off (fun t => rfl) rfl (fun t => by simp [onQueue]) held

theorem rings_run (large : 2 ≤ cap) (small : cap ≤ 2 ^ 60)
    {q : Interleaving.Pool (State n T) (ShardPool.Section n T)}
    (run : Run (ShardPool.program n cap) Orderly ShardPool.empty q) :
    Rings cap q.state (owed q) := by
  refine owed_invariant_given (fun _ owing => ∀ a ∈ owing, Fits a) (Rings cap)
    (fun _ before => fits_run before) (fun t => sound_fresh) ?_ ?_ run
  · intro s others a legal held t
    have off : onQueue t a = 0 := by cases a <;> first | rfl | cases legal
    rw [cons_bind, off, Multiset.zero_add]
    exact held t
  · intro s others a c _ kind fits held
    exact rings_step large small (exec_step a (fits a (mem_cons_self a others)) kind) kind
      held

end Queues

def later (t u : Fin n) : Caller n → Prop
  | .batch touched => t ∈ touched
  | .spread _ => u < t
  | _ => False

/-- The thread has still to look at the shard's queue, or has just seen a task there. -/
def Answers (t : Fin n) (head : Nat) : ShardPool.Section n T → Prop
  | .look u k | .notify u k | .notifyComing u k | .notifyRaise u k | .checkStarving u k
  | .setStarving u k => u = t ∨ later t u k
  | .lookSeq u pos k | .notifySeq u pos k => (u = t ∧ pos = head) ∨ later t u k
  | .bring u _ k | .takeIdle u _ _ k | .send u _ k | .drop u k | .hasIdle u _ k => later t u k
  | .queue u b user =>
    (claimed b = true ∧ u = t) ∨ t ∈ touchedBy user ∨ (submits user = false ∧ u = t)
  | .submitBatch _ touched | .notifyEach touched => t ∈ touched
  | .notifyBehind u => u = t
  | .spread _ i => i ≤ t
  | .overflow u => u = t
  | _ => False

def checksCall (w : Worker n) : Caller n → Prop
  | .home x => x = w
  | _ => False

def Checks (w : Worker n) : ShardPool.Section n T → Prop
  | .starved x | .clear x => x = w
  | .look _ k | .lookSeq _ _ k | .notify _ k | .notifySeq _ _ k | .notifyComing _ k
  | .notifyRaise _ k | .bring _ _ k | .takeIdle _ _ _ k | .send _ _ k | .drop _ k
  | .checkStarving _ k | .setStarving _ k | .hasIdle _ _ k => checksCall w k
  | _ => False

/-- The pool is starving, and whoever is parked in one of the first shards will see it. -/
structure Spared (s : State n T) (owing : Multiset (ShardPool.Section n T)) (shards : Nat) :
    Prop where
  starving : s.starving = true
  unchecked : ∀ i : Fin n, i < shards → ∀ x ∈ s.idle i, ∃ a ∈ owing, Checks x.1 a

def Handed (t : Fin n) (s : State n T) (more : List (ShardPool.Section n T)) : Prop :=
  0 < s.running t ∨ 0 < s.coming t ∨
    ∃ b ∈ more, Answers t (s.queue t).head b ∨ 0 < drains t b ∨ 0 < brings t b

def Covered (t : Fin n) (s : State n T) (owing : Multiset (ShardPool.Section n T)) : Prop :=
  0 < s.running t ∨ 0 < s.coming t ∨ (∃ a ∈ owing, Answers t (s.queue t).head a) ∨
    (∃ i k, .hasIdle t i k ∈ owing ∧ Spared s owing i) ∨ Spared s owing n

section Steps

variable {s s' : State n T} {a : ShardPool.Section n T} {more : List (ShardPool.Section n T)}
  {others : Multiset (ShardPool.Section n T)} {t : Fin n}

theorem answers_resume {u : Fin n} {k : Caller n} (more : later t u k) (head : Nat) :
    ∃ b ∈ resume (T := T) u k, Answers t head b := by
  cases k with
  | batch touched | spread w => exact ⟨_, List.mem_singleton.mpr rfl, more⟩
  | _ => cases more

theorem handed_one {b : ShardPool.Section n T} (next : Answers t (s.queue t).head b) :
    Handed t s [b] :=
  Or.inr (Or.inr ⟨b, List.mem_singleton.mpr rfl, Or.inl next⟩)

theorem handed_resume {u : Fin n} {k : Caller n} (more : later t u k) :
    Handed t s (resume u k) := by
  obtain ⟨b, member, next⟩ := answers_resume more (s.queue t).head
  exact Or.inr (Or.inr ⟨b, member, Or.inl next⟩)

theorem handed_covers (counted : Counted s' (↑more + others)) (handed : Handed t s' more) :
    Covered t s' (↑more + others) := by
  rcases handed with drained | comes | ⟨b, member, holds⟩
  · exact Or.inl drained
  · exact Or.inr (Or.inl comes)
  · have mine : b ∈ (↑more + others : Multiset (ShardPool.Section n T)) :=
      Multiset.mem_add.mpr (Or.inl (Multiset.mem_coe.mpr member))
    rcases holds with answers | drains | brings
    · exact Or.inr (Or.inr (Or.inl ⟨b, mine, answers⟩))
    · refine Or.inl ?_
      rw [counted.running t]
      exact Nat.lt_of_lt_of_le drains (weigh_of_mem _ mine)
    · refine Or.inr (Or.inl ?_)
      have least := weigh_of_mem (ShardCounts.brings t) mine
      rw [counted.coming t]
      omega

theorem handed_spread {w : Worker n} (told : .spread w 0 ∈ more) : Handed t s' more :=
  Or.inr (Or.inr ⟨_, told, Or.inl (Nat.zero_le _)⟩)

theorem checks_resume {u : Fin n} {k : Caller n} {w : Worker n} (own : checksCall w k) :
    ∃ b ∈ resume (T := T) u k, Checks w b := by
  cases k with
  | home x => exact ⟨_, List.mem_singleton.mpr rfl, own⟩
  | _ => cases own

variable [Inhabited T]

/-- A count that was raised is lowered only by a section that goes on to answer itself, or
    that is counted otherwise. -/
theorem count_kept (step : Step cap s a s' more) (counted : 0 < s.running t ∨ 0 < s.coming t) :
    Handed t s' more := by
  have kept : s'.running t = s.running t → s'.coming t = s.coming t → Handed t s' more := by
    intro running coming
    rcases counted with drained | comes
    · exact Or.inl (running ▸ drained)
    · exact Or.inr (Or.inl (coming ▸ comes))
  cases step with
  | aside before after alike => exact kept (congrFun alike.running t) (congrFun alike.coming t)
  | send | start => exact kept (by rw [wokeBy_running]) (by rw [wokeBy_coming])
  | raise u k none | replace w u | scanRaise u active =>
    by_cases here : t = u
    · subst here
      exact Or.inr (Or.inl (by simp))
    · exact kept rfl (update_of_ne here _ _)
  | drop u k | dropRaised u active =>
    by_cases here : t = u
    · exact handed_one (Or.inl here.symm)
    · exact kept rfl (update_of_ne here _ _)
  | arrive w u =>
    by_cases here : t = u
    · subst here
      exact Or.inl (by simp)
    · exact kept (update_of_ne here _ _) rfl
  | arrived w u =>
    by_cases here : t = u
    · exact handed_one (Or.inr (Or.inr ⟨rfl, here.symm⟩))
    · exact kept rfl (update_of_ne here _ _)
  | replaced w u =>
    by_cases here : t = u
    · exact Or.inr (Or.inr ⟨_, List.mem_singleton.mpr rfl, Or.inr (Or.inr (by simp [brings, here]))⟩)
    · exact kept (update_of_ne here _ _) rfl
  | leave w u =>
    by_cases here : t = u
    · exact handed_one (Or.inl here.symm)
    · exact kept (update_of_ne here _ _) rfl
  | _ => exact kept rfl rfl

/-- Only its own threads change a queue, and they answer for it. A submitter that has claimed
    no cell leaves the head as it was. -/
theorem ring_kept {b next : ShardRing.Section T} {q r : TaskRing T}
    (ran : (r, [next]) = ShardRing.exec cap b q) (pushing : pushes b = true) :
    r.head = q.head ∧ r.seq = q.seq ∧ (claimed b = true → claimed next = true) := by
  cases b <;> simp only [ShardRing.exec] at ran <;> (repeat' split at ran) <;>
    simp_all [pushes, claimed]

theorem queue_kept (step : Step cap s a s' more) : Handed t s' more ∨
      (s'.queue t).head = (s.queue t).head ∧ (published cap s' t = true → published cap s t = true) := by
  have same : s'.queue t = s.queue t → Handed t s' more ∨
      (s'.queue t).head = (s.queue t).head ∧
        (published cap s' t = true → published cap s t = true) := by
    intro equal
    simp only [published, equal]
    exact Or.inr ⟨trivial, id⟩
  cases step with
  | aside before after alike => exact same (congrFun alike.queue t)
  | send | start => exact same (by rw [wokeBy_queue])
  | queueNext u b next user q fits ran =>
    by_cases here : t = u
    · subst here
      cases pushing : submits user with
      | true =>
        obtain ⟨head, seq, _⟩ := ring_kept ran (fits.trans pushing)
        refine Or.inr ?_
        simp only [published, hasTask, update_self, head, seq]
        exact ⟨trivial, id⟩
      | false => exact Or.inl (handed_one (Or.inr (Or.inr ⟨pushing, rfl⟩)))
    · exact same (update_of_ne here _ _)
  | pushed u pos q user ran b next =>
    by_cases here : t = u
    · subst here
      refine Or.inl (handed_one ?_)
      obtain ⟨_, rfl⟩ | ⟨_, rfl⟩ | ⟨_, _, _, rfl⟩ := next <;> simp [Answers]
    · exact same (update_of_ne here _ _)
  | popped u pos q w ran | poppedOver u pos q ran =>
    by_cases here : t = u
    · subst here
      exact Or.inl (handed_one (by simp [Answers]))
    · exact same (update_of_ne here _ _)
  | _ => exact same rfl

theorem pop_found_nothing (large : 2 ≤ cap) (small : cap ≤ 2 ^ 60) {c : Choice} {pos : Nat}
    {user : User n T} (rings : Rings cap s (.queue t (.popSeq pos) user ::ₘ others))
    (kind : Orderly c (.queue t (.popSeq pos) user) s)
    (ran : (s.queue t, []) = ShardRing.exec cap (.popSeq pos) (s.queue t)) :
    ¬ published cap s t = true := by
  intro waiting
  have sound := rings t
  simp only [cons_bind, onQueue, if_true, singleton_add] at sound
  have known := sound.2.known _ (mem_cons_self _ _)
  have step := ShardFifo.exec_step large small (.popSeq pos) sound.1 known kind
  rw [← ran] at step
  cases step with
  | popEmpty _ old =>
    have first := (unwritten_number sound.1 large known old).1
    simp only [published, hasTask] at waiting
    rw [← first] at waiting
    simp [ShardRing.exec, waiting] at ran

/-- A section that answers for a shard whose first task is published hands that on, or has
    found the pool starving. -/
theorem answer_kept (large : 2 ≤ cap) (small : cap ≤ 2 ^ 60) {c : Choice}
    (step : Step cap s a s' more) (kind : Orderly c a s) (rings : Rings cap s (a ::ₘ others))
    (own : Answers t (s.queue t).head a) (waiting : published cap s t = true) :
    Handed t s' more ∨ s'.starving = true ∧ ∃ k, .hasIdle t 0 k ∈ more := by
  cases step with
  | aside before after alike => cases a <;> first | cases before; done | cases own
  | batchDone touched => exact Or.inl (handed_one (by simpa [Answers, inOrder] using own))
  | batchNext u task rest touched => exact Or.inl (handed_one (Or.inr (Or.inl own)))
  | each u touched =>
    refine Or.inl (handed_one ?_)
    rcases List.mem_cons.mp own with rfl | more
    · exact Or.inl rfl
    · exact Or.inr more
  | behindDraining u draining =>
    cases own
    exact Or.inl (Or.inl draining)
  | behind u => exact Or.inl (handed_one (Or.inl own))
  | look u k | notify u k =>
    refine Or.inl (handed_one ?_)
    rcases own with rfl | more
    · exact Or.inl ⟨rfl, rfl⟩
    · exact Or.inr more
  | lookHit u pos k | notifyHit u pos k =>
    refine Or.inl (handed_one ?_)
    rcases own with ⟨here, _⟩ | more
    · exact Or.inl here
    · exact Or.inr more
  | lookMiss u pos k missed | notifyMiss u pos k missed =>
    rcases own with ⟨rfl, rfl⟩ | more
    · exact absurd (missed.symm.trans waiting) Bool.false_ne_true
    · exact Or.inl (handed_resume more)
  | noneComing u k | bringNext | bringIdle | takeNone | take | bringFail | notStarving u k
  | noneIdle u i k => exact Or.inl (handed_one own)
  | someComing u k coming | raiseLost u k coming =>
    rcases own with rfl | more
    · exact Or.inl (Or.inr (Or.inl (Nat.pos_of_ne_zero coming)))
    · exact Or.inl (handed_resume more)
  | raise u k none =>
    rcases own with rfl | more
    · exact Or.inl (Or.inr (Or.inl (by simp)))
    · exact Or.inl (handed_one more)
  | send u w k | start u shard plan k w | nobodyIdle u i k => exact Or.inl (handed_resume own)
  | drop u k | someIdle u i k => exact Or.inl (handed_one (Or.inr own))
  | isStarving u k starving =>
    rcases own with rfl | more
    · exact Or.inr ⟨starving, k, List.mem_singleton.mpr rfl⟩
    · exact Or.inl (handed_one more)
  | setStarving u k =>
    rcases own with rfl | more
    · exact Or.inr ⟨rfl, k, List.mem_singleton.mpr rfl⟩
    · exact Or.inl (handed_one more)
  | queueNext u b next user q fits ran =>
    refine Or.inl (handed_one ?_)
    rcases own with ⟨has, here⟩ | more
    · have pushing : pushes b = true := by cases b <;> first | rfl | cases has
      exact Or.inl ⟨(ring_kept ran pushing).2.2 has, here⟩
    · exact Or.inr more
  | pushed u pos q user ran b next =>
    refine Or.inl (handed_one ?_)
    obtain ⟨rfl, rfl⟩ | ⟨rfl, rfl⟩ | ⟨rest, touched, rfl, rfl⟩ := next
    · obtain ⟨_, here⟩ | touched | ⟨popping, _⟩ := own
      · exact Or.inl here
      · cases touched
      · cases popping
    · obtain ⟨_, here⟩ | touched | ⟨popping, _⟩ := own
      · exact here
      · cases touched
      · cases popping
    · obtain ⟨_, rfl⟩ | before | ⟨popping, _⟩ := own
      · exact List.mem_cons_self
      · exact List.mem_cons_of_mem u before
      · cases popping
  | full u pos task user fits alone =>
    rcases own with ⟨has, _⟩ | touched | ⟨popping, _⟩
    · cases has
    · cases user <;> first | cases touched; done | exact absurd rfl (alone _ _)
    · rw [fits] at popping
      cases popping
  | fullBatch u pos task rest touched =>
    rcases own with ⟨has, _⟩ | more | ⟨popping, _⟩
    · cases has
    · exact Or.inl (handed_one more)
    · cases popping
  | popped u pos q w ran | poppedOver u pos q ran =>
    rcases own with ⟨has, _⟩ | more | ⟨_, rfl⟩
    · cases has
    · cases more
    · exact Or.inl (handed_one (by simp [Answers]))
  | popEmpty u pos w =>
    rcases own with ⟨has, _⟩ | more | ⟨_, rfl⟩
    · cases has
    · cases more
    · exact Or.inl (Or.inr (Or.inr ⟨_, List.mem_singleton.mpr rfl, Or.inr (Or.inl (by simp [drains]))⟩))
  | popEmptyOver u pos ran =>
    rcases own with ⟨has, _⟩ | more | ⟨_, rfl⟩
    · cases has
    · cases more
    · exact absurd waiting (pop_found_nothing large small rings kind ran)
  | overflow u => exact Or.inl (handed_one (Or.inr (Or.inr ⟨rfl, own⟩)))
  | spread w i inside =>
    refine Or.inl (handed_one ?_)
    rcases Nat.lt_or_eq_of_le own with before | here
    · exact Or.inr before
    · exact Or.inl (Fin.ext here)
  | spreadEnd w i all => exact absurd (Nat.lt_of_le_of_lt own t.isLt) (Nat.not_lt.mpr all)
  | _ => cases own

theorem starving_kept (step : Step cap s a s' more) (starving : s.starving = true) :
    s'.starving = true ∨ ∃ w, .spread w 0 ∈ more := by
  cases step with
  | aside before after alike => exact Or.inl (alike.starving.trans starving)
  | send | start => exact Or.inl (by rw [wokeBy_starving]; exact starving)
  | setStarving u k => exact Or.inl rfl
  | clear w => exact Or.inr ⟨w, List.mem_singleton.mpr rfl⟩
  | _ => exact Or.inl starving

theorem idle_kept (step : Step cap s a s' more) {i : Fin n} {x : Worker n × Nat}
    (parked : x ∈ s'.idle i) : x ∈ s.idle i ∨ ∃ b ∈ more, Checks x.1 b := by
  cases step with
  | aside before after alike =>
    rw [alike.idle] at parked
    exact Or.inl parked
  | send | start =>
    rw [wokeBy_idle] at parked
    exact Or.inl parked
  | take u shard plan k w =>
    by_cases here : i = shard
    · subst here
      simp only [update_self] at parked
      exact Or.inl (List.dropLast_subset _ parked)
    · simp only [update_of_ne here] at parked
      exact Or.inl parked
  | retireIdle u deadline count retired =>
    by_cases here : i = u
    · subst here
      simp only [update_self] at parked
      exact Or.inl (List.drop_subset _ _ parked)
    · simp only [update_of_ne here] at parked
      exact Or.inl parked
  | park w clock =>
    by_cases here : i = w.home
    · subst here
      simp only [update_self, List.mem_append, List.mem_singleton] at parked
      rcases parked with old | rfl
      · exact Or.inl old
      · exact Or.inr ⟨_, List.mem_singleton.mpr rfl, rfl⟩
    · simp only [update_of_ne here] at parked
      exact Or.inl parked
  | _ => exact Or.inl parked

theorem checks_kept (step : Step cap s a s' more) {w : Worker n} (own : Checks w a)
    (starving : s.starving = true) : (∃ b ∈ more, Checks w b) ∨ ∃ x, .spread x 0 ∈ more := by
  cases step with
  | aside before after alike => cases a <;> first | cases before; done | cases own
  | lookMiss | notifyMiss | someComing | raiseLost | send | start | nobodyIdle =>
    exact Or.inl (checks_resume own)
  | settled x fed | clearLost x fed => exact absurd (fed.symm.trans starving) Bool.false_ne_true
  | clear x => exact Or.inr ⟨x, List.mem_singleton.mpr rfl⟩
  | _ => first | exact Or.inl ⟨_, List.mem_singleton.mpr rfl, own⟩ | cases own

theorem spared_kept {shards : Nat} (step : Step cap s a s' more)
    (held : Spared s (a ::ₘ others) shards) :
    Spared s' (↑more + others) shards ∨ ∃ w, .spread w 0 ∈ more := by
  by_cases told : ∃ w, .spread w 0 ∈ more
  · exact Or.inr told
  · refine Or.inl ⟨(starving_kept step held.starving).resolve_right told, ?_⟩
    intro i inside x parked
    have mine : ∀ b ∈ more, b ∈ (↑more + others : Multiset (ShardPool.Section n T)) := fun b member =>
      Multiset.mem_add.mpr (Or.inl (Multiset.mem_coe.mpr member))
    rcases idle_kept step parked with before | ⟨b, member, checks⟩
    · obtain ⟨b, member, checks⟩ := held.unchecked i inside x before
      rcases Multiset.mem_cons.mp member with rfl | other
      · obtain ⟨b', next, checks'⟩ := (checks_kept step checks held.starving).resolve_right told
        exact ⟨b', mine b' next, checks'⟩
      · exact ⟨b, Multiset.mem_add.mpr (Or.inr other), checks⟩
    · exact ⟨b, mine b member, checks⟩

theorem search_kept {i : Nat} {k : Caller n} (step : Step cap s (.hasIdle t i k) s' more)
    (held : Spared s' (↑more + others) i) : Handed t s' more ∨
      (∃ j l, .hasIdle t j l ∈ more ∧ Spared s' (↑more + others) j) ∨
        Spared s' (↑more + others) n := by
  cases step with
  | aside before after alike => cases before
  | someIdle => exact Or.inl (handed_one (Or.inl rfl))
  | noneIdle _ _ _ inside none =>
    refine Or.inr (Or.inl ⟨i + 1, k, List.mem_singleton.mpr rfl, held.starving, ?_⟩)
    intro j before x parked
    rcases Nat.lt_succ_iff_lt_or_eq.mp before with earlier | here
    · exact held.unchecked j earlier x parked
    · subst here
      rw [none] at parked
      cases parked
  | nobodyIdle _ _ _ all =>
    exact Or.inr (Or.inr ⟨held.starving, fun j _ => held.unchecked j (Nat.lt_of_lt_of_le j.isLt all)⟩)

theorem covered_step (large : 2 ≤ cap) (small : cap ≤ 2 ^ 60) {c : Choice}
    (step : Step cap s a s' more) (kind : Orderly c a s) (rings : Rings cap s (a ::ₘ others))
    (counted : Counted s' (↑more + others))
    (held : published cap s t = true → Covered t s (a ::ₘ others))
    (waiting : published cap s' t = true) : Covered t s' (↑more + others) := by
  have mine : ∀ b ∈ more, b ∈ (↑more + others : Multiset (ShardPool.Section n T)) := fun b member =>
    Multiset.mem_add.mpr (Or.inl (Multiset.mem_coe.mpr member))
  have theirs : ∀ b ∈ others, b ∈ (↑more + others : Multiset (ShardPool.Section n T)) :=
    fun b other => Multiset.mem_add.mpr (Or.inr other)
  rcases queue_kept step (t := t) with handed | ⟨head, before⟩
  · exact handed_covers counted handed
  · have waited := before waiting
    rcases held waited with drained | comes | ⟨b, member, answers⟩ | ⟨i, k, member, spared⟩ | spared
    · exact handed_covers counted (count_kept step (Or.inl drained))
    · exact handed_covers counted (count_kept step (Or.inr comes))
    · rcases Multiset.mem_cons.mp member with rfl | other
      · rcases answer_kept large small step kind rings answers waited with handed | found
        · exact handed_covers counted handed
        · obtain ⟨starving, k, next⟩ := found
          exact Or.inr (Or.inr (Or.inr (Or.inl ⟨0, k, mine _ next, starving, nofun⟩)))
      · exact Or.inr (Or.inr (Or.inl ⟨b, theirs b other, head ▸ answers⟩))
    · rcases spared_kept step spared with kept | ⟨w, told⟩
      · rcases Multiset.mem_cons.mp member with rfl | other
        · rcases search_kept step kept with handed | ⟨j, l, next, spared⟩ | all
          · exact handed_covers counted handed
          · exact Or.inr (Or.inr (Or.inr (Or.inl ⟨j, l, mine _ next, spared⟩)))
          · exact Or.inr (Or.inr (Or.inr (Or.inr all)))
        · exact Or.inr (Or.inr (Or.inr (Or.inl ⟨i, k, theirs _ other, kept⟩)))
      · exact handed_covers counted (handed_spread told)
    · rcases spared_kept step spared with kept | ⟨w, told⟩
      · exact Or.inr (Or.inr (Or.inr (Or.inr kept)))
      · exact handed_covers counted (handed_spread told)

end Steps

theorem spared_more {s : State n T} {owing : Multiset (ShardPool.Section n T)} {shards : Nat}
    (a : ShardPool.Section n T) (held : Spared s owing shards) : Spared s (a ::ₘ owing) shards := by
  refine ⟨held.starving, ?_⟩
  intro i inside x parked
  obtain ⟨b, member, checks⟩ := held.unchecked i inside x parked
  exact ⟨b, mem_cons_of_mem member, checks⟩

theorem covered_more {t : Fin n} {s : State n T} {owing : Multiset (ShardPool.Section n T)}
    (a : ShardPool.Section n T) (held : Covered t s owing) : Covered t s (a ::ₘ owing) := by
  rcases held with drained | comes | ⟨b, member, answers⟩ | ⟨i, k, member, spared⟩ | spared
  · exact Or.inl drained
  · exact Or.inr (Or.inl comes)
  · exact Or.inr (Or.inr (Or.inl ⟨b, mem_cons_of_mem member, answers⟩))
  · exact Or.inr (Or.inr (Or.inr (Or.inl
      ⟨i, k, mem_cons_of_mem member, spared_more a spared⟩)))
  · exact Or.inr (Or.inr (Or.inr (Or.inr (spared_more a spared))))

theorem checks_parking {w : Worker n} {a : ShardPool.Section n T} (checks : Checks w a) :
    parking a = true := by
  cases a with
  | starved x | clear x => rfl
  | look u k | notify u k | notifyComing u k | notifyRaise u k | checkStarving u k
  | setStarving u k | lookSeq u pos k | notifySeq u pos k | bring u plan k | takeIdle u x plan k
  | send u w k | drop u k | hasIdle u i k =>
    cases k with
    | home x => rfl
    | _ => cases checks
  | _ => cases checks

def Theirs (t : Fin n) (a : ShardPool.Section n T) : Prop :=
  submitting t a = true ∨ parking a = true ∨ scanning t a = true ∨ overflowing t a = true ∨
    0 < drains t a

theorem search_whose (t : Fin n) (i : Nat) (k : Caller n) :
    Theirs t (.hasIdle t i k : ShardPool.Section n T) := by
  cases k <;> simp [Theirs, submitting, parking, scanning, callee, bySubmitter, byParker, byScan,
    drains, drainsCall]

theorem answers_whose {t : Fin n} {head : Nat} {a : ShardPool.Section n T}
    (answers : Answers t head a) : Theirs t a := by
  cases a with
  | queue u b user =>
    rcases answers with ⟨has, here⟩ | touched | ⟨popping, here⟩
    · exact Or.inl (by simp [submitting, has, here])
    · exact Or.inl (by simp [submitting, touched])
    · cases user with
      | worker w => simp [Theirs, drains, here]
      | overflow => simp [Theirs, overflowing, here]
      | _ => cases popping
  | submitBatch rest touched | notifyEach touched | notifyBehind u =>
    exact Or.inl (decide_eq_true answers)
  | spread w i => exact Or.inr (Or.inl rfl)
  | overflow u => exact Or.inr (Or.inr (Or.inr (Or.inl (decide_eq_true answers))))
  | look u k | notify u k | notifyComing u k | notifyRaise u k | checkStarving u k
  | setStarving u k | lookSeq u pos k | notifySeq u pos k | bring u plan k | takeIdle u x plan k
  | send u w k | drop u k | hasIdle u i k =>
    cases k <;> simp_all [Answers, later, Theirs, submitting, parking, scanning, callee,
      bySubmitter, byParker, byScan, drains, drainsCall] <;> grind -ring -linarith
  | _ => cases answers

section Runs

variable [Inhabited T] {q : Interleaving.Pool (State n T) (ShardPool.Section n T)}

theorem covered_run (large : 2 ≤ cap) (small : cap ≤ 2 ^ 60)
    (run : Run (ShardPool.program n cap) Orderly ShardPool.empty q) (t : Fin n)
    (waiting : published cap q.state t = true) : Covered t q.state (owed q) := by
  refine owed_invariant_given
    (fun s owing => (∀ a ∈ owing, Fits a) ∧ Rings cap s owing ∧ Counted s owing)
    (fun s owing => published cap s t = true → Covered t s owing)
    (fun _ before => ⟨fits_run before, rings_run large small before, counted_run before⟩)
    ?_ ?_ ?_ run waiting
  · intro waiting
    have first : (0 : Nat) % cap = 0 := Nat.zero_mod cap
    simp [published, hasTask, ShardPool.empty, State.fresh, TaskRing.fresh, same, first] at waiting
  · intro s others a _ held waiting
    exact covered_more a (held waiting)
  · intro s others a c _ kind known held
    obtain ⟨fits, rings, counted⟩ := known
    have step : Step cap s a _ _ := exec_step a (fits a (mem_cons_self a others)) kind
    exact covered_step large small step kind rings (counted_step step counted) held

/-- Wherever the first task of a queue is published and no submitter of the shard is at work,
    the shard is served, or a scan is in its notify, or an overflow goroutine drains it. -/
theorem no_wakeup_lost {asked : Int} (small : capacityOf asked ≤ 2 ^ 60)
    (run : Run (ShardPool.program n (capacityOf asked)) Orderly ShardPool.empty q) (t : Fin n)
    (waiting : published (capacityOf asked) q.state t = true)
    (settled : ∀ a ∈ owed q, submitting t a = false) :
    Served q t ∨ (∃ a ∈ owed q, scanning t a = true) ∨ ∃ a ∈ owed q, overflowing t a = true := by
  have large := two_le_capacityOf asked
  have whose : ∀ a ∈ owed q, Theirs t a → Served q t ∨ (∃ a ∈ owed q, scanning t a = true) ∨
      ∃ a ∈ owed q, overflowing t a = true := by
    intro a member theirs
    rcases theirs with submits | parks | scans | overflows | drains
    · rw [settled a member] at submits
      cases submits
    · exact Or.inl (Or.inr (Or.inr (Or.inl ⟨a, member, parks⟩)))
    · exact Or.inr (Or.inl ⟨a, member, scans⟩)
    · exact Or.inr (Or.inr ⟨a, member, overflows⟩)
    · refine Or.inl (Or.inl ?_)
      rw [(counted_run run).running t]
      exact Nat.lt_of_lt_of_le drains (weigh_of_mem _ member)
  rcases covered_run large small run t waiting with drained | comes | ⟨a, member, answers⟩ |
    ⟨i, k, member, _⟩ | spared
  · exact Or.inl (Or.inl drained)
  · exact Or.inl (Or.inr (Or.inl comes))
  · exact whose a member (answers_whose answers)
  · exact whose _ member (search_whose t i k)
  · by_cases none : ∀ i, q.state.idle i = []
    · exact Or.inl (Or.inr (Or.inr (Or.inr ⟨spared.starving, none⟩)))
    · obtain ⟨i, parked⟩ := not_forall.mp none
      obtain ⟨x, member⟩ := List.exists_mem_of_ne_nil _ parked
      obtain ⟨a, owes, checks⟩ := spared.unchecked i i.isLt x member
      exact Or.inl (Or.inr (Or.inr (Or.inl ⟨a, owes, checks_parking checks⟩)))

end Runs

/-- The queue of two cells is full, and the third task gets a goroutine of its own. When the
    workers have parked, one submitter claims a cell and stops; another publishes behind it and
    finds the head unpublished. The first publishes and loads the head; before it reads the
    cell, the overflow goroutine takes the task, so that it finds none either. -/
def overtaken : List (Move (ShardPool.Section 4 Unit) Choice) :=
  List.flatten [[.start (.submit 0 ())], runs 0 12 {}, [.start (.submit 0 ())], runs 1 9 {},
    [.start (.submit 0 ())], runs 2 3 {}, [.start .born], runs 3 1 { pick := 1 }, [.start .born],
    runs 4 36 {}, [.start .born], runs 5 12 {}, [.start (.submit 0 ())], runs 6 4 {},
    [.start (.submit 0 ())], runs 7 8 {}, runs 6 3 {}, runs 3 7 {}, runs 6 1 {}]

theorem no_wakeup_lost_overtaken :
    ∃ q : Interleaving.Pool (State 4 Unit) (ShardPool.Section 4 Unit),
      (capacityOf 2 ≤ 2 ^ 60 ∧ Run (ShardPool.program 4 (capacityOf 2)) Orderly ShardPool.empty q ∧
        published (capacityOf 2) q.state 0 = true ∧ ∀ a ∈ owed q, submitting 0 a = false) ∧
      (Served q 0 ∨ (∃ a ∈ owed q, scanning 0 a = true) ∨ ∃ a ∈ owed q, overflowing 0 a = true) := by
  have small : capacityOf 2 ≤ 2 ^ 60 := by decide +kernel
  have sound : ∀ c (a : ShardPool.Section 4 Unit) s, orderly c a s = true → Orderly c a s :=
    fun _ _ _ held => held
  obtain ⟨q, run, checked⟩ := replay_meets (P := ShardPool.program 4 (capacityOf 2)) sound
    (fun q => published (capacityOf 2) q.state 0 && q.threads.flatten.all (!submitting 0 ·))
    overtaken (p := ShardPool.empty) (by decide +kernel) (by decide +kernel)
  simp only [Bool.and_eq_true, List.all_eq_true, Bool.not_eq_true'] at checked
  exact ⟨q, ⟨small, run, checked.1, checked.2⟩, no_wakeup_lost small run 0 checked.1 checked.2⟩

/-- When the task it took ends the overflow goroutine, the task behind is left with nobody. -/
theorem overtaken_task_stranded : ∃ q : Interleaving.Pool (State 4 Unit) (ShardPool.Section 4 Unit),
      Reachable (ShardPool.program 4 (capacityOf 2)) ShardPool.empty q ∧
        published (capacityOf 2) q.state 0 = true ∧ (∀ a ∈ owed q, submitting 0 a = false) ∧
        ¬ Served q 0 ∧ ∀ a ∈ owed q, scanning 0 a = false ∧ overflowing 0 a = false := by
  obtain ⟨q, reached, checked⟩ := replay_reaches (P := ShardPool.program 4 (capacityOf 2))
    (p := ShardPool.empty) (overtaken ++ runs 3 1 { goexit := true })
    (fun q => published (capacityOf 2) q.state 0 && q.state.running 0 == 0 && q.state.coming 0 == 0 &&
      !q.state.starving && q.threads.flatten.all fun a =>
        !submitting 0 a && !parking a && !scanning 0 a && !overflowing 0 a)
    (by decide +kernel)
  simp only [Bool.and_eq_true, List.all_eq_true, Bool.not_eq_true', beq_iff_eq] at checked
  obtain ⟨⟨⟨⟨waiting, running⟩, coming⟩, fed⟩, nobody⟩ := checked
  refine ⟨q, reached, waiting, fun a member => (nobody a member).1.1.1, ?_,
    fun a member => ⟨(nobody a member).1.2, (nobody a member).2⟩⟩
  intro served
  rcases served with drained | comes | ⟨a, member, parks⟩ | ⟨starving, _⟩
  · exact absurd running (Nat.ne_of_gt drained)
  · exact absurd coming (Nat.ne_of_gt comes)
  · rw [(nobody a member).1.1.2] at parks
    cases parks
  · rw [fed] at starving
    cases starving

end ShardServed
