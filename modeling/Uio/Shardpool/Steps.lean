import Uio.Shardpool.Pool
import Uio.Shardpool.Fifo

/-!
What one section of the pool does, with the facts it found. Sections that only look, or that
belong to a scan before it raises a count, change nothing that the workers share: they are
one case.
-/
namespace ShardSteps
open Interleaving ShardRing ShardPool

variable {n cap : Nat} {T : Type}

def pushes : ShardRing.Section T → Bool
  | .push _ | .pushSeq .. | .pushClaim .. | .pushWrite .. | .pushPublish _ => true
  | _ => false

def submits : User n T → Bool
  | .submit | .behind | .batch .. => true
  | .worker _ | .overflow => false

def Fits : ShardPool.Section n T → Prop
  | .queue _ b user => pushes b = submits user
  | _ => True

def aside : ShardPool.Section n T → Bool
  | .born | .wait _ | .rescue | .rescueClock | .scan .. | .scanLook .. | .scanSeq ..
  | .scanRunning .. | .scanComing .. | .scanRaise .. | .rescued | .retire .. | .retireIdle ..
  | .dismiss _ => true
  | _ => false

/-- Threads are as prompt at the queues as `ShardRing.prompt` asks, and a task that an overflow
    goroutine runs returns. -/
def orderly (c : Choice) (a : ShardPool.Section n T) (s : State n T) : Bool :=
  match a with
  | .queue t b _ => prompt () b (s.queue t)
  | .overflow _ => !c.goexit
  | _ => true

def Orderly (c : Choice) (a : ShardPool.Section n T) (s : State n T) : Prop := orderly c a s = true

structure Alike (s s' : State n T) : Prop where
  queue : s'.queue = s.queue
  coming : s'.coming = s.coming
  running : s'.running = s.running
  idle : s'.idle = s.idle
  starving : s'.starving = s.starving
  wake : s'.wake = s.wake
  spawned : s'.spawned = s.spawned

inductive Step [Inhabited T] (cap : Nat) (s : State n T) :
    ShardPool.Section n T → State n T → List (ShardPool.Section n T) → Prop where
  | aside {s' : State n T} {a : ShardPool.Section n T} {more : List (ShardPool.Section n T)}
    (before : aside a = true) (after : ∀ b ∈ more, aside b = true) (alike : Alike s s') :
    Step cap s a s' more
  | submit (t : Fin n) (task : T) : Step cap s (.submit t task) s [.queue t (.push task) .submit]
  | submitBehind (t : Fin n) (task : T) :
    Step cap s (.submitBehind t task) s [.queue t (.push task) .behind]
  | batchDone (touched : List (Fin n)) :
    Step cap s (.submitBatch [] touched) s [.notifyEach (inOrder touched)]
  | batchNext (t : Fin n) (task : T) (rest : List (Fin n × T)) (touched : List (Fin n)) :
    Step cap s (.submitBatch ((t, task) :: rest) touched) s
      [.queue t (.push task) (.batch rest touched)]
  | eachDone : Step cap s (.notifyEach []) s []
  | each (t : Fin n) (touched : List (Fin n)) :
    Step cap s (.notifyEach (t :: touched)) s [.notify t (.batch touched)]
  | behindDraining (t : Fin n) (draining : 0 < s.running t) : Step cap s (.notifyBehind t) s []
  | behind (t : Fin n) : Step cap s (.notifyBehind t) s [.notify t .submit]
  | monitor (t : Fin n) : Step cap s (.monitor t) s [.look t .monitor]
  | look (t : Fin n) (k : Caller n) : Step cap s (.look t k) s [.lookSeq t (s.queue t).head k]
  | lookHit (t : Fin n) (pos : Nat) (k : Caller n) : Step cap s (.lookSeq t pos k) s [.notify t k]
  | lookMiss (t : Fin n) (pos : Nat) (k : Caller n)
    (missed : hasTask cap (s.queue t) pos = false) : Step cap s (.lookSeq t pos k) s (resume t k)
  | notify (t : Fin n) (k : Caller n) :
    Step cap s (.notify t k) s [.notifySeq t (s.queue t).head k]
  | notifyHit (t : Fin n) (pos : Nat) (k : Caller n) :
    Step cap s (.notifySeq t pos k) s [.notifyComing t k]
  | notifyMiss (t : Fin n) (pos : Nat) (k : Caller n)
    (missed : hasTask cap (s.queue t) pos = false) : Step cap s (.notifySeq t pos k) s (resume t k)
  | noneComing (t : Fin n) (k : Caller n) : Step cap s (.notifyComing t k) s [.notifyRaise t k]
  | someComing (t : Fin n) (k : Caller n) (coming : s.coming t ≠ 0) :
    Step cap s (.notifyComing t k) s (resume t k)
  | raise (t : Fin n) (k : Caller n) (none : s.coming t = 0) :
    Step cap s (.notifyRaise t k) { s with coming := Function.update s.coming t 1 }
      [.bring t (plan t) k]
  | raiseLost (t : Fin n) (k : Caller n) (coming : s.coming t ≠ 0) :
    Step cap s (.notifyRaise t k) s (resume t k)
  | bringNext (t : Fin n) (x : Attempt n) (plan : List (Attempt n)) (k : Caller n) :
    Step cap s (.bring t (x :: plan) k) s [.bring t plan k]
  | bringIdle (t shard : Fin n) (plan : List (Attempt n)) (k : Caller n) :
    Step cap s (.bring t (.wakeIdle shard :: plan) k) s [.takeIdle t shard plan k]
  | takeNone (t shard : Fin n) (plan : List (Attempt n)) (k : Caller n) :
    Step cap s (.takeIdle t shard plan k) s [.bring t plan k]
  | take (t shard : Fin n) (plan : List (Attempt n)) (k : Caller n) (w : Worker n) :
    Step cap s (.takeIdle t shard plan k)
      { s with idle := Function.update s.idle shard (s.idle shard).dropLast } [.send t w k]
  | send (t : Fin n) (w : Worker n) (k : Caller n) :
    Step cap s (.send t w k) (State.wokeBy { s with wake := s.wake ++ [(w, some t)] } k) (resume t k)
  | start (t shard : Fin n) (plan : List (Attempt n)) (k : Caller n) {live : Fin n → Nat}
    {workers : Nat} (w : Worker n) :
    Step cap s (.bring t (.start shard :: plan) k)
      (State.wokeBy { s with live := live, workers := workers,
                             spawned := s.spawned ++ [.worker w t] } k) (resume t k)
  | bringFail (t : Fin n) (k : Caller n) : Step cap s (.bring t [] k) s [.drop t k]
  | drop (t : Fin n) (k : Caller n) :
    Step cap s (.drop t k) { s with coming := Function.update s.coming t (s.coming t - 1) }
      [.checkStarving t k]
  | dropRaised (t : Fin n) (active : Nat) :
    Step cap s (.drop t (.raise active))
      { s with coming := Function.update s.coming t (s.coming t - 1) } [.notify t (.rescue active)]
  | isStarving (t : Fin n) (k : Caller n) (starving : s.starving = true) :
    Step cap s (.checkStarving t k) s [.hasIdle t 0 k]
  | notStarving (t : Fin n) (k : Caller n) : Step cap s (.checkStarving t k) s [.setStarving t k]
  | setStarving (t : Fin n) (k : Caller n) :
    Step cap s (.setStarving t k) { s with starving := true } [.hasIdle t 0 k]
  | someIdle (t : Fin n) (i : Nat) (k : Caller n) : Step cap s (.hasIdle t i k) s [.notify t k]
  | noneIdle (t : Fin n) (i : Nat) (k : Caller n) (inside : i < n) (none : s.idle ⟨i, inside⟩ = []) :
    Step cap s (.hasIdle t i k) s [.hasIdle t (i + 1) k]
  | nobodyIdle (t : Fin n) (i : Nat) (k : Caller n) (all : n ≤ i) :
    Step cap s (.hasIdle t i k) s (resume t k)
  | bornWorker (pick : Nat) (w : Worker n) (t : Fin n)
    (started : s.spawned[pick]? = some (.worker w t)) :
    Step cap s .born { s with spawned := s.spawned.eraseIdx pick } [.arrive w t]
  | bornOverflow (pick : Nat) (t : Fin n) (task : T)
    (started : s.spawned[pick]? = some (.overflow t task)) :
    Step cap s .born { s with spawned := s.spawned.eraseIdx pick } [.overflow t]
  | queueNext (t : Fin n) (b next : ShardRing.Section T) (user : User n T) (q : TaskRing T)
    (fits : pushes b = submits user) (ran : (q, [next]) = ShardRing.exec cap b (s.queue t)) :
    Step cap s (.queue t b user) { s with queue := Function.update s.queue t q }
      [.queue t next user]
  | pushed (t : Fin n) (pos : Nat) (q : TaskRing T) (user : User n T)
    (ran : (q, []) = ShardRing.exec cap (.pushPublish pos) (s.queue t)) (b : ShardPool.Section n T)
    (then_ : (user = .submit ∧ b = .notify t .submit) ∨ (user = .behind ∧ b = .notifyBehind t) ∨
      ∃ rest touched, user = .batch rest touched ∧ b = .submitBatch rest (t :: touched)) :
    Step cap s (.queue t (.pushPublish pos) user) { s with queue := Function.update s.queue t q } [b]
  | full (t : Fin n) (pos : Nat) (task : T) (user : User n T) (fits : submits user = true)
    (alone : ∀ rest touched, user ≠ .batch rest touched) :
    Step cap s (.queue t (.pushSeq pos task) user)
      { s with spawned := s.spawned ++ [.overflow t task] } []
  | fullBatch (t : Fin n) (pos : Nat) (task : T) (rest : List (Fin n × T)) (touched : List (Fin n)) :
    Step cap s (.queue t (.pushSeq pos task) (.batch rest touched))
      { s with spawned := s.spawned ++ [.overflow t task] } [.submitBatch rest touched]
  | popped (t : Fin n) (pos : Nat) (q : TaskRing T) (w : Worker n)
    (ran : (q, []) = ShardRing.exec cap (.popFree pos) (s.queue t)) :
    Step cap s (.queue t (.popFree pos) (.worker w))
      { s with queue := Function.update s.queue t q } [.look t (.drain w)]
  | poppedOver (t : Fin n) (pos : Nat) (q : TaskRing T)
    (ran : (q, []) = ShardRing.exec cap (.popFree pos) (s.queue t)) :
    Step cap s (.queue t (.popFree pos) .overflow)
      { s with queue := Function.update s.queue t q } [.overflow t]
  | popEmpty (t : Fin n) (pos : Nat) (w : Worker n) :
    Step cap s (.queue t (.popSeq pos) (.worker w)) s [.leave w t]
  | popEmptyOver (t : Fin n) (pos : Nat)
    (ran : (s.queue t, []) = ShardRing.exec cap (.popSeq pos) (s.queue t)) :
    Step cap s (.queue t (.popSeq pos) .overflow) s []
  | arrive (w : Worker n) (t : Fin n) :
    Step cap s (.arrive w t) { s with running := Function.update s.running t (s.running t + 1) }
      [.arrived w t]
  | arrived (w : Worker n) (t : Fin n) :
    Step cap s (.arrived w t) { s with coming := Function.update s.coming t (s.coming t - 1) }
      [.queue t .pop (.worker w)]
  | work (w : Worker n) (t : Fin n) : Step cap s (.work w t) s [.queue t .pop (.worker w)]
  | goexit (w : Worker n) (t : Fin n) : Step cap s (.work w t) s [.replace w t]
  | replace (w : Worker n) (t : Fin n) :
    Step cap s (.replace w t) { s with coming := Function.update s.coming t (s.coming t + 1) }
      [.replaced w t]
  | replaced (w : Worker n) (t : Fin n) :
    Step cap s (.replaced w t) { s with running := Function.update s.running t (s.running t - 1) }
      [.arrive w t]
  | leave (w : Worker n) (t : Fin n) :
    Step cap s (.leave w t) { s with running := Function.update s.running t (s.running t - 1) }
      [.look t (.left w)]
  | park (w : Worker n) (clock : Nat) :
    Step cap s (.park w)
      { s with idle := Function.update s.idle w.home (s.idle w.home ++ [(w, clock)]) }
      [.look w.home (.home w)]
  | starved (w : Worker n) : Step cap s (.starved w) s [.clear w]
  | settled (w : Worker n) (fed : s.starving = false) : Step cap s (.starved w) s [.wait w]
  | clear (w : Worker n) : Step cap s (.clear w) { s with starving := false } [.spread w 0]
  | clearLost (w : Worker n) (fed : s.starving = false) : Step cap s (.clear w) s [.wait w]
  | spread (w : Worker n) (i : Nat) (inside : i < n) :
    Step cap s (.spread w i) s [.notify ⟨i, inside⟩ (.spread w)]
  | spreadEnd (w : Worker n) (i : Nat) (all : n ≤ i) : Step cap s (.spread w i) s [.wait w]
  | woken (w : Worker n) (t : Fin n) (sent : (w, some t) ∈ s.wake) :
    Step cap s (.wait w) { s with wake := s.wake.erase (w, some t) } [.arrive w t]
  | sentAway (w : Worker n) (sent : (w, none) ∈ s.wake) :
    Step cap s (.wait w) { s with wake := s.wake.erase (w, none) } []
  | overflow (t : Fin n) : Step cap s (.overflow t) s [.queue t .pop .overflow]
  | scanRaise (t : Fin n) (active : Nat) :
    Step cap s (.scanRaise t active)
      { s with coming := Function.update s.coming t (s.coming t + 1) }
      [.bring t (plan t) (.raise active)]
  | retireIdle (t : Fin n) (deadline count : Nat) {live : Fin n → Nat} (retired : List (Worker n)) :
    Step cap s (.retireIdle t deadline)
      { s with idle := Function.update s.idle t ((s.idle t).drop count), live := live }
      [.dismiss retired]
  | dismiss (w : Worker n) (retired : List (Worker n)) :
    Step cap s (.dismiss (w :: retired)) { s with wake := s.wake ++ [(w, none)] } [.dismiss retired]

section Soundness

variable {s : State n T} {a : ShardPool.Section n T} {c : Choice}

theorem queue_same (s : State n T) (t : Fin n) :
    { s with queue := Function.update s.queue t (s.queue t) } = s := by
  rw [Function.update_eq_self]

theorem alike_refl (s : State n T) : Alike s s := ⟨rfl, rfl, rfl, rfl, rfl, rfl, rfl⟩

theorem fits_resume (t : Fin n) (k : Caller n) : ∀ b ∈ resume (T := T) t k, Fits b := by
  intro b member
  cases k <;> simp_all [resume, Fits]

variable [Inhabited T]

theorem ring_goes_on (b : ShardRing.Section T) (q : TaskRing T) :
    (∃ next, (ShardRing.exec cap b q).2 = [next]) ∨ (ShardRing.exec cap b q).2 = [] := by
  cases b <;> simp only [ShardRing.exec] <;> (repeat' split) <;> simp

theorem execWorker_next {t : Fin n} {b next : ShardRing.Section T} {user : User n T}
    (goes : (ShardRing.exec cap b (s.queue t)).2 = [next]) :
    execWorker cap c (.queue t b user) s =
      ({ s with queue := Function.update s.queue t (ShardRing.exec cap b (s.queue t)).1 },
        [.queue t next user]) := by
  simp only [execWorker]
  rw [goes]

theorem execWorker_last {t : Fin n} {b : ShardRing.Section T} {user : User n T}
    (last : (ShardRing.exec cap b (s.queue t)).2 = []) :
    execWorker cap c (.queue t b user) s =
      served t b user
        { s with queue := Function.update s.queue t (ShardRing.exec cap b (s.queue t)).1 } := by
  simp only [execWorker]
  rw [last]

theorem queue_step (t : Fin n) (b : ShardRing.Section T) (user : User n T)
    (fits : pushes b = submits user) :
    Step cap s (.queue t b user) (execWorker cap c (.queue t b user) s).1
      (execWorker cap c (.queue t b user) s).2 := by
  rcases ring_goes_on b (s.queue t) with ⟨next, goes⟩ | last
  · rw [execWorker_next goes]
    exact .queueNext t b next user _ fits (by rw [← goes])
  · rw [execWorker_last last]
    have ran : ((ShardRing.exec cap b (s.queue t)).1, []) = ShardRing.exec cap b (s.queue t) := by
      rw [← last]
    cases b with
    | pushPublish pos =>
      cases user with
      | submit => exact .pushed t pos _ _ ran _ (Or.inl ⟨rfl, rfl⟩)
      | behind => exact .pushed t pos _ _ ran _ (Or.inr (Or.inl ⟨rfl, rfl⟩))
      | batch rest touched =>
        exact .pushed t pos _ _ ran _ (Or.inr (Or.inr ⟨rest, touched, rfl, rfl⟩))
      | _ => cases fits
    | popFree pos =>
      cases user with
      | worker w => exact .popped t pos _ w ran
      | overflow => exact .poppedOver t pos _ ran
      | _ => cases fits
    | pushSeq pos task =>
      have same : (ShardRing.exec cap (.pushSeq pos task) (s.queue t)).1 = s.queue t := by
        simp only [ShardRing.exec]
        split
        · rfl
        · split <;> rfl
      rw [same, queue_same]
      cases user with
      | submit => exact .full t pos task .submit rfl (fun _ _ => by simp)
      | behind => exact .full t pos task .behind rfl (fun _ _ => by simp)
      | batch rest touched => exact .fullBatch t pos task rest touched
      | _ => cases fits
    | popSeq pos =>
      have same : (ShardRing.exec cap (.popSeq pos) (s.queue t)).1 = s.queue t := by
        simp only [ShardRing.exec]
        split
        · rfl
        · split <;> rfl
      rw [same] at ran
      rw [same, queue_same]
      cases user with
      | worker w => exact .popEmpty t pos w
      | overflow => exact .popEmptyOver t pos ran
      | _ => cases fits
    | pushClaim pos task | popClaim pos =>
      simp only [ShardRing.exec] at last
      split at last <;> cases last
    | _ => cases last

theorem notify_step (a : ShardPool.Section n T) (plain : part a = .notify) :
    Step cap s a (execNotify cap a s).1 (execNotify cap a s).2 := by
  cases a with
  | submit t task => exact .submit t task
  | submitBehind t task => exact .submitBehind t task
  | submitBatch rest touched =>
    cases rest with
    | nil => exact .batchDone touched
    | cons x rest => exact .batchNext x.1 x.2 rest touched
  | notifyEach touched =>
    cases touched with
    | nil => exact .eachDone
    | cons t touched => exact .each t touched
  | notifyBehind t =>
    simp only [execNotify]
    split
    · exact .behindDraining t (by assumption)
    · exact .behind t
  | monitor t => exact .monitor t
  | look t k => exact .look t k
  | lookSeq t pos k =>
    simp only [execNotify]
    split
    · exact .lookHit t pos k
    · exact .lookMiss t pos k (Bool.eq_false_iff.mpr (by assumption))
  | notify t k => exact .notify t k
  | notifySeq t pos k =>
    simp only [execNotify]
    split
    · exact .notifyHit t pos k
    · exact .notifyMiss t pos k (Bool.eq_false_iff.mpr (by assumption))
  | notifyComing t k =>
    simp only [execNotify]
    split
    · exact .noneComing t k
    · exact .someComing t k (by assumption)
  | notifyRaise t k =>
    simp only [execNotify]
    split
    · exact .raise t k (by assumption)
    · exact .raiseLost t k (by assumption)
  | bring t plan k =>
    cases plan with
    | nil => exact .bringFail t k
    | cons x plan =>
      cases x with
      | wakeIdle shard =>
        simp only [execNotify]
        split
        · exact .bringNext t _ plan k
        · exact .bringIdle t shard plan k
      | start shard =>
        simp only [execNotify]
        split
        · exact .bringNext t _ plan k
        · exact .start t shard plan k _
  | takeIdle t shard plan k =>
    simp only [execNotify]
    split
    · exact .takeNone t shard plan k
    · exact .take t shard plan k _
  | send t w k => exact .send t w k
  | drop t k =>
    simp only [execNotify]
    split
    · exact .dropRaised t _
    · exact .drop t k
  | checkStarving t k =>
    simp only [execNotify]
    split
    · exact .isStarving t k (by assumption)
    · exact .notStarving t k
  | setStarving t k => exact .setStarving t k
  | hasIdle t i k =>
    simp only [execNotify]
    split
    · split
      · exact .noneIdle t i k (by assumption) (by assumption)
      · exact .someIdle t i k
    · exact .nobodyIdle t i k (Nat.le_of_not_lt (by assumption))
  | _ => cases plain

theorem worker_step (a : ShardPool.Section n T) (own : part a = .worker) (fits : Fits a)
    (kind : orderly c a s = true) :
    Step cap s a (execWorker cap c a s).1 (execWorker cap c a s).2 := by
  cases a with
  | born =>
    simp only [execWorker]
    split
    · exact .aside rfl (by simp [aside]) (alike_refl s)
    · exact .bornWorker c.pick _ _ (by assumption)
    · exact .bornOverflow c.pick _ _ (by assumption)
  | queue t b user => exact queue_step t b user fits
  | arrive w t => exact .arrive w t
  | arrived w t => exact .arrived w t
  | work w t =>
    simp only [execWorker]
    split
    · exact .goexit w t
    · exact .work w t
  | replace w t => exact .replace w t
  | replaced w t => exact .replaced w t
  | leave w t => exact .leave w t
  | park w => exact .park w c.clock
  | starved w =>
    simp only [execWorker]
    split
    · exact .starved w
    · exact .settled w (Bool.eq_false_iff.mpr (by assumption))
  | clear w =>
    simp only [execWorker]
    split
    · exact .clear w
    · exact .clearLost w (Bool.eq_false_iff.mpr (by assumption))
  | spread w i =>
    simp only [execWorker]
    split
    · exact .spread w i (by assumption)
    · exact .spreadEnd w i (Nat.le_of_not_lt (by assumption))
  | wait w =>
    simp only [execWorker]
    split
    · exact .aside rfl (by simp [aside]) (alike_refl s)
    · rename_i x t found
      have own : x = w := by simpa using List.find?_some found
      subst own
      exact .woken x t (List.mem_of_find?_eq_some found)
    · rename_i x found
      have own : x = w := by simpa using List.find?_some found
      subst own
      exact .sentAway x (List.mem_of_find?_eq_some found)
  | overflow t =>
    have returns : c.goexit = false := by simpa [orderly] using kind
    simp only [execWorker, returns]
    exact .overflow t
  | _ => cases own

theorem scan_step (a : ShardPool.Section n T) (own : part a = .scan) :
    Step cap s a (execScan cap c a s).1 (execScan cap c a s).2 := by
  cases a with
  | scanRaise t active => exact .scanRaise t active
  | retireIdle t deadline => exact .retireIdle t deadline _ _
  | dismiss retired =>
    cases retired with
    | nil => exact .aside rfl (by simp [execScan]) (alike_refl s)
    | cons w retired => exact .dismiss w retired
  | rescue | rescueClock | scan _ _ | scanLook _ _ | scanSeq _ _ _ | scanRunning _ _
  | scanComing _ _ | rescued | retire _ _ =>
    refine .aside rfl ?_ ?_
    · intro b member
      simp only [execScan] at member
      (repeat' split at member) <;> simp_all [aside]
    · simp only [execScan]
      (repeat' split) <;> exact ⟨rfl, rfl, rfl, rfl, rfl, rfl, rfl⟩
  | _ => cases own

theorem exec_step (a : ShardPool.Section n T) (fits : Fits a) (kind : Orderly c a s) :
    Step cap s a (ShardPool.exec cap c a s).1 (ShardPool.exec cap c a s).2 := by
  unfold ShardPool.exec
  split
  · exact notify_step a (by assumption)
  · exact worker_step a (by assumption) fits kind
  · exact scan_step a (by assumption)

theorem ring_kind {b next : ShardRing.Section T} {q q' : TaskRing T}
    (ran : (q', [next]) = ShardRing.exec cap b q) : pushes next = pushes b := by
  cases b <;> simp only [ShardRing.exec] at ran <;> (repeat' split at ran) <;> simp_all [pushes]

theorem fits_step {s' : State n T} {more : List (ShardPool.Section n T)}
    (step : Step cap s a s' more) : ∀ b ∈ more, Fits b := by
  intro b member
  cases step with
  | aside _ after _ =>
    have free := after b member
    cases b <;> trivial
  | lookMiss | notifyMiss | someComing | raiseLost | send | start | nobodyIdle =>
    exact fits_resume _ _ b member
  | queueNext t b' next user q fits ran =>
    rw [List.mem_singleton.mp member]
    exact (ring_kind ran).trans fits
  | pushed t pos q user ran b' next =>
    rw [List.mem_singleton.mp member]
    obtain ⟨_, rfl⟩ | ⟨_, rfl⟩ | ⟨_, _, _, rfl⟩ := next <;> trivial
  | _ =>
    first
    | rw [List.mem_singleton.mp member]; trivial
    | cases member

theorem fits_run {q : Interleaving.Pool (State n T) (ShardPool.Section n T)}
    (run : Run (ShardPool.program n cap) Orderly ShardPool.empty q) : ∀ a ∈ owed q, Fits a := by
  refine (owed_carries (fun _ => True) (fun _ => Fits) trivial (by rintro _ ⟨⟩) ?_ ?_ run).2
  · intro s a _ legal
    cases a <;> trivial
  · intro s a c _ kind _ fits
    exact ⟨trivial, fun b other => other, fits_step (exec_step a fits kind)⟩

end Soundness

end ShardSteps
