import Uio.Shardpool.Ring

/-!
The workers of a pool that has not been stopped. Each shard has a queue, the ring of
`ShardRing`, and workers of its own that park when the queues have nothing for them. A
submitter that finds no worker on its way wakes one, starts one or borrows one from another
shard. A thread is where one goroutine stands; a loop, or a call, carries what it returns
to. Which shard a key picks, the janitor's and the callers' clocks, when the monitor looks
and whether a task ends its goroutine are the environment's.
-/
namespace ShardPool
open Interleaving ShardRing

variable {n : Nat} {T : Type}

def maxWorkers : Nat := 512

def rescueStalls : Nat := 2

structure Worker (n : Nat) where
  id : Nat
  home : Fin n
  deriving DecidableEq

inductive Goroutine (n : Nat) (T : Type) where
  | worker (w : Worker n) (target : Fin n)
  | overflow (target : Fin n) (task : T)

structure State (n : Nat) (T : Type) where
  queue : Fin n → TaskRing T
  coming : Fin n → Nat
  running : Fin n → Nat
  /-- the parked workers, the most recently parked last, with the clock when they parked -/
  idle : Fin n → List (Worker n × Nat)
  live : Fin n → Nat
  starving : Bool
  /-- the workers sent a shard to serve, or sent away -/
  wake : List (Worker n × Option (Fin n))
  spawned : List (Goroutine n T)
  workers : Nat
  rescuing : Bool
  rescueHead : Fin n → Nat
  stalls : Fin n → Nat
  /-- the running scan has brought in a worker -/
  woke : Bool

def State.fresh [Inhabited T] : State n T :=
  { queue := fun _ => .fresh, coming := fun _ => 0, running := fun _ => 0, idle := fun _ => [],
    live := fun _ => 0, starving := false, wake := [], spawned := [], workers := 0,
    rescuing := false, rescueHead := fun _ => 0, stalls := fun _ => 0, woke := false }

inductive Caller (n : Nat) where
  | submit
  | batch (touched : List (Fin n))
  /-- a worker that took a task and looks behind it -/
  | drain (w : Worker n)
  /-- a worker that found its shard's queue empty -/
  | left (w : Worker n)
  /-- a worker that parks, at its own shard -/
  | home (w : Worker n)
  /-- a worker that parks and found the pool starving, at every shard -/
  | spread (w : Worker n)
  | monitor
  | rescue (active : Nat)
  /-- a scan that raised the count itself -/
  | raise (active : Nat)

inductive User (n : Nat) (T : Type) where
  | submit
  | behind
  | batch (rest : List (Fin n × T)) (touched : List (Fin n))
  | worker (w : Worker n)
  | overflow

/-- One way to find a worker: wake an idle one of a shard, or start one there. -/
inductive Attempt (n : Nat) where
  | wakeIdle (shard : Fin n)
  | start (shard : Fin n)

inductive Section (n : Nat) (T : Type) where
  | submit (t : Fin n) (task : T)
  | submitBehind (t : Fin n) (task : T)
  | submitBatch (rest : List (Fin n × T)) (touched : List (Fin n))
  | notifyEach (touched : List (Fin n))
  | notifyBehind (t : Fin n)
  | monitor (t : Fin n)
  | born
  | queue (t : Fin n) (a : ShardRing.Section T) (user : User n T)
  | look (t : Fin n) (k : Caller n)
  | lookSeq (t : Fin n) (pos : Nat) (k : Caller n)
  | notify (t : Fin n) (k : Caller n)
  | notifySeq (t : Fin n) (pos : Nat) (k : Caller n)
  | notifyComing (t : Fin n) (k : Caller n)
  | notifyRaise (t : Fin n) (k : Caller n)
  | bring (t : Fin n) (plan : List (Attempt n)) (k : Caller n)
  | takeIdle (t shard : Fin n) (plan : List (Attempt n)) (k : Caller n)
  | send (t : Fin n) (w : Worker n) (k : Caller n)
  | drop (t : Fin n) (k : Caller n)
  | checkStarving (t : Fin n) (k : Caller n)
  | setStarving (t : Fin n) (k : Caller n)
  | hasIdle (t : Fin n) (i : Nat) (k : Caller n)
  | arrive (w : Worker n) (t : Fin n)
  | arrived (w : Worker n) (t : Fin n)
  | work (w : Worker n) (t : Fin n)
  | replace (w : Worker n) (t : Fin n)
  | replaced (w : Worker n) (t : Fin n)
  | leave (w : Worker n) (t : Fin n)
  | park (w : Worker n)
  | starved (w : Worker n)
  | clear (w : Worker n)
  | spread (w : Worker n) (i : Nat)
  | wait (w : Worker n)
  | overflow (t : Fin n)
  | rescue
  | rescueClock
  | scan (i active : Nat)
  | scanLook (t : Fin n) (active : Nat)
  | scanSeq (t : Fin n) (pos active : Nat)
  | scanRunning (t : Fin n) (active : Nat)
  | scanComing (t : Fin n) (active : Nat)
  | scanRaise (t : Fin n) (active : Nat)
  | rescued
  | retire (t : Fin n) (deadline : Nat)
  | retireIdle (t : Fin n) (deadline : Nat)
  | dismiss (retired : List (Worker n))

structure Choice where
  /-- the janitor's clock -/
  clock : Nat := 0
  /-- the task ends its goroutine -/
  goexit : Bool := false
  /-- which of the goroutines that were started runs -/
  pick : Nat := 0
  /-- enough time has passed since the last scan, and no other scan came first -/
  due : Bool := true
  /-- the number of active shards -/
  active : Nat := 0

def hasTask (cap : Nat) (q : TaskRing T) (pos : Nat) : Bool := same (q.seq (pos % cap)) (pos + 1)

def neighbours (t : Fin n) : List (Fin n) :=
  ((List.range n).map fun i => ⟨(t.val + 1 + i) % n, Nat.mod_lt _ t.pos⟩).filter (· ≠ t)

def plan (t : Fin n) : List (Attempt n) :=
  [Attempt.wakeIdle t, .start t] ++ (neighbours t).map .wakeIdle ++ (neighbours t).map .start

def inOrder (touched : List (Fin n)) : List (Fin n) := (List.finRange n).filter (touched.contains ·)

def State.wokeBy (s : State n T) : Caller n → State n T
  | .rescue _ | .raise _ => { s with woke := true }
  | _ => s

@[simp] theorem wokeBy_queue (s : State n T) (k : Caller n) : (s.wokeBy k).queue = s.queue := by
  cases k <;> rfl

@[simp] theorem wokeBy_coming (s : State n T) (k : Caller n) : (s.wokeBy k).coming = s.coming := by
  cases k <;> rfl

@[simp] theorem wokeBy_running (s : State n T) (k : Caller n) : (s.wokeBy k).running = s.running := by
  cases k <;> rfl

@[simp] theorem wokeBy_idle (s : State n T) (k : Caller n) : (s.wokeBy k).idle = s.idle := by
  cases k <;> rfl

@[simp] theorem wokeBy_starving (s : State n T) (k : Caller n) : (s.wokeBy k).starving = s.starving := by
  cases k <;> rfl

@[simp] theorem wokeBy_wake (s : State n T) (k : Caller n) : (s.wokeBy k).wake = s.wake := by
  cases k <;> rfl

@[simp] theorem wokeBy_spawned (s : State n T) (k : Caller n) : (s.wokeBy k).spawned = s.spawned := by
  cases k <;> rfl

def resume (t : Fin n) : Caller n → List (Section n T)
  | .submit | .monitor => []
  | .batch touched => [.notifyEach touched]
  | .drain w => [.work w t]
  | .left w => [.park w]
  | .home w => [.starved w]
  | .spread w => [.spread w (t + 1)]
  | .rescue active | .raise active => [.scan (t + 1) active]

def served (t : Fin n) (a : ShardRing.Section T) (user : User n T) (s : State n T) :
    State n T × List (Section n T) :=
  match a, user with
  | .pushPublish _, .submit => (s, [.notify t .submit])
  | .pushPublish _, .behind => (s, [.notifyBehind t])
  | .pushPublish _, .batch rest touched => (s, [.submitBatch rest (t :: touched)])
  -- the queue is full
  | .pushSeq _ task, .batch rest touched =>
    ({ s with spawned := s.spawned ++ [.overflow t task] }, [.submitBatch rest touched])
  | .pushSeq _ task, _ => ({ s with spawned := s.spawned ++ [.overflow t task] }, [])
  | .popFree _, .worker w => (s, [.look t (.drain w)])
  | .popFree _, .overflow => (s, [.overflow t])
  -- the queue is empty
  | .popSeq _, .worker w => (s, [.leave w t])
  | _, _ => (s, [])

section Machine

variable [Inhabited T]

def execNotify (cap : Nat) (a : Section n T) (s : State n T) : State n T × List (Section n T) :=
  match a with
  | .submit t task => (s, [.queue t (.push task) .submit])
  | .submitBehind t task => (s, [.queue t (.push task) .behind])
  | .submitBatch [] touched => (s, [.notifyEach (inOrder touched)])
  | .submitBatch ((t, task) :: rest) touched => (s, [.queue t (.push task) (.batch rest touched)])
  | .notifyEach [] => (s, [])
  | .notifyEach (t :: touched) => (s, [.notify t (.batch touched)])
  | .notifyBehind t =>
    -- a worker that drains the shard takes the task, and the monitor looks after it
    if 0 < s.running t then (s, []) else (s, [.notify t .submit])
  | .monitor t => (s, [.look t .monitor])
  | .look t k => (s, [.lookSeq t (s.queue t).head k])
  | .lookSeq t pos k => (s, if hasTask cap (s.queue t) pos then [.notify t k] else resume t k)
  | .notify t k => (s, [.notifySeq t (s.queue t).head k])
  | .notifySeq t pos k =>
    (s, if hasTask cap (s.queue t) pos then [.notifyComing t k] else resume t k)
  | .notifyComing t k => (s, if s.coming t = 0 then [.notifyRaise t k] else resume t k)
  | .notifyRaise t k =>
    if s.coming t = 0 then
      ({ s with coming := Function.update s.coming t 1 }, [.bring t (plan t) k])
    else (s, resume t k)
  | .bring t (.wakeIdle shard :: rest) k =>
    (s, if s.idle shard = [] then [.bring t rest k] else [.takeIdle t shard rest k])
  | .takeIdle t shard rest k =>
    match (s.idle shard).getLast? with
    | none => (s, [.bring t rest k])
    | some (w, _) =>
      ({ s with idle := Function.update s.idle shard (s.idle shard).dropLast }, [.send t w k])
  | .send t w k => (State.wokeBy { s with wake := s.wake ++ [(w, some t)] } k, resume t k)
  | .bring t (.start shard :: rest) k =>
    if maxWorkers ≤ s.live shard then (s, [.bring t rest k])
    else
      (State.wokeBy { s with live := Function.update s.live shard (s.live shard + 1),
                             workers := s.workers + 1,
                             spawned := s.spawned ++ [.worker ⟨s.workers, shard⟩ t] } k,
        resume t k)
  | .bring t [] k => (s, [.drop t k])
  | .drop t k =>
    ({ s with coming := Function.update s.coming t (s.coming t - 1) },
      match k with
      | .raise active => [.notify t (.rescue active)]
      | _ => [.checkStarving t k])
  | .checkStarving t k => (s, if s.starving then [.hasIdle t 0 k] else [.setStarving t k])
  | .setStarving t k => ({ s with starving := true }, [.hasIdle t 0 k])
  | .hasIdle t i k =>
    if inside : i < n then
      (s, if s.idle ⟨i, inside⟩ = [] then [.hasIdle t (i + 1) k] else [.notify t k])
    else (s, resume t k)
  | _ => (s, [])

/-- The life of a worker, and of a goroutine that took a task its shard could not queue. -/
def execWorker (cap : Nat) (c : Choice) (a : Section n T) (s : State n T) :
    State n T × List (Section n T) :=
  match a with
  | .born =>
    match s.spawned[c.pick]? with
    | none => (s, [.born])
    | some (.worker w t) => ({ s with spawned := s.spawned.eraseIdx c.pick }, [.arrive w t])
    | some (.overflow t _) => ({ s with spawned := s.spawned.eraseIdx c.pick }, [.overflow t])
  | .queue t b user =>
    let (q, more) := ShardRing.exec cap b (s.queue t)
    let s' := { s with queue := Function.update s.queue t q }
    match more with
    | next :: _ => (s', [.queue t next user])
    | [] => served t b user s'
  | .arrive w t => ({ s with running := Function.update s.running t (s.running t + 1) }, [.arrived w t])
  | .arrived w t =>
    ({ s with coming := Function.update s.coming t (s.coming t - 1) }, [.queue t .pop (.worker w)])
  | .work w t => (s, if c.goexit then [.replace w t] else [.queue t .pop (.worker w)])
  | .replace w t => ({ s with coming := Function.update s.coming t (s.coming t + 1) }, [.replaced w t])
  | .replaced w t =>
    ({ s with running := Function.update s.running t (s.running t - 1) }, [.arrive w t])
  | .leave w t =>
    ({ s with running := Function.update s.running t (s.running t - 1) }, [.look t (.left w)])
  | .park w =>
    ({ s with idle := Function.update s.idle w.home (s.idle w.home ++ [(w, c.clock)]) },
      [.look w.home (.home w)])
  | .starved w => (s, if s.starving then [.clear w] else [.wait w])
  | .clear w =>
    if s.starving then ({ s with starving := false }, [.spread w 0]) else (s, [.wait w])
  | .spread w i =>
    if inside : i < n then (s, [.notify ⟨i, inside⟩ (.spread w)]) else (s, [.wait w])
  | .wait w =>
    match s.wake.find? (·.1 = w) with
    | none => (s, [.wait w])
    | some (_, some t) => ({ s with wake := s.wake.erase (w, some t) }, [.arrive w t])
    -- sent away
    | some (_, none) => ({ s with wake := s.wake.erase (w, none) }, [])
  | .overflow t => (s, if c.goexit then [] else [.queue t .pop .overflow])
  | _ => (s, [])

def execScan (cap : Nat) (c : Choice) (a : Section n T) (s : State n T) :
    State n T × List (Section n T) :=
  match a with
  | .rescue =>
    if s.rescuing then (s, []) else ({ s with rescuing := true }, [.rescueClock])
  | .rescueClock => ({ s with woke := false }, if c.due then [.scan 0 c.active] else [.rescued])
  | .scan i active =>
    if inside : i < n then
      if active ≤ i then (s, [.rescued])
      else if (s.queue ⟨i, inside⟩).head ≠ s.rescueHead ⟨i, inside⟩ then
        ({ s with rescueHead := Function.update s.rescueHead ⟨i, inside⟩ (s.queue ⟨i, inside⟩).head,
                  stalls := Function.update s.stalls ⟨i, inside⟩ 0 }, [.scan (i + 1) active])
      else (s, [.scanLook ⟨i, inside⟩ active])
    else (s, [.rescued])
  | .scanLook t active => (s, [.scanSeq t (s.queue t).head active])
  | .scanSeq t pos active =>
    if hasTask cap (s.queue t) pos then
      ({ s with stalls := Function.update s.stalls t (s.stalls t + 1) },
        if s.woke ∨ s.stalls t + 1 < rescueStalls then [.scan (t + 1) active]
        else [.scanRunning t active])
    else ({ s with stalls := Function.update s.stalls t 0 }, [.scan (t + 1) active])
  | .scanRunning t active =>
    (s, if s.running t ≠ 0 then [.scan (t + 1) active] else [.scanComing t active])
  | .scanComing t active =>
    if s.coming t = 0 then (s, [.scan (t + 1) active])
    else ({ s with stalls := Function.update s.stalls t 0 }, [.scanRaise t active])
  | .scanRaise t active =>
    ({ s with coming := Function.update s.coming t (s.coming t + 1) },
      [.bring t (plan t) (.raise active)])
  | .rescued => ({ s with rescuing := false }, [])
  | .retire t deadline => (s, if (s.idle t).length ≤ 1 then [] else [.retireIdle t deadline])
  | .retireIdle t deadline =>
    -- the longest parked first, and one stays
    let retired := (s.idle t).dropLast.takeWhile (·.2 < deadline)
    ({ s with idle := Function.update s.idle t ((s.idle t).drop retired.length),
              live := Function.update s.live t (s.live t - retired.length) },
      [.dismiss (retired.map Prod.fst)])
  | .dismiss [] => (s, [])
  | .dismiss (w :: retired) => ({ s with wake := s.wake ++ [(w, none)] }, [.dismiss retired])
  | _ => (s, [])

inductive Part where
  | notify
  | worker
  | scan

def part : Section n T → Part
  | .born | .queue .. | .arrive .. | .arrived .. | .work .. | .replace .. | .replaced .. | .leave ..
  | .park _ | .starved _ | .clear _ | .spread .. | .wait _ | .overflow _ => .worker
  | .rescue | .rescueClock | .scan .. | .scanLook .. | .scanSeq .. | .scanRunning ..
  | .scanComing .. | .scanRaise .. | .rescued | .retire .. | .retireIdle .. | .dismiss _ => .scan
  | _ => .notify

def exec (cap : Nat) (c : Choice) (a : Section n T) (s : State n T) :
    State n T × List (Section n T) :=
  match part a with
  | .notify => execNotify cap a s
  | .worker => execWorker cap c a s
  | .scan => execScan cap c a s

/-- A goroutine runs once it was started; a parked worker waits to be woken. -/
def ready (a : Section n T) (s : State n T) : Bool :=
  match a with
  | .born => !s.spawned.isEmpty
  | .wait w => s.wake.any (·.1 = w)
  | _ => true

def entry : Section n T → Bool
  | .submit .. | .submitBehind .. | .submitBatch _ [] | .monitor _ | .born | .rescue | .retire .. =>
    true
  | _ => false

def program (n cap : Nat) : Program (State n T) (Section n T) Choice := ⟨entry, ready, exec cap⟩

def empty : Interleaving.Pool (State n T) (Section n T) := ⟨.fresh, []⟩

end Machine

end ShardPool
